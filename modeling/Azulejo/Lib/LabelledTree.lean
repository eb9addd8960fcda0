import Azulejo.Lib.AssocList
import Mathlib.Data.List.Find

/-!
# Ordered trees with labelled children

A node carries data and an ordered list of labelled children; a label may occur more than
once among siblings. `get?` and `set` address a node by the labels on the way to it, taking
the first child of each label; `set` creates the nodes that are missing. The results that
matter are `get?_set_self`, `set_set_append` (writing below a node just written is writing
a changed node) and the search `firstPath`, the first node of a label in pre-order.
-/

/-- A node with its data and its labelled children, in order. -/
inductive LTree (κ δ : Type) where
  | node (data : δ) (children : List (κ × LTree κ δ))

namespace LTree

open AssocList

variable {κ δ : Type}

def data : LTree κ δ → δ
  | node d _ => d

def children : LTree κ δ → List (κ × LTree κ δ)
  | node _ cs => cs

@[simp] theorem data_node (d : δ) (cs : List (κ × LTree κ δ)) : (node d cs).data = d := rfl

@[simp] theorem children_node (d : δ) (cs : List (κ × LTree κ δ)) :
    (node d cs).children = cs := rfl

/-- The labels of the children, in order. -/
def labels (t : LTree κ δ) : List κ := keys t.children

instance [Inhabited δ] : Inhabited (LTree κ δ) := ⟨node default []⟩

/-- The node without data and children. -/
def empty [Inhabited δ] : LTree κ δ := node default []

/-- The node with further children at its end. -/
def addChildren (t : LTree κ δ) (cs : List (κ × LTree κ δ)) : LTree κ δ :=
  node t.data (t.children ++ cs)

@[simp] theorem addChildren_node (d : δ) (cs cs' : List (κ × LTree κ δ)) :
    (node d cs).addChildren cs' = node d (cs ++ cs') := rfl

@[simp] theorem addChildren_nil (t : LTree κ δ) : t.addChildren [] = t := by
  cases t
  simp

theorem labels_addChildren (t : LTree κ δ) (cs : List (κ × LTree κ δ)) :
    (t.addChildren cs).labels = t.labels ++ keys cs := List.map_append

theorem addChildren_append (t : LTree κ δ) (cs cs' : List (κ × LTree κ δ)) :
    t.addChildren (cs ++ cs') = (t.addChildren cs).addChildren cs' := by
  cases t
  simp

mutual
/-- The tree with other data. -/
def mapData {ε : Type} (f : δ → ε) : LTree κ δ → LTree κ ε
  | node d cs => node (f d) (mapDataIn f cs)
def mapDataIn {ε : Type} (f : δ → ε) : List (κ × LTree κ δ) → List (κ × LTree κ ε)
  | [] => []
  | (k, t) :: cs => (k, mapData f t) :: mapDataIn f cs
end

mutual
/-- Induction over a tree: each node may assume the property of all its children. -/
theorem induct {motive : LTree κ δ → Prop}
    (step : ∀ d cs, (∀ p ∈ cs, motive p.2) → motive (node d cs)) : ∀ t, motive t
  | node d cs => step d cs (inductChildren step cs)
theorem inductChildren {motive : LTree κ δ → Prop}
    (step : ∀ d cs, (∀ p ∈ cs, motive p.2) → motive (node d cs)) :
    ∀ cs : List (κ × LTree κ δ), ∀ p ∈ cs, motive p.2
  | [], p, hp => by cases hp
  | (k, t) :: cs, p, hp => by
      rcases List.mem_cons.mp hp with rfl | hp
      · exact induct step t
      · exact inductChildren step cs p hp
end

mutual
/-- The number of levels below the node. -/
def height : LTree κ δ → Nat
  | node _ cs => heightList cs
def heightList : List (κ × LTree κ δ) → Nat
  | [] => 0
  | (_, t) :: cs => max (height t + 1) (heightList cs)
end

theorem height_lt_of_mem {p : κ × LTree κ δ} {cs : List (κ × LTree κ δ)} (h : p ∈ cs) :
    p.2.height < heightList cs := by
  induction cs with
  | nil => cases h
  | cons q cs ih =>
    obtain ⟨k, t⟩ := q
    simp only [heightList]
    rcases List.mem_cons.mp h with rfl | h
    · exact Nat.lt_of_lt_of_le (Nat.lt_succ_self _) (Nat.le_max_left _ _)
    · exact Nat.lt_of_lt_of_le (ih h) (Nat.le_max_right _ _)

/-! ## Addressing a node -/

section Paths

variable [BEq κ] [LawfulBEq κ]

/-- The node reached by following the first child of each label. -/
def get? : List κ → LTree κ δ → Option (LTree κ δ)
  | [], t => some t
  | k :: ks, t => (List.lookup k t.children).bind (get? ks)

omit [LawfulBEq κ] in

omit [LawfulBEq κ] in
theorem get?_cons (k : κ) (ks : List κ) (t : LTree κ δ) :
    get? (k :: ks) t = (List.lookup k t.children).bind (get? ks) := rfl

omit [LawfulBEq κ] in
theorem get?_append (p q : List κ) (t : LTree κ δ) :
    get? (p ++ q) t = (get? p t).bind (get? q) := by
  induction p generalizing t with
  | nil => rfl
  | cons k p ih =>
    rw [List.cons_append, get?_cons, get?_cons]
    cases List.lookup k t.children with
    | none => rfl
    | some c => exact ih c

omit [LawfulBEq κ] in
theorem get?_concat {p : List κ} {t s : LTree κ δ} (h : get? p t = some s) (k : κ) :
    get? (p ++ [k]) t = List.lookup k s.children := by
  rw [get?_append, h]
  simp only [Option.bind_some, get?_cons]
  cases List.lookup k s.children <;> rfl

theorem height_lt_of_lookup {k : κ} {t s : LTree κ δ} (h : List.lookup k t.children = some s) :
    s.height < t.height := by
  have hs : s.height < heightList t.children := height_lt_of_mem (lookup_mem h)
  cases t
  exact hs

/-- A path that leads to a node is no longer than the height of the tree. -/
theorem length_add_height_le {p : List κ} {t s : LTree κ δ} (h : get? p t = some s) :
    p.length + s.height ≤ t.height := by
  induction p generalizing t with
  | nil =>
    cases h
    simp
  | cons k p ih =>
    rw [get?_cons] at h
    cases hl : List.lookup k t.children with
    | none =>
      rw [hl] at h
      cases h
    | some c =>
      rw [hl] at h
      have hc : c.height < t.height := height_lt_of_lookup hl
      have hp := ih h
      rw [List.length_cons]
      omega

/-! ## Paths on which every label is unambiguous -/

/-- At every node on the way, at most one child has the next label. -/
def UniqueAlong : LTree κ δ → List κ → Prop
  | _, [] => True
  | t, k :: ks =>
    t.labels.count k ≤ 1 ∧ ∀ c, List.lookup k t.children = some c → UniqueAlong c ks

omit [LawfulBEq κ] in
theorem uniqueAlong_append {t : LTree κ δ} {p q : List κ} (hp : UniqueAlong t p)
    (hq : ∀ s, get? p t = some s → UniqueAlong s q) : UniqueAlong t (p ++ q) := by
  induction p generalizing t with
  | nil => exact hq t rfl
  | cons k p ih =>
    refine ⟨hp.1, fun c hc => ih (hp.2 c hc) fun s hs => hq s ?_⟩
    rw [get?_cons, hc]
    exact hs

theorem uniqueAlong_singleton_of_not_mem {t : LTree κ δ} {k : κ} (h : k ∉ t.labels) :
    UniqueAlong t [k] := by
  refine ⟨?_, fun _ _ => trivial⟩
  rw [List.count_eq_zero_of_not_mem h]
  exact Nat.zero_le 1

/-- Sibling labels are distinct at every node. -/
inductive Distinct : LTree κ δ → Prop where
  | node {d : δ} {cs : List (κ × LTree κ δ)} (nodup : (keys cs).Nodup)
      (children : ∀ p ∈ cs, Distinct p.2) : Distinct (node d cs)

omit [BEq κ] [LawfulBEq κ] in
theorem distinct_leaf (d : δ) : (node d [] : LTree κ δ).Distinct :=
  .node List.nodup_nil (by simp)

omit [BEq κ] [LawfulBEq κ] in
theorem distinct_singleton {t : LTree κ δ} (h : t.Distinct) (d : δ) (k : κ) :
    (node d [(k, t)]).Distinct :=
  .node (List.nodup_singleton k) (by simp [h])

omit [BEq κ] [LawfulBEq κ] in
theorem Distinct.nodup {t : LTree κ δ} (h : Distinct t) : t.labels.Nodup := by
  cases h with
  | node nodup _ => exact nodup

theorem Distinct.of_lookup {t c : LTree κ δ} {k : κ} (h : Distinct t)
    (hc : List.lookup k t.children = some c) : Distinct c := by
  cases h with
  | node _ children => exact children (k, c) (lookup_mem hc)

theorem Distinct.uniqueAlong {t : LTree κ δ} (h : Distinct t) (p : List κ) :
    UniqueAlong t p := by
  induction p generalizing t with
  | nil => trivial
  | cons k p ih =>
    exact ⟨List.nodup_iff_count_le_one.mp h.nodup k, fun c hc => ih (h.of_lookup hc)⟩

theorem Distinct.of_get? {t s : LTree κ δ} {p : List κ} (h : Distinct t)
    (hs : get? p t = some s) : Distinct s := by
  induction p generalizing t with
  | nil =>
    cases hs
    exact h
  | cons k p ih =>
    rw [get?_cons] at hs
    cases hl : List.lookup k t.children with
    | none =>
      rw [hl] at hs
      cases hs
    | some c =>
      rw [hl] at hs
      exact ih (h.of_lookup hl) hs

/-! ## Writing at a path -/

variable [Inhabited δ]

/-- Put `v` at a path: in place of the node there, creating the nodes that are missing. -/
def set : List κ → LTree κ δ → LTree κ δ → LTree κ δ
  | [], _, v => v
  | k :: ks, t, v =>
    node t.data (setIn k (set ks ((List.lookup k t.children).getD empty) v) t.children)

omit [LawfulBEq κ] in
@[simp] theorem set_nil (t v : LTree κ δ) : t.set [] v = v := rfl

omit [LawfulBEq κ] in
theorem set_cons (k : κ) (ks : List κ) (t v : LTree κ δ) :
    t.set (k :: ks) v =
      node t.data (setIn k (((List.lookup k t.children).getD empty).set ks v) t.children) := rfl

omit [LawfulBEq κ] in
theorem set_singleton (k : κ) (t v : LTree κ δ) :
    t.set [k] v = node t.data (setIn k v t.children) := rfl

theorem get?_set_self (p : List κ) (t v : LTree κ δ) : (t.set p v).get? p = some v := by
  induction p generalizing t with
  | nil => rfl
  | cons k p ih =>
    rw [set_cons, get?_cons, children_node, lookup_setIn_self]
    exact ih _

/-- Writing at `p ++ q` after writing `v` at `p` is writing `v`, changed at `q`, at `p`. -/
theorem set_set_append (p q : List κ) (t v w : LTree κ δ) :
    (t.set p v).set (p ++ q) w = t.set p (v.set q w) := by
  induction p generalizing t with
  | nil => rfl
  | cons k p ih =>
    rw [List.cons_append, set_cons, set_cons k p t v, children_node, data_node, lookup_setIn_self,
      Option.getD_some, ih, setIn_setIn, ← set_cons]

/-- Writing at a path changes nothing exactly if the value stands there already. -/
theorem set_eq_self_iff {p : List κ} {t v : LTree κ δ} : t.set p v = t ↔ t.get? p = some v := by
  constructor
  · intro h
    rw [← h, get?_set_self]
  · intro h
    induction p generalizing t with
    | nil => exact (Option.some.inj h).symm
    | cons k p ih =>
      rw [get?_cons] at h
      obtain ⟨c, hc, hv⟩ := Option.bind_eq_some_iff.mp h
      rw [set_cons, hc, Option.getD_some, ih hv, setIn_of_lookup hc]
      cases t
      rfl

/-- A label that no child has gets a new child at the end. -/
theorem set_singleton_of_not_mem {k : κ} {t : LTree κ δ} (h : k ∉ t.labels) (v : LTree κ δ) :
    t.set [k] v = t.addChildren [(k, v)] := by
  rw [set_singleton, setIn_of_not_mem h]
  rfl

omit [LawfulBEq κ] in
theorem uniqueAlong_empty (p : List κ) : UniqueAlong (empty : LTree κ δ) p := by
  cases p with
  | nil => trivial
  | cons k p =>
    refine ⟨by simp [labels, empty], ?_⟩
    intro c hc
    cases hc

theorem uniqueAlong_set {t v : LTree κ δ} {p q : List κ} (hp : UniqueAlong t p)
    (hq : UniqueAlong v q) : UniqueAlong (t.set p v) (p ++ q) := by
  induction p generalizing t with
  | nil => exact hq
  | cons k p ih =>
    rw [set_cons]
    refine ⟨Nat.le_of_eq (count_setIn_self hp.1 _), ?_⟩
    intro c hc
    rw [children_node, lookup_setIn_self] at hc
    cases hc
    apply ih
    cases hl : List.lookup k t.children with
    | none => exact uniqueAlong_empty p
    | some c => exact hp.2 c hl

end Paths

/-! ## The nodes in pre-order -/

section Preorder

mutual
/-- The nodes below the root in pre-order, each with its path. -/
def preorder : LTree κ δ → List (List κ × LTree κ δ)
  | node _ cs => preorderIn cs
def preorderIn : List (κ × LTree κ δ) → List (List κ × LTree κ δ)
  | [] => []
  | (k, t) :: cs => ([k], t) :: ((preorder t).map (fun q => (k :: q.1, q.2)) ++ preorderIn cs)
end

theorem preorderIn_cons (k : κ) (t : LTree κ δ) (cs : List (κ × LTree κ δ)) :
    preorderIn ((k, t) :: cs) =
      ([k], t) :: ((preorder t).map (fun q => (k :: q.1, q.2)) ++ preorderIn cs) := by
  rw [preorderIn]

theorem mem_preorderIn {cs : List (κ × LTree κ δ)} {p : List κ} {s : LTree κ δ} :
    (p, s) ∈ preorderIn cs ↔ ∃ k q t, p = k :: q ∧ (k, t) ∈ cs ∧
      (q = [] ∧ s = t ∨ (q, s) ∈ t.preorder) := by
  induction cs with
  | nil => simp [preorderIn]
  | cons c cs ih =>
    obtain ⟨j, u⟩ := c
    rw [preorderIn_cons, List.mem_cons, List.mem_append, ih, List.mem_map]
    constructor
    · rintro (h | ⟨⟨q, t⟩, hq, h⟩ | ⟨k, q, t, rfl, hmem, h⟩)
      · cases h
        exact ⟨j, [], s, rfl, List.mem_cons_self, Or.inl ⟨rfl, rfl⟩⟩
      · cases h
        exact ⟨j, q, u, rfl, List.mem_cons_self, Or.inr hq⟩
      · exact ⟨k, q, t, rfl, List.mem_cons_of_mem _ hmem, h⟩
    · rintro ⟨k, q, t, rfl, hmem, h⟩
      rcases List.mem_cons.mp hmem with hmem | hmem
      · cases hmem
        rcases h with ⟨rfl, rfl⟩ | h
        · exact Or.inl rfl
        · exact Or.inr (Or.inl ⟨(q, s), h, rfl⟩)
      · exact Or.inr (Or.inr ⟨k, q, t, rfl, hmem, h⟩)

theorem ne_nil_of_mem_preorder {t : LTree κ δ} {q : List κ × LTree κ δ} (h : q ∈ t.preorder) :
    q.1 ≠ [] := by
  obtain ⟨d, cs⟩ := t
  rw [preorder] at h
  obtain ⟨k, p, _, hp, -⟩ := mem_preorderIn.mp h
  rw [hp]
  exact List.cons_ne_nil k p

/-- With distinct siblings the paths of `preorder` are those that lead to a node. -/
theorem Distinct.mem_preorder [BEq κ] [LawfulBEq κ] {t : LTree κ δ} (h : t.Distinct)
    {p : List κ} {s : LTree κ δ} : (p, s) ∈ t.preorder ↔ p ≠ [] ∧ t.get? p = some s := by
  induction h generalizing p s with
  | @node d cs nodup children ih =>
    rw [preorder, mem_preorderIn]
    constructor
    · rintro ⟨k, q, t, rfl, hmem, hq⟩
      refine ⟨List.cons_ne_nil k q, ?_⟩
      rw [get?_cons, children_node, lookup_of_nodup nodup hmem, Option.bind_some]
      rcases hq with ⟨rfl, rfl⟩ | hq
      · rfl
      · exact ((ih (k, t) hmem).mp hq).2
    · rintro ⟨hp, hs⟩
      obtain ⟨k, q, rfl⟩ := List.exists_cons_of_ne_nil hp
      rw [get?_cons, children_node] at hs
      obtain ⟨t, ht, hs⟩ := Option.bind_eq_some_iff.mp hs
      have hmem := lookup_mem ht
      refine ⟨k, q, t, rfl, hmem, ?_⟩
      by_cases hq : q = []
      · subst hq
        exact Or.inl ⟨rfl, (Option.some.inj hs).symm⟩
      · exact Or.inr ((ih (k, t) hmem).mpr ⟨hq, hs⟩)

end Preorder

/-! ## The first node of a label in pre-order -/

section Search

variable [BEq κ]

mutual
/-- The path of the first node labelled `k`: a node comes before its descendants, an
earlier sibling's whole subtree before a later sibling. -/
def firstPath (k : κ) : LTree κ δ → Option (List κ)
  | node _ cs => firstPathIn k cs
def firstPathIn (k : κ) : List (κ × LTree κ δ) → Option (List κ)
  | [] => none
  | (j, t) :: cs =>
    if j == k then some [j]
    else match firstPath k t with
      | some p => some (j :: p)
      | none => firstPathIn k cs
end

mutual
/-- A path found by the search ends in the label looked for. -/
theorem firstPath_eq_concat [LawfulBEq κ] {k : κ} : ∀ {t : LTree κ δ} {p : List κ},
    firstPath k t = some p → ∃ q, p = q ++ [k]
  | node _ cs, p, h => by
      rw [firstPath] at h
      exact firstPathIn_eq_concat h
theorem firstPathIn_eq_concat [LawfulBEq κ] {k : κ} : ∀ {cs : List (κ × LTree κ δ)} {p : List κ},
    firstPathIn k cs = some p → ∃ q, p = q ++ [k]
  | [], p, h => by cases h
  | (j, t) :: cs, p, h => by
      simp only [firstPathIn] at h
      split at h
      · rename_i hj
        cases h
        exact ⟨[], by simpa using hj⟩
      · split at h
        · rename_i p' hp'
          cases h
          obtain ⟨q, rfl⟩ := firstPath_eq_concat hp'
          exact ⟨j :: q, rfl⟩
        · exact firstPathIn_eq_concat h
end

mutual
/-- With distinct siblings the path found leads to a node. -/
theorem Distinct.get?_firstPath [LawfulBEq κ] {k : κ} : ∀ {t : LTree κ δ} {p : List κ},
    t.Distinct → t.firstPath k = some p → ∃ s, t.get? p = some s
  | node _ _, p, .node nodup children, h => by
      rw [firstPath] at h
      obtain ⟨j, q, s, rfl, hs⟩ := lookup_firstPathIn nodup children h
      exact ⟨s, hs⟩
theorem lookup_firstPathIn [LawfulBEq κ] {k : κ} : ∀ {cs : List (κ × LTree κ δ)} {p : List κ},
    (keys cs).Nodup → (∀ q ∈ cs, q.2.Distinct) → firstPathIn k cs = some p →
      ∃ j q s, p = j :: q ∧ (List.lookup j cs).bind (get? q) = some s
  | [], p, _, _, h => by cases h
  | (j, t) :: cs, p, hnodup, hchildren, h => by
      simp only [firstPathIn] at h
      rw [keys_cons, List.nodup_cons] at hnodup
      split at h
      · cases h
        exact ⟨j, [], t, rfl, by rw [lookup_cons_self]; rfl⟩
      · split at h
        · rename_i p' hp'
          cases h
          obtain ⟨s, hs⟩ := Distinct.get?_firstPath (hchildren (j, t) List.mem_cons_self) hp'
          exact ⟨j, p', s, rfl, by rw [lookup_cons_self]; exact hs⟩
        · obtain ⟨i, q, s, rfl, hs⟩ := lookup_firstPathIn hnodup.2
            (fun r hr => hchildren r (List.mem_cons_of_mem _ hr)) h
          have hi : i ∈ keys cs := by
            cases hl : List.lookup i cs with
            | none =>
              rw [hl] at hs
              cases hs
            | some c => exact lookup_some_mem_keys hl
          have hne : j ≠ i := by
            rintro rfl
            exact hnodup.1 hi
          exact ⟨i, q, s, rfl, by rw [lookup_cons_ne hne]; exact hs⟩
end

/-- Among trees one of which has the label, the search finds it there or below one that stands
before it. -/
theorem firstPathIn_cases [LawfulBEq κ] {k : κ} {cs : List (κ × LTree κ δ)} (h : k ∈ keys cs) :
    (firstPathIn k cs = some [k] ∧
      ∀ c ∈ cs.takeWhile (fun c => c.1 != k), c.2.firstPath k = none) ∨
    ∃ c ∈ cs.takeWhile (fun c => c.1 != k), ∃ p, c.2.firstPath k = some p ∧
      firstPathIn k cs = some (c.1 :: p) := by
  induction cs with
  | nil => cases h
  | cons c cs ih =>
    obtain ⟨j, t⟩ := c
    rw [firstPathIn]
    by_cases hj : j = k
    · subst hj
      exact Or.inl ⟨by simp, by simp⟩
    · have hbefore : ((j, t) :: cs).takeWhile (fun c => c.1 != k) =
          (j, t) :: cs.takeWhile (fun c => c.1 != k) := by
        rw [List.takeWhile_cons_of_pos (by simpa using hj)]
      rw [if_neg (by simpa using hj), hbefore]
      have hcs : k ∈ keys cs := by
        rw [keys_cons, List.mem_cons] at h
        exact h.resolve_left (Ne.symm hj)
      cases hfirst : t.firstPath k with
      | some p => exact Or.inr ⟨(j, t), List.mem_cons_self, p, hfirst, rfl⟩
      | none =>
        rcases ih hcs with ⟨hfound, hnone⟩ | ⟨c, hc, p, hp, hfound⟩
        · refine Or.inl ⟨hfound, fun c hc => ?_⟩
          rcases List.mem_cons.mp hc with rfl | hc
          · exact hfirst
          · exact hnone c hc
        · exact Or.inr ⟨c, List.mem_cons_of_mem _ hc, p, hp, hfound⟩

mutual
/-- The search stops at the first node of the label. -/
theorem firstPath_eq_find? [LawfulBEq κ] (k : κ) : ∀ t : LTree κ δ,
    firstPath k t = (t.preorder.find? fun q => q.1.getLast? == some k).map Prod.fst
  | node _ cs => by
    rw [firstPath, preorder]
    exact firstPathIn_eq_find? k cs
theorem firstPathIn_eq_find? [LawfulBEq κ] (k : κ) : ∀ cs : List (κ × LTree κ δ),
    firstPathIn k cs =
      ((preorderIn cs).find? fun q => q.1.getLast? == some k).map Prod.fst
  | [] => by
    rw [firstPathIn, preorderIn]
    rfl
  | (j, t) :: cs => by
    rw [firstPathIn, preorderIn_cons, List.find?_cons, firstPath_eq_find? k t,
      firstPathIn_eq_find? k cs]
    by_cases hj : j = k
    · subst hj
      simp
    · have hroot : ([j].getLast? == some k) = false := by
        rw [List.getLast?_singleton]
        exact beq_false_of_ne fun h => hj (Option.some.inj h)
      -- below a child the last label of a path is the one it has there
      have hbelow : ((preorder t).map fun q => (j :: q.1, q.2)).find?
            (fun q => q.1.getLast? == some k) =
          ((preorder t).find? fun q => q.1.getLast? == some k).map
            fun q => (j :: q.1, q.2) := by
        rw [List.find?_map]
        congr 1
        refine List.find?_congr fun q hq => ?_
        rw [Function.comp_apply, List.getLast?_cons_of_ne_nil (ne_nil_of_mem_preorder hq)]
      rw [hroot, List.find?_append, hbelow]
      cases (preorder t).find? fun q => q.1.getLast? == some k with
      | none => simp [hj]
      | some q => simp [hj]
end

theorem firstPath_eq_none [LawfulBEq κ] {k : κ} {t : LTree κ δ} :
    t.firstPath k = none ↔ ∀ q ∈ t.preorder, q.1.getLast? ≠ some k := by
  rw [firstPath_eq_find?, Option.map_eq_none_iff, List.find?_eq_none]
  simp

end Search

end LTree
