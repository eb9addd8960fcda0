import Azulejo.Properties.SaveEffect
import Azulejo.Lib.TreeWays

/-!
# The place of each entity

A save gives every entity a node, at the keys on the way to it joined by `.`, and a directory,
where each `.` is a separator. The path is read again name by name, so a key counts as the names
it consists of: as names of nodes cut at each `.`, as names of directories also at each `/`.
Entities have places of their own exactly when the ways to them stay apart when they are read so.
-/

namespace Azulejo

open AssocList Stateful

variable {T D C W : Type}

/-! ## Names -/

/-- The names on the way to a node of a property tree. -/
def nodeNames (path : Str) : List Str := path.splitOn '.'

/-- The names on the way to a directory: a repeated separator and `.` name nothing. -/
def directoryNames (path : Path) : List Str :=
  (path.splitOn '/').filter fun name => name ≠ [] ∧ name ≠ ['.']

/-- The names of directories in a part of a search path. -/
def pathNames (path : Str) : List Str := directoryNames (dotsToSlashes path)

theorem nodeNames_ne_nil (path : Str) : nodeNames path ≠ [] := List.splitOn_ne_nil '.' path

mutual
/-- The keys of the entities that an adapter saves, as a tree. -/
def keyTree (A : Adapter T D C) : Entity T D → LTree Key Key
  | .mk key _ _ membersMap _ => .node key (keyTreeIn A membersMap)
def keyTreeIn (A : Adapter T D C) : List (Key × Option (Entity T D)) → List (Key × LTree Key Key)
  | [] => []
  | (_, none) :: members => keyTreeIn A members
  | (key, some member) :: members =>
    if A.implements member.type then (key, keyTree A member) :: keyTreeIn A members
    else keyTreeIn A members
end

theorem data_keyTree (A : Adapter T D C) (e : Entity T D) : (keyTree A e).data = e.key := by
  obtain ⟨key, type, data, membersMap, ctors⟩ := e
  rfl

/-- The search path at the end of a way down. -/
def pathTo (parentKey : Str) (way : List Key) : Str := way.foldl searchPathOf parentKey

/-- The call of `Save` at the end of a way down. -/
def callAt (directory : Str → C) (parentKey : Str) (way : List Key) : SaveCall C :=
  ⟨pathTo parentKey way, directory (pathTo parentKey way)⟩

mutual
/-- The calls are made at the ends of the ways down, in pre-order. -/
theorem values_saveCalls (A : Adapter T D C) (directory : Str → C) : ∀ (e : Entity T D)
    (parentKey : Str), (saveCalls A directory e parentKey).values =
      (keyTree A e).ways.map (callAt directory parentKey)
  | .mk key _ _ membersMap _, parentKey => by
    simp only [saveCalls, keyTree, LTree.values, LTree.ways, List.map_cons, List.map_map]
    rw [values_saveMemberCalls A directory membersMap]
    rfl
theorem values_saveMemberCalls (A : Adapter T D C) (directory : Str → C) :
    ∀ (members : List (Key × Option (Entity T D))) (searchPath : Str),
      LTree.valuesIn (saveMemberCalls A directory members searchPath) =
        (LTree.waysIn (keyTreeIn A members)).map (callAt directory searchPath)
  | [], _ => by simp only [saveMemberCalls, keyTreeIn, LTree.valuesIn, LTree.waysIn, List.map_nil]
  | (_, none) :: members, searchPath => by
    simp only [saveMemberCalls, keyTreeIn]
    exact values_saveMemberCalls A directory members searchPath
  | (_, some member) :: members, searchPath => by
    unfold saveMemberCalls keyTreeIn
    by_cases himplements : A.implements member.type = true
    · rw [if_pos himplements, if_pos himplements, LTree.valuesIn, LTree.waysIn, List.map_append,
        values_saveCalls A directory member, values_saveMemberCalls A directory members]
    · rw [if_neg himplements, if_neg himplements]
      exact values_saveMemberCalls A directory members searchPath
end

section Save

variable {P : PtreePaths} {A : Adapter T D C} {target : Path → Str → C}

def savePath (s : SaveState W) : Path := s.hierarchy.serializationPath

theorem onNewChild_keeps_savePath (path : Str) (x : EStateM Exception Ptree Unit) :
    Keeps savePath (onNewChild P path x : EStateM Exception (SaveState W) Unit) := by
  intro s
  rw [onNewChild, zoom_run]
  cases x.run LTree.empty <;> rfl

mutual
/-- A save that returns has made these calls. -/
theorem of_saveWithParentKey_ok {finish : EStateM Exception (SaveState W) Unit}
    (hfinish : Keeps savePath finish) : ∀ (e : Entity T D) {parentKey : Str} {s s' : SaveState W}
    {calls : LTree Key (SaveCall C)},
    (saveWithParentKey P A target finish e parentKey).run s = .ok calls s' →
      e.key ≠ [] ∧ calls = saveCalls A (target (savePath s)) e parentKey ∧ savePath s' = savePath s
  | .mk key type data membersMap _, parentKey, s, s', calls, h => by
    by_cases hkey : key = []
    · simp only [saveWithParentKey, if_pos hkey] at h
      cases h
    simp only [saveWithParentKey, if_neg hkey] at h
    rw [bind_ok (EStateM.run_get s)] at h
    obtain ⟨u, s₁, hchild, h⟩ := of_bind_ok h
    obtain ⟨memberCalls, s₂, hmembers, h⟩ := of_bind_ok h
    have hpath₁ : savePath s₁ = savePath s := (onNewChild_keeps_savePath _ _).eq hchild
    obtain ⟨hcalls, hpath₂⟩ := of_saveMembers_ok hfinish membersMap hmembers
    have hend : calls = .node ⟨searchPathOf parentKey key,
        target (savePath s) (searchPathOf parentKey key)⟩ memberCalls ∧
        savePath s' = savePath s₂ := by
      by_cases hparent : parentKey = []
      · simp only [if_pos hparent] at h
        obtain ⟨_, s₃, hfin, h⟩ := of_bind_ok h
        cases h
        exact ⟨rfl, hfinish.eq hfin⟩
      · simp only [if_neg hparent] at h
        cases h
        exact ⟨rfl, rfl⟩
    refine ⟨hkey, ?_, hend.2.trans (hpath₂.trans hpath₁)⟩
    rw [hend.1, hcalls, hpath₁, saveCalls]
theorem of_saveMembers_ok {finish : EStateM Exception (SaveState W) Unit}
    (hfinish : Keeps savePath finish) : ∀ (members : List (Key × Option (Entity T D)))
    {searchPath : Str} {s s' : SaveState W} {calls : List (Key × LTree Key (SaveCall C))},
    (saveMembers P A target finish members searchPath).run s = .ok calls s' →
      calls = saveMemberCalls A (target (savePath s)) members searchPath ∧ savePath s' = savePath s
  | [], _, _, _, _, h => by
    simp only [saveMembers] at h
    cases h
    simp only [saveMemberCalls, and_self]
  | (_, none) :: members, _, _, _, _, h => by
    simp only [saveMembers] at h
    simp only [saveMemberCalls]
    exact of_saveMembers_ok hfinish members h
  | (key, some member) :: members, searchPath, s, s', calls, h => by
    unfold saveMembers at h
    unfold saveMemberCalls
    by_cases himplements : A.implements member.type = true
    · rw [if_pos himplements] at h ⊢
      obtain ⟨first, s₁, hfirst, h⟩ := of_bind_ok h
      obtain ⟨more, s₂, hmore, h⟩ := of_bind_ok h
      obtain ⟨_, hcalls, hpath₁⟩ := of_saveWithParentKey_ok hfinish member hfirst
      obtain ⟨hmoreCalls, hpath₂⟩ := of_saveMembers_ok hfinish members hmore
      cases h
      rw [hcalls, hmoreCalls, hpath₁]
      exact ⟨rfl, hpath₂.trans hpath₁⟩
    · rw [if_neg himplements] at h ⊢
      exact of_saveMembers_ok hfinish members h
end

end Save

/-! ## The names at the end of a way -/

/-- The names of nodes on the later way do not begin the names on the earlier one. -/
def NodesApart (earlier later : List Key) : Prop :=
  ¬ later.flatMap nodeNames <+: earlier.flatMap nodeNames

/-- The ways have different names of directories. -/
def DirectoriesApart (v w : List Key) : Prop := v.flatMap pathNames ≠ w.flatMap pathNames

instance : DecidableRel NodesApart := fun v w =>
  inferInstanceAs (Decidable (¬ w.flatMap nodeNames <+: v.flatMap nodeNames))

instance : DecidableRel DirectoriesApart := fun v w =>
  inferInstanceAs (Decidable (v.flatMap pathNames ≠ w.flatMap pathNames))

/-- A key that is one name, of a node and of a directory. -/
def IsName (k : Key) : Prop := PlainKey k ∧ '/' ∉ k

theorem nodeNames_of_isName {k : Key} (h : IsName k) : nodeNames k = [k] :=
  List.splitOn_eq_singleton h.1.2

theorem pathNames_of_isName {k : Key} (h : IsName k) : pathNames k = [k] := by
  have hdots : dotsToSlashes k = k := by
    have hid : ∀ c ∈ k, (if c = '.' then '/' else c) = id c := by
      intro c hc
      have hdot : c ≠ '.' := by
        rintro rfl
        exact h.1.2 hc
      rw [if_neg hdot]
      rfl
    exact (List.map_congr_left hid).trans (List.map_id k)
  have hsplit : k.splitOn '/' = [k] := List.splitOn_eq_singleton h.2
  have hdot : k ≠ ['.'] := by
    rintro rfl
    exact h.1.2 List.mem_cons_self
  unfold pathNames directoryNames
  rw [hdots, hsplit]
  simp [h.1.1, hdot]

/-- The keys of an entity tree are names, and its members carry the keys they were aggregated
under. -/
inductive NamedTree (A : Adapter T D C) : Entity T D → Prop where
  | mk {key : Key} {type : T} {data : D} {membersMap : List (Key × Option (Entity T D))}
      {ctors : List (Key × T)} (name : IsName key) (sorted : Sorted membersMap)
      (carry : ∀ k m, Visited A membersMap k m → m.key = k)
      (members : ∀ k m, Visited A membersMap k m → NamedTree A m) :
      NamedTree A (.mk key type data membersMap ctors)

theorem NamedTree.name {A : Adapter T D C} {e : Entity T D} (h : NamedTree A e) : IsName e.key := by
  cases h with
  | mk name => exact name

/-- A way below the members begins with the key of a visited one. -/
theorem exists_visited_of_mem_waysIn {A : Adapter T D C}
    {membersMap : List (Key × Option (Entity T D))} {way : List Key}
    (h : way ∈ LTree.waysIn (keyTreeIn A membersMap)) :
    ∃ k m rest, Visited A membersMap k m ∧ way = m.key :: rest := by
  induction membersMap with
  | nil => simp [keyTreeIn, LTree.waysIn] at h
  | cons p members ih =>
    have hlater : way ∈ LTree.waysIn (keyTreeIn A members) →
        ∃ k m rest, Visited A (p :: members) k m ∧ way = m.key :: rest := by
      intro hway
      obtain ⟨k, m, rest, hm, hrest⟩ := ih hway
      exact ⟨k, m, rest, hm.cons, hrest⟩
    obtain ⟨k, pointer⟩ := p
    cases pointer with
    | none =>
      rw [keyTreeIn] at h
      exact hlater h
    | some m =>
      unfold keyTreeIn at h
      by_cases himplements : A.implements m.type = true
      · rw [if_pos himplements, LTree.waysIn, List.mem_append] at h
        rcases h with hway | hway
        · obtain ⟨rest, hrest⟩ := LTree.exists_cons_of_mem_ways hway
          rw [data_keyTree] at hrest
          exact ⟨k, m, rest, ⟨List.mem_cons_self, himplements⟩, hrest⟩
        · exact hlater hway
      · rw [if_neg himplements] at h
        exact hlater h

/-- Trees of names are separated by a relation that holds of ways with different first names. -/
theorem NamedTree.separated {A : Adapter T D C} {R : List Key → List Key → Prop}
    (hroot : ∀ k, IsName k → R [] [k])
    (hfirst : ∀ k k' v w, IsName k → IsName k' → k ≠ k' → R (k :: v) (k' :: w)) {e : Entity T D}
    (he : NamedTree A e) : (keyTree A e).Separated R := by
  induction he with
  | @mk key type data membersMap ctors name sorted carry members ih =>
    rw [keyTree, LTree.Separated]
    have hnodup := sorted.nodup
    clear sorted name
    induction membersMap with
    | nil => exact trivial
    | cons p rest ihrest =>
      rw [keys_cons, List.nodup_cons] at hnodup
      have hlater := ihrest (fun k m hm => carry k m hm.cons) (fun k m hm => members k m hm.cons)
        (fun k m hm => ih k m hm.cons) hnodup.2
      obtain ⟨k, pointer⟩ := p
      cases pointer with
      | none =>
        rw [keyTreeIn]
        exact hlater
      | some m =>
        unfold keyTreeIn
        by_cases himplements : A.implements m.type = true
        · rw [if_pos himplements, LTree.SeparatedIn, data_keyTree]
          have hm : Visited A ((k, some m) :: rest) k m := ⟨List.mem_cons_self, himplements⟩
          refine ⟨hroot m.key (members k m hm).name, ih k m hm, fun v hv w hw => ?_, hlater⟩
          obtain ⟨v', rfl⟩ := LTree.exists_cons_of_mem_ways hv
          obtain ⟨k', m', w', hm', rfl⟩ := exists_visited_of_mem_waysIn hw
          rw [data_keyTree]
          refine hfirst _ _ _ _ (members k m hm).name (members k' m' hm'.cons).name ?_
          rw [carry k m hm, carry k' m' hm'.cons]
          intro hsame
          have hmem : k' ∈ keys rest := mem_keys_of_mem hm'.1
          exact hnodup.1 (hsame ▸ hmem)
        · rw [if_neg himplements]
          exact hlater

/-- Entities whose keys are names have places of their own. -/
theorem NamedTree.own_places {A : Adapter T D C} {e : Entity T D} (he : NamedTree A e) :
    (keyTree A e).Separated NodesApart ∧ (keyTree A e).Separated DirectoriesApart := by
  constructor
  · refine he.separated (fun k _ => ?_) (fun k k' v w hk hk' hne => ?_)
    · unfold NodesApart
      simp [nodeNames_ne_nil]
    · unfold NodesApart
      rw [List.flatMap_cons, List.flatMap_cons, nodeNames_of_isName hk, nodeNames_of_isName hk']
      simp [Ne.symm hne]
  · refine he.separated (fun k hk => ?_) (fun k k' v w hk hk' hne => ?_)
    · unfold DirectoriesApart
      simp [pathNames_of_isName hk]
    · unfold DirectoriesApart
      rw [List.flatMap_cons, List.flatMap_cons, pathNames_of_isName hk, pathNames_of_isName hk']
      simp [hne]

/-! ## Saves that return -/

end Azulejo
