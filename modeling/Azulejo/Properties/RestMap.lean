import Azulejo.Interprocess.RESTServer

/-!
# The REST server as a map

Seen from its clients the server is a map from keys to texts. `MapRequest` are the requests with
the bodies the handlers expect, and `MapRequest.next` and `MapRequest.answered` say what such a
request does to the map and what it answers for each key. The dictionary and the replies of the
handlers follow the map over every sequence of requests.
-/

namespace Azulejo

open AssocList Stateful

/-! ## The map -/

/-- A map from keys to texts. -/
abbrev TextMap := Str → Option Str

/-- The strings of a JSON array. -/
def strings (elements : List JValue) : List Str := elements.filterMap JValue.text?

/-- The texts that a JSON object has for a key, in their order. A name may be there repeatedly. -/
def texts (members : List (Str × JValue)) (key : Str) : List Str :=
  members.filterMap fun member => if member.1 = key then member.2.text? else none

/-- A request with the body its handler expects: a JSON object or a JSON array. -/
inductive MapRequest where
  | get
  | put (members : List (Str × JValue))
  | post (elements : List JValue)
  | del (elements : List JValue)

namespace MapRequest

open RESTServer

def toRequest : MapRequest → RestRequest
  | get => .GET
  | put members => .PUT (.ok (.object members))
  | post elements => .POST (.ok (.array elements))
  | del elements => .DEL (.ok (.array elements))

/-- The map after the request. Of the texts for a key the last is kept. -/
def next (m : TextMap) : MapRequest → TextMap
  | get => m
  | put members => fun key => (texts members key).getLast?.or (m key)
  | post _ => m
  | del elements => fun key => if key ∈ strings elements then none else m key

/-- What is answered for a key that is put with texts, one after another, over an entry. The
second text finds the first one stored. -/
def putMessage (entry : Option Str) : List Str → Option Str
  | [] => none
  | [_] => some (if entry = none then PUT_MSG else UPDATED_MSG)
  | _ :: _ :: _ => some UPDATED_MSG

/-- What is answered for each key. -/
def answered (m : TextMap) : MapRequest → TextMap
  | get => m
  | put members => fun key => putMessage (m key) (texts members key)
  | post elements => fun key =>
    if key ∈ strings elements then some ((m key).getD NIL_MSG) else none
  | del elements => fun key =>
    if key ∈ strings elements then some (if m key = none then FAILED_MSG else DELETED_MSG) else none

/-- The map after requests. -/
def nextAll (m : TextMap) : List MapRequest → TextMap
  | [] => m
  | request :: requests => nextAll (request.next m) requests

/-- A name that is there twice is answered as updated, although the map had nothing for it. -/
example : (put [(['a'], .string ['1']), (['a'], .string ['2'])]).answered (fun _ => none) ['a'] =
    some UPDATED_MSG := rfl

/-- What is answered to each of the requests. -/
def answeredAll (m : TextMap) : List MapRequest → List TextMap
  | [] => []
  | request :: requests => request.answered m :: answeredAll (request.next m) requests

end MapRequest

/-! ## What the dictionary and a reply say -/

/-- The dictionary has the entries of the map. -/
def Represents (dictionary : Dictionary) (m : TextMap) : Prop :=
  Sorted dictionary ∧ ∀ key, List.lookup key dictionary = m key

/-- The answer has a member for each key with an answer, and no other. -/
def Shows (answer : Answer) (f : TextMap) : Prop :=
  Sorted answer ∧ ∀ key, List.lookup key answer = (f key).map JValue.string

/-- A successful reply with such an answer. -/
def Answers (reply : Reply) (f : TextMap) : Prop :=
  reply.code = .OK ∧ ∃ answer, reply.answer = .object answer ∧ Shows answer f

theorem sorted_nil {κ ν : Type} [LinearOrder κ] : Sorted ([] : List (κ × ν)) := List.Pairwise.nil

/-- Answers that depend on the key alone, for the keys of a list. -/
theorem shows_insertEach (message : Str → Str) (ks : List Str) :
    Shows (insertEach (fun key => JValue.string (message key)) ks [])
      (fun key => if key ∈ ks then some (message key) else none) := by
  refine ⟨sorted_insertEach _ _ sorted_nil, fun key => ?_⟩
  rw [lookup_insertEach]
  by_cases hkey : key ∈ ks
  · simp only [if_pos hkey, Option.map_some]
  · simp only [if_neg hkey, Option.map_none, List.lookup_nil]

theorem text?_eq_some {e : JValue} {key : Str} : e.text? = some key ↔ e = .string key := by
  cases e <;> simp [JValue.text?]

namespace RESTServer

/-! ## The loops of the handlers -/

theorem postElement_string (d : Dictionary) (answer : Answer) (key : Str) :
    postElement d answer (.string key) =
      insertSorted key (.string ((List.lookup key d).getD NIL_MSG)) answer := by
  cases hlookup : List.lookup key d <;> simp only [postElement, hlookup] <;> rfl

theorem postElement_of_text?_none (d : Dictionary) (answer : Answer) {e : JValue}
    (h : e.text? = none) : postElement d answer e = answer := by
  cases e with
  | string key => cases h
  | _ => rfl

theorem postElement_fold (d : Dictionary) (elements : List JValue) (answer : Answer) :
    elements.foldl (postElement d) answer =
      insertEach (fun key => .string ((List.lookup key d).getD NIL_MSG)) (strings elements)
        answer := by
  induction elements generalizing answer with
  | nil => rfl
  | cons e elements ih =>
    rw [List.foldl_cons, ih]
    cases htext : e.text? with
    | none =>
      rw [postElement_of_text?_none d answer htext, strings, strings,
        List.filterMap_cons_none htext]
    | some key =>
      obtain rfl := text?_eq_some.mp htext
      rw [postElement_string]
      rfl

theorem delElement_string (d : Dictionary) (answer : Answer) (erased : List Str) (key : Str) :
    delElement d (answer, erased) (.string key) =
      (insertSorted key
          (.string (if List.lookup key d = none then FAILED_MSG else DELETED_MSG)) answer,
        if List.lookup key d = none then erased else erased.insert key) := by
  cases hlookup : List.lookup key d <;> simp only [delElement, hlookup] <;> rfl

theorem delElement_of_text?_none (d : Dictionary) (state : Answer × List Str) {e : JValue}
    (h : e.text? = none) : delElement d state e = state := by
  cases e with
  | string key => cases h
  | _ => rfl

/-- The answers of `DELHandler`, and the keys it erases afterwards. -/
theorem delElement_fold (d : Dictionary) (elements : List JValue) (answer : Answer)
    (erased : List Str) :
    (elements.foldl (delElement d) (answer, erased)).1 =
        insertEach
          (fun key => .string (if List.lookup key d = none then FAILED_MSG else DELETED_MSG))
          (strings elements) answer ∧
      ∀ key, key ∈ (elements.foldl (delElement d) (answer, erased)).2 ↔
        key ∈ erased ∨ key ∈ strings elements ∧ List.lookup key d ≠ none := by
  induction elements generalizing answer erased with
  | nil => simp [strings, insertEach]
  | cons e elements ih =>
    rw [List.foldl_cons]
    cases htext : e.text? with
    | none =>
      have hstrings : strings (e :: elements) = strings elements := List.filterMap_cons_none htext
      rw [delElement_of_text?_none d _ htext, hstrings]
      exact ih answer erased
    | some key =>
      have hstrings : strings (e :: elements) = key :: strings elements :=
        List.filterMap_cons_some htext
      obtain rfl := text?_eq_some.mp htext
      rw [delElement_string, hstrings]
      refine ⟨(ih _ _).1, fun j => ?_⟩
      rw [(ih _ _).2, List.mem_cons]
      by_cases hkey : List.lookup key d = none
      · rw [if_pos hkey]
        constructor
        · rintro (h | ⟨h, hj⟩)
          · exact Or.inl h
          · exact Or.inr ⟨Or.inr h, hj⟩
        · rintro (h | ⟨rfl | h, hj⟩)
          · exact Or.inl h
          · exact absurd hkey hj
          · exact Or.inr ⟨h, hj⟩
      · rw [if_neg hkey, List.mem_insert_iff]
        constructor
        · rintro ((rfl | h) | ⟨h, hj⟩)
          · exact Or.inr ⟨Or.inl rfl, hkey⟩
          · exact Or.inl h
          · exact Or.inr ⟨Or.inr h, hj⟩
        · rintro (h | ⟨rfl | h, hj⟩)
          · exact Or.inl (Or.inr h)
          · exact Or.inl (Or.inl rfl)
          · exact Or.inr ⟨h, hj⟩

theorem lookup_eraseKeys (ks : List Str) (d : Dictionary) (key : Str) :
    List.lookup key (ks.foldl eraseKey d) = if key ∈ ks then none else List.lookup key d := by
  induction ks generalizing d with
  | nil => simp only [List.foldl_nil, List.not_mem_nil, if_false]
  | cons k ks ih =>
    rw [List.foldl_cons, ih]
    by_cases hks : key ∈ ks
    · rw [if_pos hks, if_pos (List.mem_cons_of_mem k hks)]
    · rw [if_neg hks]
      by_cases hk : key = k
      · rw [hk, if_pos List.mem_cons_self]
        exact lookup_filter_self k d
      · rw [if_neg fun hmem => (List.mem_cons.mp hmem).elim hk hks]
        exact lookup_filter_ne hk d

theorem sorted_eraseKeys (ks : List Str) {d : Dictionary} (h : Sorted d) :
    Sorted (ks.foldl eraseKey d) := by
  induction ks generalizing d with
  | nil => exact h
  | cons k ks ih => exact ih (h.sublist (List.filter_sublist.map Prod.fst))

theorem putMember_string (answer : Answer) (d : Dictionary) (key value : Str) :
    putMember (answer, d) (key, .string value) =
      (insertSorted key
          (.string (if List.lookup key d = none then PUT_MSG else UPDATED_MSG)) answer,
        insertSorted key value d) := by
  cases hlookup : List.lookup key d <;> simp only [putMember, hlookup] <;> rfl

theorem putMember_of_text?_none (state : Answer × Dictionary) (key : Str) {e : JValue}
    (h : e.text? = none) : putMember state (key, e) = state := by
  cases e with
  | string key => cases h
  | _ => rfl

theorem putMember_fold_sorted (members : List (Str × JValue)) {answer : Answer} {d : Dictionary}
    (hanswer : Sorted answer) (hd : Sorted d) :
    Sorted (members.foldl putMember (answer, d)).1 ∧
      Sorted (members.foldl putMember (answer, d)).2 := by
  induction members generalizing answer d with
  | nil => exact ⟨hanswer, hd⟩
  | cons p members ih =>
    obtain ⟨key, e⟩ := p
    rw [List.foldl_cons]
    cases htext : e.text? with
    | none =>
      rw [putMember_of_text?_none _ key htext]
      exact ih hanswer hd
    | some value =>
      obtain rfl := text?_eq_some.mp htext
      rw [putMember_string]
      exact ih (sorted_insertSorted hanswer _) (sorted_insertSorted hd _)

theorem texts_cons_of_none (name key : Str) {e : JValue} (h : e.text? = none)
    (members : List (Str × JValue)) : texts ((name, e) :: members) key = texts members key := by
  unfold texts
  rw [List.filterMap_cons_none]
  simp only [h, ite_self]

theorem texts_cons_self (key value : Str) (members : List (Str × JValue)) :
    texts ((key, .string value) :: members) key = value :: texts members key := by
  unfold texts
  rw [List.filterMap_cons_some]
  exact if_pos rfl

theorem texts_cons_ne {name key : Str} (h : name ≠ key) (e : JValue)
    (members : List (Str × JValue)) : texts ((name, e) :: members) key = texts members key := by
  unfold texts
  rw [List.filterMap_cons_none]
  exact if_neg h

/-- After the first text the key has an entry. -/
theorem putMessage_cons (entry : Option Str) (value : Str) (values : List Str) :
    MapRequest.putMessage entry (value :: values) =
      (MapRequest.putMessage (some value) values).or
        (some (if entry = none then PUT_MSG else UPDATED_MSG)) := by
  cases values with
  | nil => rfl
  | cons second values => cases values <;> rfl

theorem getLast?_cons_or (value : Str) (values : List Str) (entry : Option Str) :
    (value :: values).getLast?.or entry = values.getLast?.or (some value) := by
  rw [List.getLast?_cons]
  cases values.getLast? <;> rfl

/-- The answers of `PUTHandler` and what it stores. -/
theorem putMember_fold (members : List (Str × JValue)) (answer : Answer) (d : Dictionary)
    (key : Str) :
    List.lookup key (members.foldl putMember (answer, d)).1 =
        ((MapRequest.putMessage (List.lookup key d) (texts members key)).map JValue.string).or
          (List.lookup key answer) ∧
      List.lookup key (members.foldl putMember (answer, d)).2 =
        (texts members key).getLast?.or (List.lookup key d) := by
  induction members generalizing answer d with
  | nil => exact ⟨rfl, rfl⟩
  | cons p members ih =>
    obtain ⟨name, e⟩ := p
    rw [List.foldl_cons]
    cases htext : e.text? with
    | none =>
      rw [putMember_of_text?_none _ name htext, texts_cons_of_none name key htext]
      exact ih answer d
    | some value =>
      obtain rfl := text?_eq_some.mp htext
      rw [putMember_string, (ih _ _).1, (ih _ _).2]
      by_cases hkey : name = key
      · subst hkey
        rw [texts_cons_self, lookup_insertSorted_self, lookup_insertSorted_self, putMessage_cons,
          getLast?_cons_or]
        refine ⟨?_, rfl⟩
        cases MapRequest.putMessage (some value) (texts members name) <;> rfl
      · rw [texts_cons_ne hkey, lookup_insertSorted_ne (Ne.symm hkey),
          lookup_insertSorted_ne (Ne.symm hkey)]
        exact ⟨rfl, rfl⟩

theorem setAnswer_fold {l : Dictionary} (hn : (keys l).Nodup) {answer : Answer}
    (hanswer : Sorted answer) :
    Sorted (l.foldl (fun answer p => setAnswer p.1 p.2 answer) answer) ∧
      ∀ key, List.lookup key (l.foldl (fun answer p => setAnswer p.1 p.2 answer) answer) =
        ((List.lookup key l).map JValue.string).or (List.lookup key answer) := by
  induction l generalizing answer with
  | nil => exact ⟨hanswer, fun _ => rfl⟩
  | cons p l ih =>
    obtain ⟨name, value⟩ := p
    rw [keys_cons, List.nodup_cons] at hn
    obtain ⟨hsorted, hlookup⟩ := ih hn.2 (sorted_insertSorted hanswer (.string value))
    refine ⟨hsorted, fun key => (hlookup key).trans ?_⟩
    by_cases hkey : key = name
    · rw [hkey, lookup_none.mpr hn.1, lookup_insertSorted_self, lookup_cons_self]
      rfl
    · rw [lookup_insertSorted_ne hkey, lookup_cons_ne (Ne.symm hkey)]

/-! ## One request -/

variable {d : Dictionary} {m : TextMap}

theorem represents_iff_eq (h : Represents d m) : m = fun key => List.lookup key d :=
  funext fun key => (h.2 key).symm

/-- A request with the body its handler expects is answered as by the map, and the dictionary
follows the map. -/
theorem handle_follows (h : Represents d m) (request : MapRequest) :
    ∃ reply d', (handle request.toRequest).run d = .ok reply d' ∧
      Answers reply (request.answered m) ∧ Represents d' (request.next m) := by
  obtain rfl := represents_iff_eq h
  cases request with
  | get =>
    obtain ⟨hsorted, hlookup⟩ := setAnswer_fold h.1.nodup sorted_nil
    refine ⟨getHandler d, d, rfl, ⟨rfl, _, rfl, hsorted, fun key => (hlookup key).trans ?_⟩, h⟩
    exact Option.or_none
  | put members =>
    obtain ⟨hanswer, hdictionary⟩ := putMember_fold_sorted members sorted_nil h.1
    refine ⟨_, _, rfl, ⟨rfl, _, rfl, hanswer, fun key => ?_⟩, hdictionary, fun key => ?_⟩
    · rw [(putMember_fold members [] d key).1]
      exact Option.or_none
    · exact (putMember_fold members [] d key).2
  | post elements =>
    refine ⟨_, d, rfl, ⟨rfl, _, rfl, ?_⟩, h⟩
    rw [postElement_fold]
    exact shows_insertEach (fun key => (List.lookup key d).getD NIL_MSG) (strings elements)
  | del elements =>
    obtain ⟨hanswer, herased⟩ := delElement_fold d elements [] []
    refine ⟨_, _, rfl, ⟨rfl, _, rfl, ?_⟩, sorted_eraseKeys _ h.1, fun key => ?_⟩
    · rw [hanswer]
      exact shows_insertEach
        (fun key => if List.lookup key d = none then FAILED_MSG else DELETED_MSG) (strings elements)
    · rw [lookup_eraseKeys]
      simp only [herased, List.not_mem_nil, false_or, MapRequest.next]
      -- erasing a key that has no entry changes nothing
      by_cases hkey : key ∈ strings elements
      · by_cases hentry : List.lookup key d = none
        · simp only [hentry, ite_self]
        · simp only [hkey, hentry, ne_eq, not_false_eq_true, and_self, if_true]
      · simp only [hkey, false_and, if_false]

/-! ## Sequences of requests -/

theorem handleAll_follows (h : Represents d m) (requests : List MapRequest) :
    ∃ replies d', (handleAll (requests.map MapRequest.toRequest)).run d = .ok replies d' ∧
      List.Forall₂ Answers replies (MapRequest.answeredAll m requests) ∧
      Represents d' (MapRequest.nextAll m requests) := by
  induction requests generalizing d m with
  | nil => exact ⟨[], d, rfl, List.Forall₂.nil, h⟩
  | cons request requests ih =>
    obtain ⟨reply, d₁, hrun, hanswer, hnext⟩ := handle_follows h request
    obtain ⟨replies, d₂, hrest, hanswers, hend⟩ := ih hnext
    refine ⟨reply :: replies, d₂, ?_, hanswers.cons hanswer, hend⟩
    rw [List.map_cons, handleAll, bind_ok hrun, bind_ok hrest]
    rfl

/-- Any sequence of requests with the expected bodies, from an empty dictionary, is answered as by
the map, and leaves the dictionary with the entries of the map. -/
theorem refines_map (requests : List MapRequest) :
    ∃ replies d, (handleAll (requests.map MapRequest.toRequest)).run [] = .ok replies d ∧
      List.Forall₂ Answers replies (MapRequest.answeredAll (fun _ => none) requests) ∧
      Represents d (MapRequest.nextAll (fun _ => none) requests) :=
  handleAll_follows ⟨sorted_nil, fun _ => rfl⟩ requests

end RESTServer

end Azulejo
