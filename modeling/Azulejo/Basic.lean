import Azulejo.Lib.SeparatedWords
import Azulejo.Lib.Stateful

/-!
# Strings, exceptions and paths

A `std::string` is its list of characters. The path operations are those of
`std::filesystem::path` on POSIX names: `parent_path`, `operator/` and the replacement of
`.` by `/` the serializers do on a key path.
-/

namespace Azulejo

/-- A `std::string`. -/
abbrev Str := List Char

/-- `Entity::Key`. -/
abbrev Key := Str

/-- Keys are looked up with `==`, which is equality. -/
instance Key.lawfulBEq : LawfulBEq Key := inferInstance

/-- A file system path, as its generic string. It stands for the file it names: two spellings of one
file are two paths here. -/
abbrev Path := Str

/-- What a C function reads of `c_str()`: the characters before the first NUL. -/
def cString (s : Str) : Str := s.takeWhile (· != '\x00')

/-- What the code throws, by the standard class a handler would catch:
`std::runtime_error` and its subclasses (the property tree's and the streams' errors are
among them), `std::logic_error` and its subclasses (what `std::stoi` throws), or another class
under `std::exception`. A run that would never return, one that dereferences a null pointer and
one that reads a pointer that was never set are kept apart. -/
inductive Exception where
  | runtimeError (what : Str)
  | logicError (what : Str)
  | exception (what : Str)
  | nontermination
  | nullDereference
  | uninitializedPointer
  deriving DecidableEq

/-! ## Key paths -/

/-- A key that a dotted path can carry: not empty and without `.`. -/
def PlainKey (k : Key) : Prop := k ≠ [] ∧ '.' ∉ k

instance (k : Key) : Decidable (PlainKey k) := inferInstanceAs (Decidable (_ ∧ _))

theorem plainKeys_concat {ks : List Key} (h : ∀ k ∈ ks, PlainKey k) {key : Key}
    (hkey : PlainKey key) : ∀ k ∈ ks ++ [key], PlainKey k := by
  intro k hk
  rcases List.mem_append.mp hk with hk | hk
  · exact h k hk
  · rw [List.mem_singleton.mp hk]
    exact hkey

/-- The dotted path of a list of keys. -/
def dotted (ks : List Key) : Str := ['.'].intercalate ks

@[simp] theorem dotted_nil : dotted [] = [] := rfl

@[simp] theorem dotted_singleton (k : Key) : dotted [k] = k := List.intercalate_singleton

/-- `parentKey.empty() ? key : parentKey + "." + key`. -/
def searchPathOf (parentKey : Str) (key : Key) : Str :=
  if parentKey = [] then key else parentKey ++ '.' :: key

theorem dotted_eq_nil {ks : List Key} (h : ∀ k ∈ ks, PlainKey k) : dotted ks = [] ↔ ks = [] :=
  SeparatedWords.intercalate_eq_nil (fun k hk => (h k hk).1) '.'

theorem searchPathOf_dotted {ks : List Key} (h : ∀ k ∈ ks, PlainKey k) (k : Key) :
    searchPathOf (dotted ks) k = dotted (ks ++ [k]) := by
  unfold searchPathOf
  by_cases hks : ks = []
  · subst hks
    simp
  · rw [if_neg (mt (dotted_eq_nil h).mp hks)]
    exact (SeparatedWords.intercalate_concat hks '.' k).symm

theorem dotted_inj {ks js : List Key} (hk : ∀ k ∈ ks, PlainKey k) (hj : ∀ k ∈ js, PlainKey k)
    (h : dotted ks = dotted js) : ks = js := by
  by_cases hks : ks = []
  · subst hks
    exact ((dotted_eq_nil hj).mp h.symm).symm
  · have hjs : js ≠ [] := by
      rintro rfl
      exact hks ((dotted_eq_nil hk).mp h)
    exact SeparatedWords.intercalate_inj (fun k h => (hk k h).2) (fun k h => (hj k h).2) hks hjs h

/-! ## File system paths -/

/-- `path.parent_path()`: everything before the last file name, without the separators, or the root
directory, which is `/` however many separators the path begins with. -/
def parentPath (p : Path) : Path :=
  let dir := p.reverse.dropWhile (· ≠ '/')
  let stripped := dir.dropWhile (· = '/')
  if stripped = [] then dir.take 1 else stripped.reverse

/-- `p / q`: an absolute `q` replaces `p`. -/
def joinPath (p q : Path) : Path :=
  if q.head? = some '/' then q
  else if p = [] ∨ p.getLast? = some '/' then p ++ q
  else p ++ '/' :: q

/-- `std::replace(path.begin(), path.end(), '.', '/')`. -/
def dotsToSlashes (s : Str) : Path := s.map fun c => if c = '.' then '/' else c

end Azulejo
