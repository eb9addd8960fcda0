import Mathlib.Data.Nat.Digits.Defs
import Mathlib.Algebra.Order.Ring.Nat

/-!
# Decimal text

A number is written with `ofNat` and read with `scanInt`, which follows the C conversion
functions: it skips white space, takes an optional sign, and reads digits up to the first
character that is not one.
-/

namespace DecimalText

/-- The decimal digits of a number. -/
def ofNat (n : Nat) : List Char := Nat.toDigits 10 n

/-- The decimal digits of an integer, after a minus sign when it is negative. -/
def ofInt : Int → List Char
  | .ofNat n => ofNat n
  | .negSucc n => '-' :: ofNat (n + 1)

/-- White space in the C locale. -/
def isSpace (c : Char) : Bool :=
  c = ' ' || c = '\t' || c = '\n' || c = '\x0b' || c = '\x0c' || c = '\r'

/-- The number the leading digits stand for, when there is one. -/
def scanNat (s : List Char) : Option Nat :=
  let digits := s.takeWhile Char.isDigit
  if digits = [] then none else some (Nat.ofDigitChars 10 digits 0)

/-- The number at the beginning of the text, when there is one. -/
def scanInt (s : List Char) : Option Int :=
  match s.dropWhile isSpace with
  | '-' :: rest => (scanNat rest).map fun n => -(n : Int)
  | '+' :: rest => (scanNat rest).map fun n => (n : Int)
  | rest => (scanNat rest).map fun n => (n : Int)

theorem isDigit_of_mem_ofNat {n : Nat} {c : Char} (h : c ∈ ofNat n) : c.isDigit = true :=
  Nat.isDigit_of_mem_toDigits (by omega) (by omega) h

theorem ofNat_ne_nil (n : Nat) : ofNat n ≠ [] := Nat.toDigits_ne_nil

theorem length_ofNat_le {n k : Nat} (hk : 0 < k) : (ofNat n).length ≤ k ↔ n < 10 ^ k :=
  Nat.length_toDigits_le_iff (by omega) hk

theorem takeWhile_ofNat_append {n : Nat} {rest : List Char}
    (h : ∀ c ∈ rest.head?, c.isDigit = false) :
    (ofNat n ++ rest).takeWhile Char.isDigit = ofNat n := by
  have hall : ∀ c ∈ ofNat n, c.isDigit = true := fun c hc => isDigit_of_mem_ofNat hc
  rw [List.takeWhile_append_of_pos hall]
  cases rest with
  | nil => simp
  | cons c rest =>
    have hc : c.isDigit = false := h c rfl
    simp [hc]

theorem scanNat_ofNat_append {n : Nat} {rest : List Char}
    (h : ∀ c ∈ rest.head?, c.isDigit = false) : scanNat (ofNat n ++ rest) = some n := by
  unfold scanNat
  rw [takeWhile_ofNat_append h]
  simp only [ofNat_ne_nil, if_false]
  rw [ofNat, Nat.ofDigitChars_ten_toDigits]

/-- A character that begins a number is neither white space nor a sign. -/
theorem isDigit_not_special {c : Char} (h : c.isDigit = true) :
    isSpace c = false ∧ c ≠ '-' ∧ c ≠ '+' := by
  have hrange : 48 ≤ c.val ∧ c.val ≤ 57 := by
    simpa [Char.isDigit] using h
  refine ⟨?_, ?_, ?_⟩
  · unfold isSpace
    simp only [Bool.or_eq_false_iff, decide_eq_false_iff_not]
    refine ⟨⟨⟨⟨⟨?_, ?_⟩, ?_⟩, ?_⟩, ?_⟩, ?_⟩ <;>
    · rintro rfl
      exact absurd hrange.1 (by decide)
  · rintro rfl
    exact absurd hrange.1 (by decide)
  · rintro rfl
    exact absurd hrange.1 (by decide)

/-- Reading a number back, after any white space and up to what follows it. -/
theorem scanInt_spaces_ofNat {spaces rest : List Char} (hspaces : ∀ c ∈ spaces, isSpace c = true)
    (n : Nat) (hrest : ∀ c ∈ rest.head?, c.isDigit = false) :
    scanInt (spaces ++ (ofNat n ++ rest)) = some (n : Int) := by
  have hscan : scanNat (ofNat n ++ rest) = some n := scanNat_ofNat_append hrest
  obtain ⟨c, cs, hc⟩ := List.exists_cons_of_ne_nil (ofNat_ne_nil n)
  obtain ⟨hspace, hminus, hplus⟩ := isDigit_not_special
    (isDigit_of_mem_ofNat (n := n) (by rw [hc]; exact List.mem_cons_self))
  have hdrop : (spaces ++ (ofNat n ++ rest)).dropWhile isSpace = ofNat n ++ rest := by
    rw [List.dropWhile_append_of_pos hspaces, hc, List.cons_append, List.dropWhile_cons]
    simp [hspace]
  unfold scanInt
  rw [hdrop]
  rw [hc, List.cons_append] at hscan ⊢
  split
  · rename_i heq
    cases heq
    exact absurd rfl hminus
  · rename_i heq
    cases heq
    exact absurd rfl hplus
  · rw [hscan]
    rfl

/-- A single digit. -/
theorem scanNat_digit {c : Char} (h : c.isDigit = true) {rest : List Char}
    (hrest : ∀ d ∈ rest.head?, d.isDigit = false) : scanNat (c :: rest) = some (c.toNat - 48) := by
  have htake : (c :: rest).takeWhile Char.isDigit = [c] := by
    rw [List.takeWhile_cons_of_pos h]
    cases rest with
    | nil => rfl
    | cons d rest =>
      have hd : d.isDigit = false := hrest d rfl
      simp [hd]
  unfold scanNat
  simp only [htake, List.cons_ne_nil, if_false]
  simp [Nat.ofDigitChars]

theorem scanInt_digit {c : Char} (h : c.isDigit = true) {rest : List Char}
    (hrest : ∀ d ∈ rest.head?, d.isDigit = false) :
    scanInt (c :: rest) = some ((c.toNat - 48 : Nat) : Int) := by
  obtain ⟨hspace, hminus, hplus⟩ := isDigit_not_special h
  unfold scanInt
  rw [List.dropWhile_cons]
  simp only [hspace, Bool.false_eq_true, if_false]
  split
  · rename_i heq
    cases heq
    exact absurd rfl hminus
  · rename_i heq
    cases heq
    exact absurd rfl hplus
  · rw [scanNat_digit h hrest]
    rfl

theorem scanInt_ofNat (n : Nat) : scanInt (ofNat n) = some (n : Int) := by
  have hspaces : ∀ c ∈ ([] : List Char), isSpace c = true := by simp
  have h := scanInt_spaces_ofNat hspaces n (show ∀ c ∈ ([] : List Char).head?, _ by simp)
  simpa using h

end DecimalText
