import Mathlib.Data.Nat.Digits.Defs
import Mathlib.Tactic.Ring

/-!
# Little-endian words

`encode w n` is the number `n` as `w` bytes in the order a little-endian machine keeps them in
memory; `decode` is the number bytes stand for.
-/

namespace LittleEndian

/-- The `w` low bytes of `n`, the lowest first. -/
def encode : Nat → Nat → List UInt8
  | 0, _ => []
  | w + 1, n => UInt8.ofNat n :: encode w (n / 256)

/-- The number with the given bytes. -/
def decode (bytes : List UInt8) : Nat := Nat.ofDigits 256 (bytes.map UInt8.toNat)

theorem decode_cons (b : UInt8) (bytes : List UInt8) :
    decode (b :: bytes) = b.toNat + 256 * decode bytes := by
  unfold decode
  rw [List.map_cons, Nat.ofDigits_cons]

@[simp] theorem length_encode (w n : Nat) : (encode w n).length = w := by
  induction w generalizing n with
  | zero => rfl
  | succ w ih => rw [encode, List.length_cons, ih]

theorem decode_encode {w n : Nat} (h : n < 256 ^ w) : decode (encode w n) = n := by
  induction w generalizing n with
  | zero =>
    rw [pow_zero] at h
    obtain rfl : n = 0 := by omega
    rfl
  | succ w ih =>
    have hhigh : n / 256 < 256 ^ w := by
      apply Nat.div_lt_of_lt_mul
      rwa [← pow_succ']
    rw [encode, decode_cons, ih hhigh, UInt8.toNat_ofNat']
    omega

/-- A 64-bit word in memory. -/
def ofUInt64 (x : UInt64) : List UInt8 := encode 8 x.toNat

/-- The 64-bit word that eight bytes in memory are. -/
def toUInt64 (bytes : List UInt8) : UInt64 := UInt64.ofNat (decode bytes)

@[simp] theorem length_ofUInt64 (x : UInt64) : (ofUInt64 x).length = 8 := length_encode 8 _

@[simp] theorem toUInt64_ofUInt64 (x : UInt64) : toUInt64 (ofUInt64 x) = x := by
  have hlt : x.toNat < 256 ^ 8 := x.toNat_lt
  unfold toUInt64 ofUInt64
  rw [decode_encode hlt, UInt64.ofNat_toNat]

end LittleEndian
