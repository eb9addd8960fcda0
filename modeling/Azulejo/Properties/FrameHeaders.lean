import Azulejo.Interprocess.Specs
import Azulejo.Lib.LittleEndian

/-!
# The header of every message

`PostOutgoingMessage` takes messages of any length, and the header has four characters. A length
of five digits or more makes the number of spaces wrap. The characters become elements, and the
receiver reads the header from the first four bytes: the elements of a wider type have zeros
behind each character, and the first zero ends the number.
-/

namespace Azulejo

open Stateful IConnectionHandler

variable {α : Type} [PodType α]

/-- An integral type of a little-endian machine: a character of ASCII that is converted to it
keeps its byte, and zeros follow. -/
def WidensChars (α : Type) [PodType α] : Prop :=
  ∀ c : UInt8, c.toNat < 128 →
    PodType.toBytes (PodType.ofChar c : α) = c :: List.replicate (PodType.size α - 1) 0

/-- The frame of the message: four elements of a header and the message. Its number of spaces
does not wrap, and a receiver with the bytes of the header in its buffer reads the length of the
message. -/
structure WellFramed (message : List α) : Prop where
  spaces : (DecimalText.ofNat message.length).length ≤ HEADER_LENGTH
  header : ∃ header : List α, header.length = HEADER_LENGTH ∧
    wrapWithHeader message = .ok (header ++ message) ∧
    ∀ me : ReadSide α,
      me.inMessage.take HEADER_LENGTH = (memory header).take HEADER_LENGTH →
        (receivedDataLength HEADER_LENGTH).run me = .ok message.length me

/-! ## The header as elements -/

/-- The header of a message of length `n`. -/
def headerElements (α : Type) [PodType α] (n : Nat) : List α :=
  (charBytes (headerText n)).map PodType.ofChar

theorem length_headerElements {n : Nat} (h : n < 10000) :
    (headerElements α n).length = HEADER_LENGTH := by
  unfold headerElements charBytes
  rw [List.length_map, List.length_map, length_headerText h]

theorem ascii_of_mem_charBytes {n : Nat} {c : UInt8} (h : c ∈ charBytes (headerText n)) :
    c.toNat < 128 := by
  obtain ⟨char, hchar, rfl⟩ := List.mem_map.mp h
  have hascii := ascii_of_mem_headerText hchar
  have hbyte : (UInt8.ofNat char.toNat).toNat = char.toNat :=
    UInt8.toNat_ofNat_of_lt' (hascii.trans (by decide))
  rw [hbyte]
  exact hascii

/-- Elements of one byte are the characters. -/
theorem memory_headerElements (hα : WidensChars α) (hsize : PodType.size α = 1) (n : Nat) :
    memory (headerElements α n) = charBytes (headerText n) := by
  have hbytes : ∀ c ∈ charBytes (headerText n), PodType.toBytes (PodType.ofChar c : α) = [c] := by
    intro c hc
    rw [hα c (ascii_of_mem_charBytes hc), hsize]
    rfl
  unfold memory headerElements
  rw [List.flatMap_map, List.flatMap_congr hbytes, List.flatMap_singleton']

/-- A wider element has a zero behind its character. -/
theorem memory_headerElements_wide (hα : WidensChars α) (hsize : 2 ≤ PodType.size α) {n : Nat}
    {c : Char} {text : Str} (htext : headerText n = c :: text) :
    ∃ rest, memory (headerElements α n) = UInt8.ofNat c.toNat :: 0 :: rest := by
  have hmem : UInt8.ofNat c.toNat ∈ charBytes (headerText n) := by
    rw [htext]
    exact List.mem_cons_self
  have hfirst := hα _ (ascii_of_mem_charBytes hmem)
  obtain ⟨zeros, hzeros⟩ : ∃ zeros, PodType.size α - 1 = zeros + 1 :=
    ⟨PodType.size α - 2, by omega⟩
  rw [hzeros, List.replicate_succ] at hfirst
  unfold memory headerElements
  rw [htext]
  simp only [charBytes, List.map_cons, List.flatMap_cons, hfirst, List.cons_append]
  exact ⟨_, rfl⟩

/-- The first character of a header is a space, or the first of four digits. -/
theorem headerText_cons {n : Nat} (h : n < 10000) :
    (∃ text, headerText n = ' ' :: text) ∨
      1000 ≤ n ∧ ∃ c text, headerText n = c :: text ∧ c.isDigit = true := by
  have hlength := length_ofNat_of_lt h
  by_cases hspace : (DecimalText.ofNat n).length < HEADER_LENGTH
  · left
    obtain ⟨k, hk⟩ : ∃ k, HEADER_LENGTH - (DecimalText.ofNat n).length = k + 1 :=
      ⟨HEADER_LENGTH - (DecimalText.ofNat n).length - 1, by omega⟩
    unfold headerText
    rw [hk, List.replicate_succ, List.cons_append]
    exact ⟨_, rfl⟩
  · right
    have hfull : HEADER_LENGTH - (DecimalText.ofNat n).length = 0 := by omega
    have hthree : ¬ (DecimalText.ofNat n).length ≤ 3 := by
      unfold HEADER_LENGTH at hspace
      omega
    refine ⟨?_, ?_⟩
    · by_contra hlt
      exact hthree ((DecimalText.length_ofNat_le (by decide)).mpr (Nat.not_le.mp hlt))
    · obtain ⟨c, text, hdigits⟩ := List.exists_cons_of_ne_nil (DecimalText.ofNat_ne_nil n)
      refine ⟨c, text, ?_, ?_⟩
      · unfold headerText
        rw [hfull, hdigits]
        rfl
      · apply DecimalText.isDigit_of_mem_ofNat
        rw [hdigits]
        exact List.mem_cons_self

/-! ## The number that is read -/

/-- The number that `ReceivedDataLength` reads in a header of `n`. -/
def readLength (α : Type) [PodType α] (n : Nat) : Nat :=
  sizeCast (atoll ((memory (headerElements α n)).take HEADER_LENGTH ++ [0]))

theorem readLength_of_size_eq_one (hα : WidensChars α) (hsize : PodType.size α = 1) {n : Nat}
    (h : n < 10000) : readLength α n = n := by
  have hlength : (charBytes (headerText n)).length = HEADER_LENGTH := by
    unfold charBytes
    rw [List.length_map, length_headerText h]
  unfold readLength
  rw [memory_headerElements hα hsize, List.take_of_length_le hlength.le, atoll_headerText]
  exact sizeCast_ofNat (h.trans (by decide))

/-- Behind a space the first zero leaves no number, behind a digit that digit alone. -/
theorem atoll_space (rest : List UInt8) : atoll (UInt8.ofNat ' '.toNat :: 0 :: rest) = 0 := by
  unfold atoll
  rw [DecimalText.scanInt]
  simp [bytesChars, DecimalText.isSpace, DecimalText.scanNat]

theorem atoll_digit {c : Char} (h : c.isDigit = true) (rest : List UInt8) :
    atoll (UInt8.ofNat c.toNat :: 0 :: rest) = (c.toNat - 48 : Nat) := by
  have hrange : 48 ≤ c.val ∧ c.val ≤ 57 := by simpa [Char.isDigit] using h
  have hle : c.toNat ≤ 57 := hrange.2
  have hbyte : (UInt8.ofNat c.toNat).toNat = c.toNat :=
    UInt8.toNat_ofNat_of_lt' (lt_of_le_of_lt hle (by decide))
  unfold atoll bytesChars
  rw [List.map_cons, List.map_cons, hbyte, Char.ofNat_toNat, DecimalText.scanInt_digit h]
  · rfl
  · intro d hd
    cases hd
    decide

/-- The elements of a wider type are read as the length of an empty message only. -/
theorem readLength_wide (hα : WidensChars α) (hsize : 2 ≤ PodType.size α) {n : Nat}
    (h : n < 10000) : readLength α n = n ↔ n = 0 := by
  rcases headerText_cons h with ⟨text, htext⟩ | ⟨hbig, c, text, htext, hdigit⟩
  · obtain ⟨rest, hmemory⟩ := memory_headerElements_wide hα hsize htext
    have hread : readLength α n = 0 := by
      unfold readLength
      rw [hmemory]
      show sizeCast (atoll (UInt8.ofNat ' '.toNat :: 0 :: (rest.take 2 ++ [0]))) = 0
      rw [atoll_space]
      rfl
    rw [hread]
    exact eq_comm
  · obtain ⟨rest, hmemory⟩ := memory_headerElements_wide hα hsize htext
    have hrange : 48 ≤ c.val ∧ c.val ≤ 57 := by simpa [Char.isDigit] using hdigit
    have hle : c.toNat ≤ 57 := hrange.2
    have hread : readLength α n = c.toNat - 48 := by
      unfold readLength
      rw [hmemory]
      show sizeCast (atoll (UInt8.ofNat c.toNat :: 0 :: (rest.take 2 ++ [0]))) = c.toNat - 48
      rw [atoll_digit hdigit]
      exact sizeCast_ofNat (by omega)
    rw [hread]
    omega

/-! ## Frames -/

/-- A message whose length has at most four digits is framed well if its length is read. -/
theorem wellFramed_iff_readLength {message : List α} (h : message.length < 10000) :
    WellFramed message ↔ readLength α message.length = message.length := by
  constructor
  · rintro ⟨-, header, -, hwrap, hread⟩
    rw [wrapWithHeader_eq h] at hwrap
    obtain rfl : headerElements α message.length = header :=
      List.append_cancel_right (Except.ok.inj hwrap)
    have hrun := hread ⟨memory (headerElements α message.length), [], []⟩ rfl
    rw [receivedDataLength_eq] at hrun
    exact (EStateM.Result.ok.inj hrun).1
  · intro hread
    refine ⟨length_ofNat_of_lt h, headerElements α message.length, length_headerElements h,
      wrapWithHeader_eq h, fun me hme => ?_⟩
    rw [receivedDataLength_eq, hme]
    exact congrArg (fun n => EStateM.Result.ok n me) hread

theorem not_wellFramed {message : List α} (h : 10000 ≤ message.length) : ¬ WellFramed message := by
  intro hframed
  have hlt := (DecimalText.length_ofNat_le (by decide)).mp hframed.spaces
  exact absurd hlt (Nat.not_lt.mpr h)

/-- A message is framed well exactly if its length has at most four digits and its elements are
bytes, or it is empty. -/
theorem wellFramed_iff (hα : WidensChars α) (message : List α) :
    WellFramed message ↔
      message.length < 10000 ∧ (PodType.size α = 1 ∨ message = []) := by
  by_cases h : message.length < 10000
  · rw [wellFramed_iff_readLength h]
    by_cases hsize : PodType.size α = 1
    · exact iff_of_true (readLength_of_size_eq_one hα hsize h) ⟨h, Or.inl hsize⟩
    · have hwide : 2 ≤ PodType.size α := by
        have hpos : 0 < PodType.size α := PodType.size_pos
        omega
      rw [readLength_wide hα hwide h, List.length_eq_zero_iff]
      simp only [h, hsize, false_or, true_and]
  · exact iff_of_false (not_wellFramed (Nat.not_lt.mp h)) fun hgood => h hgood.1

theorem widensChars_char : WidensChars UInt8 := fun _ _ => rfl

theorem wellFramed_hello : WellFramed (charBytes "hello".toList) :=
  (wellFramed_iff widensChars_char _).mpr ⟨by decide, Or.inl rfl⟩

/-- With ten thousand characters `WrapWithHeader` does not return a frame. -/
theorem long_message_not_framed :
    ¬ ∀ message : List UInt8, WellFramed message := by
  intro h
  obtain ⟨-, header, -, hwrap, -⟩ := h (List.replicate 10000 0)
  have hlength : (List.replicate 10000 (0 : UInt8)).length = 10000 := List.length_replicate
  rw [wrapWithHeader_throws hlength.ge (by rw [hlength]; decide)] at hwrap
  cases hwrap

/-! ## A wider type -/

/-- `unsigned int`. -/
instance : PodType UInt32 where
  size := 4
  size_pos := by decide
  toBytes x := LittleEndian.encode 4 x.toNat
  length_toBytes _ := LittleEndian.length_encode 4 _
  ofBytes bytes := UInt32.ofNat (LittleEndian.decode bytes)
  ofBytes_toBytes x := by
    rw [LittleEndian.decode_encode x.toNat_lt, UInt32.ofNat_toNat]
  ofChar c := UInt32.ofNat c.toNat

theorem widensChars_unsigned : WidensChars UInt32 := by
  intro c hc
  have hlt : c.toNat < UInt32.size := c.toNat_lt.trans (by decide)
  have hzero : c.toNat / 256 = 0 := Nat.div_eq_of_lt c.toNat_lt
  show LittleEndian.encode 4 (UInt32.ofNat c.toNat).toNat = _
  rw [UInt32.toNat_ofNat_of_lt' hlt]
  simp only [LittleEndian.encode, hzero, UInt8.ofNat_toNat]
  rfl

end Azulejo
