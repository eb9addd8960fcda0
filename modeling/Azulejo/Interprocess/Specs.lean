import Azulejo.Interprocess.ConnectionHandler
import Azulejo.Lib.Stateful

/-!
# What the parts of a connection handler do

The header that is written in front of a message is read as the length of the message, and each
completion handler, on a read that succeeded, does one thing to the read side.
-/

namespace Azulejo.IConnectionHandler

open Stateful

variable {α : Type}

/-! ## Elements -/

theorem memory_char (message : List UInt8) : memory message = message :=
  List.flatMap_singleton' message

theorem elements_memory [PodType α] (message : List α) :
    elements message.length (memory message) = message := by
  induction message with
  | nil => rfl
  | cons x message ih =>
    have hmemory : memory (x :: message) = PodType.toBytes x ++ memory message :=
      List.flatMap_cons
    rw [hmemory, List.length_cons, elements]
    rw [List.take_left' (PodType.length_toBytes x), List.drop_left' (PodType.length_toBytes x)]
    rw [PodType.ofBytes_toBytes, ih]

/-! ## Headers -/

/-- The text of the header in front of a message of length `n`. -/
def headerText (n : Nat) : Str :=
  List.replicate (HEADER_LENGTH - (DecimalText.ofNat n).length) ' ' ++ DecimalText.ofNat n

theorem length_ofNat_of_lt {n : Nat} (h : n < 10000) :
    (DecimalText.ofNat n).length ≤ HEADER_LENGTH :=
  (DecimalText.length_ofNat_le (by decide)).mpr h

theorem length_headerText {n : Nat} (h : n < 10000) : (headerText n).length = HEADER_LENGTH := by
  have hle := length_ofNat_of_lt h
  unfold headerText
  rw [List.length_append, List.length_replicate]
  omega

theorem wrapWithHeader_eq [PodType α] {message : List α} (h : message.length < 10000) :
    wrapWithHeader message =
      .ok ((charBytes (headerText message.length)).map PodType.ofChar ++ message) := by
  have hle := length_ofNat_of_lt h
  have hspaces : (HEADER_LENGTH + 2 ^ 64 - (DecimalText.ofNat message.length).length) % 2 ^ 64 =
      HEADER_LENGTH - (DecimalText.ofNat message.length).length := by
    unfold HEADER_LENGTH at hle ⊢
    have hpos := List.length_pos_of_ne_nil (DecimalText.ofNat_ne_nil message.length)
    omega
  have hfits : ¬ stringMaxSize < HEADER_LENGTH - (DecimalText.ofNat message.length).length := by
    unfold stringMaxSize HEADER_LENGTH
    omega
  unfold wrapWithHeader
  simp only [hspaces, if_neg hfits]
  rfl

/-- The number of spaces wraps below zero when the digits do not fit into the header, and the
loop that pushes them does not come to its end. -/
theorem wrapWithHeader_throws [PodType α] {message : List α} (h : 10000 ≤ message.length)
    (hsize : message.length < 2 ^ 64) :
    wrapWithHeader message = .error (.logicError "basic_string::_M_create".toList) := by
  have hlong : ¬ (DecimalText.ofNat message.length).length ≤ HEADER_LENGTH :=
    fun hle => absurd ((DecimalText.length_ofNat_le (by decide)).mp hle) (Nat.not_lt.mpr h)
  have hdigits : (DecimalText.ofNat message.length).length ≤ 20 :=
    (DecimalText.length_ofNat_le (by decide)).mpr (hsize.trans (by decide))
  have hspaces : stringMaxSize <
      (HEADER_LENGTH + 2 ^ 64 - (DecimalText.ofNat message.length).length) % 2 ^ 64 := by
    unfold stringMaxSize
    unfold HEADER_LENGTH at hlong ⊢
    omega
  unfold wrapWithHeader
  simp only [hspaces, if_true]
  rfl

/-- The characters of a header are ASCII. -/
theorem ascii_of_mem_headerText {n : Nat} {c : Char} (h : c ∈ headerText n) : c.toNat < 128 := by
  rcases List.mem_append.mp h with hspace | hdigit
  · rw [List.eq_of_mem_replicate hspace]
    decide
  · have hrange : 48 ≤ c.val ∧ c.val ≤ 57 := by
      simpa [Char.isDigit] using DecimalText.isDigit_of_mem_ofNat hdigit
    have hle : c.toNat ≤ 57 := hrange.2
    omega

theorem lt_of_mem_headerText {n : Nat} {c : Char} (h : c ∈ headerText n) : c.toNat < 256 :=
  (ascii_of_mem_headerText h).trans (by decide)

theorem bytesChars_charBytes {text : Str} (h : ∀ c ∈ text, c.toNat < 256) :
    bytesChars (charBytes text) = text := by
  unfold bytesChars charBytes
  rw [List.map_map]
  conv_rhs => rw [← List.map_id text]
  apply List.map_congr_left
  intro c hc
  have hbyte : (UInt8.ofNat c.toNat).toNat = c.toNat := UInt8.toNat_ofNat_of_lt' (h c hc)
  rw [Function.comp_apply, hbyte, Char.ofNat_toNat]
  rfl

/-- `atoll` on a header with a null character behind it. -/
theorem atoll_headerText (n : Nat) : atoll (charBytes (headerText n) ++ [0]) = n := by
  have hchars : bytesChars (charBytes (headerText n) ++ [0]) =
      List.replicate (HEADER_LENGTH - (DecimalText.ofNat n).length) ' ' ++
        (DecimalText.ofNat n ++ [Char.ofNat 0]) := by
    unfold bytesChars
    rw [List.map_append]
    have htext := bytesChars_charBytes fun c hc => lt_of_mem_headerText (n := n) hc
    unfold bytesChars at htext
    rw [htext, headerText, List.append_assoc]
    rfl
  have hspaces : ∀ c ∈ List.replicate (HEADER_LENGTH - (DecimalText.ofNat n).length) ' ',
      DecimalText.isSpace c = true := by
    intro c hc
    rw [List.eq_of_mem_replicate hc]
    decide
  unfold atoll
  rw [hchars, DecimalText.scanInt_spaces_ofNat hspaces n (by simp)]
  rfl

theorem sizeCast_ofNat {n : Nat} (h : n < 2 ^ 64) : sizeCast n = n := by
  unfold sizeCast
  omega

/-! ## The handlers -/

theorem asyncRead_run {n : Nat} {handler : ReadHandler} {me : ReadSide α}
    (h : n ≤ me.inMessage.length) :
    (asyncRead n handler).run me = .ok () { me with reads := me.reads ++ [⟨n, handler⟩] } := by
  unfold asyncRead
  rw [bind_ok (EStateM.run_get me), if_neg (Nat.not_lt.mpr h)]
  rfl

theorem receivedDataLength_eq (me : ReadSide α) :
    (receivedDataLength HEADER_LENGTH).run me =
      .ok (sizeCast (atoll (me.inMessage.take HEADER_LENGTH ++ [0]))) me := by
  unfold receivedDataLength
  rw [bind_ok (EStateM.run_get me), if_neg (not_not.mpr rfl)]
  rfl

theorem receivedDataLength_run {n : Nat} (hn : n < 10000) {me : ReadSide α}
    (hheader : me.inMessage.take HEADER_LENGTH = charBytes (headerText n)) :
    (receivedDataLength HEADER_LENGTH).run me = .ok n me := by
  have hcast : sizeCast (n : Int) = n := sizeCast_ofNat (by omega)
  rw [receivedDataLength_eq, hheader, atoll_headerText, hcast]

/-- After a header the message is read. -/
theorem headerRead_run {n : Nat} (hpos : 1 ≤ n) (hn : n < 10000) {me : ReadSide α}
    (hfits : n ≤ me.inMessage.length)
    (hheader : me.inMessage.take HEADER_LENGTH = charBytes (headerText n)) :
    (headerRead false HEADER_LENGTH).run me =
      .ok () { me with reads := me.reads ++ [⟨n, .body⟩] } := by
  have hzero : n ≠ 0 := by omega
  unfold headerRead
  simp only [Bool.false_eq_true, if_false]
  rw [bind_ok (receivedDataLength_run hn hheader), if_neg hzero, asyncRead_run hfits]

/-- After the header of an empty message nothing is read. -/
theorem headerRead_empty {me : ReadSide α}
    (hheader : me.inMessage.take HEADER_LENGTH = charBytes (headerText 0)) :
    (headerRead false HEADER_LENGTH).run me = .ok () me := by
  unfold headerRead
  simp only [Bool.false_eq_true, if_false]
  rw [bind_ok (receivedDataLength_run (by decide) hheader)]
  rfl

/-- After a message, which is queued, the next header is read. -/
theorem bodyRead_run [PodType α] {n : Nat} {me : ReadSide α}
    (hfits : HEADER_LENGTH ≤ me.inMessage.length) :
    (bodyRead false n).run me = .ok () { me with
      inMessageQue := me.inMessageQue ++
        [elements (n / PodType.size α) (me.inMessage.take n)]
      reads := me.reads ++ [⟨HEADER_LENGTH, .header⟩] } := by
  unfold bodyRead queueReceivedMessage postReceiveMessages
  simp only [Bool.false_eq_true, if_false]
  rw [bind_ok (EStateM.run_get me), bind_ok (EStateM.run_set _ _)]
  exact asyncRead_run hfits

theorem getOneMessage_nil {me : ReadSide α} (h : me.inMessageQue = []) :
    ∃ e, getOneMessage.run me = .error e me := by
  unfold getOneMessage
  rw [bind_ok (EStateM.run_get me)]
  simp only [h]
  exact ⟨_, rfl⟩

theorem getOneMessage_cons {me : ReadSide α} {message : List α} {rest : List (List α)}
    (h : me.inMessageQue = message :: rest) :
    getOneMessage.run me = .ok message { me with inMessageQue := rest } := by
  unfold getOneMessage
  rw [bind_ok (EStateM.run_get me)]
  simp only [h]
  rfl

/-- `GetOneMessage` returns exactly when `HasReceivedMessages` says there is a message. -/
theorem getOneMessage_iff {me : ReadSide α} :
    hasReceivedMessages me = true ↔
      ∃ message me', getOneMessage.run me = .ok message me' := by
  cases hqueue : me.inMessageQue with
  | nil =>
    obtain ⟨e, he⟩ := getOneMessage_nil hqueue
    simp [hasReceivedMessages, hqueue, he]
  | cons message rest =>
    rw [getOneMessage_cons hqueue]
    simp [hasReceivedMessages, hqueue]

end Azulejo.IConnectionHandler
