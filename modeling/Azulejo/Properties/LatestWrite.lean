import Azulejo.Properties.ResourceTable
import Mathlib.Data.List.Induction

/-!
# The latest write of a key

`ResourcePersister::Persist` only inserts, so the table is a log: a key has a row for each time it
was written since it was last deleted. `ResourceLoader::Load` reads the last of them, and what
happens to other keys in between makes no difference.
-/

namespace Azulejo

open Stateful Sqlite

/-! ## Calls of the persister -/

/-- A call of the `ResourcePersister`. The resource is in the state in which it is passed. -/
inductive PersisterCall where
  | persist (resource : IResource) (key : Str)
  | unpersist (key : Str)

namespace PersisterCall

variable (E : SqliteEngine) (crc : List UInt8 → UInt32)

def key : PersisterCall → Str
  | persist _ key => key
  | unpersist key => key

/-- What the call leaves to be loaded under its key. -/
def written? : PersisterCall → Option (List UInt8)
  | persist resource _ => some resource.bytes
  | unpersist _ => none

def isPersist : PersisterCall → Bool
  | persist _ _ => true
  | unpersist _ => false

/-- The call on the database of the persister. -/
def run : PersisterCall → EStateM Exception SqliteState Unit
  | persist resource key => fun database =>
    match (ResourcePersister.persist E crc key).run ⟨database, resource⟩ with
    | .ok () s => .ok () s.database
    | .error e s => .error e s.database
  | unpersist key => ResourcePersister.unpersist E key

/-- A deletion, or a `Persist` of a resource with data whose checksum has changed. -/
def Writes : PersisterCall → Prop
  | persist resource key => key ≠ [] ∧ PlainLiteral key ∧ FitsInt resource resource.bytes ∧
      resource.checksum crc ≠ resource.checkSum
  | unpersist key => key ≠ [] ∧ PlainLiteral key

/-- What the call does to the table. -/
def effect (t : Table) : PersisterCall → Table
  | persist resource key =>
    t.insert key resource.M.toNat resource.N.toNat resource.elementSize.toNat resource.bytes
  | unpersist key => t.delete key

end PersisterCall

/-- What the last call with the key left: the bytes of the most recent `Persist` of the key that is
later than its last deletion, if there is one. -/
def latest (key : Str) (calls : List PersisterCall) : Option (List UInt8) :=
  (calls.filter fun call => call.key == key).getLast?.bind PersisterCall.written?

theorem latest_concat_self (calls : List PersisterCall) (call : PersisterCall) :
    latest call.key (calls ++ [call]) = call.written? := by
  simp [latest, List.filter_append]

theorem latest_concat_ne (calls : List PersisterCall) {call : PersisterCall} {key : Str}
    (h : call.key ≠ key) : latest key (calls ++ [call]) = latest key calls := by
  simp [latest, List.filter_append, h]

/-! ## The table after the calls -/

section

variable (E : SqliteEngine) {crc : List UInt8 → UInt32}

theorem PersisterCall.run_connected {call : PersisterCall} (h : call.Writes crc)
    {tables : Path → Option Table} {p : Path} {t : Table} (ht : tables p = some t)
    (hrow : call.isPersist = true → t.lastRow + 1 < 2 ^ 31) (statements : Nat) :
    (call.run E crc).run (connected tables p statements) =
      .ok () (connected (Function.update tables p (some (call.effect t))) p statements) := by
  cases call with
  | persist resource key =>
    obtain ⟨hne, hkey, hfits, hchanged⟩ := h
    have hpersist := persist_changed E crc hne hkey hfits hchanged ht
      ((hrow rfl).trans (by decide)) statements
    simp only [EStateM.run] at hpersist
    simp only [PersisterCall.run, EStateM.run, hpersist]
    rfl
  | unpersist key => exact unpersist_connected E h.1 h.2 ht statements

theorem PersisterCall.lastRow_effect (t : Table) (call : PersisterCall) :
    (call.effect t).lastRow = t.lastRow + [call].countP PersisterCall.isPersist := by
  cases call <;> rfl

/-- All the calls succeed, and the table has their effects. -/
theorem forM_run_connected {calls : List PersisterCall} (h : ∀ call ∈ calls, call.Writes crc)
    {tables : Path → Option Table} {p : Path} {t : Table} (ht : tables p = some t)
    (hrows : t.lastRow + calls.countP PersisterCall.isPersist < 2 ^ 31) (statements : Nat) :
    (forM calls (PersisterCall.run E crc)).run (connected tables p statements) =
      .ok () (connected (Function.update tables p
        (some (calls.foldl PersisterCall.effect t))) p statements) := by
  induction calls generalizing tables t with
  | nil =>
    rw [List.foldl_nil, ← ht, Function.update_eq_self]
    rfl
  | cons call calls ih =>
    have hcount : t.lastRow + ([call].countP PersisterCall.isPersist +
        calls.countP PersisterCall.isPersist) < 2 ^ 31 := by
      rw [← List.countP_append]
      exact hrows
    have hrow : call.isPersist = true → t.lastRow + 1 < 2 ^ 31 := by
      intro hpersist
      rw [List.countP_singleton, if_pos hpersist] at hcount
      omega
    have hrest : (call.effect t).lastRow + calls.countP PersisterCall.isPersist < 2 ^ 31 := by
      rw [PersisterCall.lastRow_effect]
      omega
    rw [List.forM_cons, bind_ok (PersisterCall.run_connected E (h call List.mem_cons_self) ht hrow
      statements), ih (fun d hd => h d (List.mem_cons_of_mem call hd)) (Function.update_self _ _ _)
      hrest, Function.update_idem, List.foldl_cons]

end

theorem lastRow_foldl_effect (t : Table) (calls : List PersisterCall) :
    (calls.foldl PersisterCall.effect t).lastRow =
      t.lastRow + calls.countP PersisterCall.isPersist := by
  induction calls generalizing t with
  | nil => rfl
  | cons call calls ih =>
    rw [List.foldl_cons, ih, PersisterCall.lastRow_effect, Nat.add_assoc, ← List.countP_append]
    rfl

/-- The rows of the key are sound, and the last of them has the bytes that were written last. -/
structure Reflects (key : Str) (calls : List PersisterCall) (t : Table) : Prop where
  last : (t.ofKey key).getLast?.map Row.data = latest key calls
  sound : ∀ row ∈ t.ofKey key, row.Sound

theorem reflects_effect {crc : List UInt8 → UInt32} {key : Str} {calls : List PersisterCall}
    {t : Table} (h : Reflects key calls t) {call : PersisterCall} (hcall : call.Writes crc)
    (hrow : (call.effect t).lastRow < 2 ^ 31) : Reflects key (calls ++ [call]) (call.effect t) := by
  by_cases hkey : call.key = key
  · subst hkey
    refine ⟨?_, ?_⟩
    · rw [latest_concat_self]
      cases call with
      | persist resource key =>
        rw [PersisterCall.effect, PersisterCall.key, Table.ofKey_insert_self, List.getLast?_concat]
        rfl
      | unpersist key =>
        rw [PersisterCall.effect, PersisterCall.key, Table.ofKey_delete_self]
        rfl
    · cases call with
      | persist resource key =>
        obtain ⟨-, -, hfits, -⟩ := hcall
        intro row hmem
        rw [PersisterCall.effect, PersisterCall.key, Table.ofKey_insert_self] at hmem
        rcases List.mem_append.mp hmem with hmem | hmem
        · exact h.sound row hmem
        · rw [List.mem_singleton.mp hmem]
          exact ⟨hrow, hfits.M, hfits.N, hfits.elementSize, hfits.length, hfits.pos, hfits.small⟩
      | unpersist key =>
        intro row hmem
        rw [PersisterCall.effect, PersisterCall.key, Table.ofKey_delete_self] at hmem
        cases hmem
  · have hsame : (call.effect t).ofKey key = t.ofKey key := by
      cases call with
      | persist resource key' => exact Table.ofKey_insert_ne t hkey _ _ _ _
      | unpersist key' => exact Table.ofKey_delete_ne t hkey
    refine ⟨?_, ?_⟩
    · rw [hsame, latest_concat_ne calls hkey]
      exact h.last
    · rw [hsame]
      exact h.sound

theorem reflects_foldl {crc : List UInt8 → UInt32} {key : Str} {t : Table}
    (hfresh : t.ofKey key = []) {calls : List PersisterCall}
    (hcalls : ∀ call ∈ calls, call.Writes crc)
    (hrows : t.lastRow + calls.countP PersisterCall.isPersist < 2 ^ 31) :
    Reflects key calls (calls.foldl PersisterCall.effect t) := by
  induction calls using List.reverseRecOn with
  | nil =>
    refine ⟨?_, ?_⟩
    · rw [List.foldl_nil, hfresh]
      rfl
    · rw [List.foldl_nil, hfresh]
      nofun
  | append_singleton calls call ih =>
    have hcall := hcalls call (List.mem_append_right calls List.mem_cons_self)
    have hbefore := ih (fun d hd => hcalls d (List.mem_append_left [call] hd)) (by
      rw [List.countP_append] at hrows
      omega)
    have hlast := lastRow_foldl_effect t (calls ++ [call])
    rw [List.foldl_append, List.foldl_cons, List.foldl_nil] at hlast ⊢
    exact reflects_effect hbefore hcall (by rw [hlast]; exact hrows)

/-! ## Loading -/

/-- `Load` made a new resource and assigned it the bytes; it returns this resource, or throws what
the class throws for them. -/
def AssignsBytes {σ : Type} (result : EStateM.Result Exception σ IResource) (c : ResourceClass)
    (bytes : List UInt8) : Prop :=
  ∃ numbers s, result = match (ResourceLoader.fillResource numbers bytes c).run c.construct with
    | .ok () resource => .ok resource s
    | .error e _ => .error e s

/-- What is loaded when the key was last written with these bytes, or not at all. -/
def LoadsLatest {σ : Type} (result : EStateM.Result Exception σ IResource) (c : ResourceClass) :
    Option (List UInt8) → Prop
  | some bytes => AssignsBytes result c bytes ∧
      (StoresBytes c → ∃ r s, result = .ok r s ∧ r.data = some bytes)
  | none => ∃ e s, result = .error e s

/-- After any calls of the persister that write or delete, `Load` of a registered key gives a
resource the bytes of the most recent `Persist` of this key that is later than its last deletion,
and throws when there is none. -/
theorem load_latest (E : SqliteEngine) {crc : List UInt8 → UInt32}
    {registry : ResourceLoader.Registry} {key : Str} {c : ResourceClass} (hne : key ≠ [])
    (hkey : PlainLiteral key) (hreg : registry key = some c) {tables : Path → Option Table}
    {p : Path} {t : Table} (ht : tables p = some t) (hfresh : t.ofKey key = [])
    {calls : List PersisterCall} (hcalls : ∀ call ∈ calls, call.Writes crc)
    (hrows : t.lastRow + calls.countP PersisterCall.isPersist < 2 ^ 31)
    (statements statements' : Nat) :
    ∃ s, (forM calls (PersisterCall.run E crc)).run (connected tables p statements) = .ok () s ∧
      LoadsLatest ((ResourceLoader.load E registry key).run
        ⟨s.disk, ⟨some ⟨some p, statements'⟩, p⟩⟩) c (latest key calls) := by
  refine ⟨_, forM_run_connected E hcalls ht hrows statements, ?_⟩
  have hreflects := reflects_foldl hfresh hcalls hrows
  have htable : Function.update tables p (some (calls.foldl PersisterCall.effect t)) p =
      some (calls.foldl PersisterCall.effect t) := Function.update_self _ _ _
  rw [← hreflects.last]
  cases hlast : ((calls.foldl PersisterCall.effect t).ofKey key).getLast? with
  | none =>
    obtain ⟨what, hload⟩ := load_connected_none E registry hne hkey htable
      (List.getLast?_eq_none_iff.mp hlast) statements'
    exact ⟨_, _, hload⟩
  | some row =>
    have hload := load_connected E hne hkey hreg htable hreflects.sound hlast statements'
    have hpos := (hreflects.sound row (List.mem_of_getLast? hlast)).pos
    refine ⟨⟨row.numbers, _, hload⟩, fun hc => ?_⟩
    rw [fillResource_run hc row.numbers hpos] at hload
    exact ⟨_, _, hload, rfl⟩

/-- A key is written twice, and another one is written and deleted. -/
def twoKeys : List PersisterCall :=
  [.persist (byteResource 2 1 [1, 2]) ['k'], .persist (byteResource 1 1 [9]) ['l'],
    .persist (byteResource 1 3 [3, 4, 5]) ['k'], .unpersist ['l']]

theorem twoKeys_writes : ∀ call ∈ twoKeys, call.Writes crc32 := by
  have hk : PlainLiteral ['k'] := by simp [PlainLiteral]
  have hl : PlainLiteral ['l'] := by simp [PlainLiteral]
  simp only [twoKeys, List.forall_mem_cons, PersisterCall.Writes]
  refine ⟨⟨by simp, hk, ?_, by decide +kernel⟩, ⟨by simp, hl, ?_, by decide +kernel⟩,
    ⟨by simp, hk, ?_, by decide +kernel⟩, ⟨by simp, hl⟩, by simp⟩
  · exact byteResource_fitsInt rfl (by simp) (by decide) (by decide) (by decide)
  · exact byteResource_fitsInt rfl (by simp) (by decide) (by decide) (by decide)
  · exact byteResource_fitsInt rfl (by simp) (by decide) (by decide) (by decide)

theorem load_latest_twoKeys :
    ∃ s, (forM twoKeys (PersisterCall.run plainEngine crc32)).run (connected emptyTables ['d'] 0) =
        .ok () s ∧
      LoadsLatest ((ResourceLoader.load plainEngine vectorRegistry ['k']).run
        ⟨s.disk, ⟨some ⟨some ['d'], 0⟩, ['d']⟩⟩) (vectorClass 1) (some [3, 4, 5]) :=
  load_latest plainEngine (by simp) (by simp [PlainLiteral]) rfl (p := ['d']) (t := Table.empty) rfl
    rfl twoKeys_writes (by decide) 0 0

end Azulejo
