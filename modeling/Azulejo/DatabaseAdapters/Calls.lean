import Azulejo.DatabaseAdapters.ResourceAdapters
import Mathlib.Data.List.TakeWhile

/-!
# What the steps of the adapters end with

Each call of the library may fail from outside. For every answer of the library: how `Open`,
`Execute`, `OpenDatabase` of the resource adapters and `InsertBlob` end, and what they leave of the
database and its statements.
-/

namespace Azulejo

open Stateful Sqlite SqliteBlob

variable (E : SqliteEngine)

/-! ## The answers of the library -/

/-- A call of the library takes the next entry of the list of faults. -/
def takeFault (s : SqliteState) : SqliteState :=
  { s with disk := { s.disk with faults := s.disk.faults.tail } }

theorem table_takeFault (s : SqliteState) : table (takeFault s) = table s := rfl

/-- What a call gives back: the text of a fault from outside, or its own result. -/
def answer {α : Type} (result : SqliteState → Except Str α) (s : SqliteState) : Except Str α :=
  match s.disk.faults.head?.join with
  | some what => .error what
  | none => result (takeFault s)

theorem call_answer {α : Type} (result : SqliteState → Except Str α) (s : SqliteState) :
    (call result).run s = .ok (answer result s) (takeFault s) := by
  obtain ⟨⟨tables, faults⟩, sqlite⟩ := s
  rcases faults with _ | ⟨_ | what, rest⟩ <;> rfl

/-- The fault that the next call of the library meets. -/
def nextFault (s : SqliteState) : Option Str := s.disk.faults.head?.join

theorem answer_of_none {α : Type} {s : SqliteState} (h : nextFault s = none)
    (result : SqliteState → Except Str α) : answer result s = result (takeFault s) := by
  unfold answer
  rw [show s.disk.faults.head?.join = none from h]

theorem answer_of_some {α : Type} {s : SqliteState} {what : Str} (h : nextFault s = some what)
    (result : SqliteState → Except Str α) : answer result s = .error what := by
  unfold answer
  rw [show s.disk.faults.head?.join = some what from h]

theorem nextFault_eq_none {s : SqliteState} :
    nextFault s = none ↔ ∀ fault ∈ s.disk.faults.head?, fault = none := by
  unfold nextFault
  rcases s.disk.faults.head? with _ | _ | what <;> simp

theorem answer_eq_ok {α : Type} {result : SqliteState → Except Str α} {s : SqliteState} {a : α} :
    answer result s = .ok a ↔ nextFault s = none ∧ result (takeFault s) = .ok a := by
  cases hfault : nextFault s with
  | none => simp [answer_of_none hfault]
  | some what => simp [answer_of_some hfault]

/-- No fault meets the next call, nor the calls after it. -/
theorem faults_take_succ (s : SqliteState) (n : Nat) :
    (∀ fault ∈ s.disk.faults.take (n + 1), fault = none) ↔
      nextFault s = none ∧ ∀ fault ∈ (takeFault s).disk.faults.take n, fault = none := by
  rw [nextFault_eq_none]
  unfold takeFault
  cases s.disk.faults with
  | nil => simp
  | cons fault faults => simp

theorem faults_take_three (s : SqliteState) :
    (∀ fault ∈ s.disk.faults.take 3, fault = none) ↔
      nextFault s = none ∧ nextFault (takeFault s) = none ∧
        nextFault (takeFault (takeFault s)) = none := by
  simp only [faults_take_succ, List.take_zero, List.not_mem_nil, false_implies, implies_true,
    and_true]

/-! ## Statements -/

/-- Text without a NUL is read to its end. -/
theorem cString_append {before : Str} (h : '\x00' ∉ before) (s : Str) :
    cString (before ++ s) = before ++ cString s := by
  apply List.takeWhile_append_of_pos
  intro c hc
  have hne : c ≠ '\x00' := by
    rintro rfl
    exact h hc
  simp [hne]

theorem cString_eq {sql : Str} (h : '\x00' ∉ sql) : cString sql = sql := by
  have happend := cString_append h []
  rw [List.append_nil] at happend
  rw [happend]
  exact List.append_nil sql

theorem not_mem_of_elem {s : Str} (h : s.elem '\x00' = false) : '\x00' ∉ s := by
  intro hmem
  rw [List.elem_iff.mpr hmem] at h
  cases h

theorem nul_not_mem_ofNat (n : Nat) : '\x00' ∉ DecimalText.ofNat n := by
  intro h
  exact absurd (DecimalText.isDigit_of_mem_ofNat h) (by decide)

theorem nul_not_mem_selectPrefix : '\x00' ∉ Sql.selectPrefix :=
  not_mem_of_elem (by decide +kernel)

theorem nul_not_mem_insertPrefix : '\x00' ∉ Sql.insertPrefix :=
  not_mem_of_elem (by decide +kernel)

theorem nul_not_mem_deletePrefix : '\x00' ∉ Sql.deletePrefix :=
  not_mem_of_elem (by decide +kernel)

theorem cString_createTable : cString Sql.createTable = Sql.createTable :=
  cString_eq (not_mem_of_elem (by decide +kernel))

theorem cString_selectKey {key : Str} (h : PlainLiteral key) :
    cString (Sql.selectKey key) = Sql.selectKey key := by
  apply cString_eq
  simp [Sql.selectKey, nul_not_mem_selectPrefix, h.2]

theorem cString_insertRow {key : Str} (h : PlainLiteral key) (m n sizeOf : UInt64) :
    cString (Sql.insertRow key m n sizeOf) = Sql.insertRow key m n sizeOf := by
  apply cString_eq
  simp [Sql.insertRow, nul_not_mem_insertPrefix, h.2, nul_not_mem_ofNat]

theorem cString_deleteKey {key : Str} (h : PlainLiteral key) :
    cString (Sql.deleteKey key) = Sql.deleteKey key := by
  apply cString_eq
  simp [Sql.deleteKey, nul_not_mem_deletePrefix, h.2]

/-! ## Opening -/

/-- What a failed `sqlite3_open` stores as the handle. -/
def failedHandle (what : Str) : Option Connection :=
  if what = outOfMemory then none else some ⟨none, 0⟩

/-- The state after a successful `Open`. -/
def openedAt (p : Path) (s : SqliteState) : SqliteState :=
  ⟨(takeFault s).disk, ⟨some ⟨some p, 0⟩, p⟩⟩

theorem openPath_fails {p : Path} (hp : p ≠ []) {s : SqliteState} {what : Str}
    (h : nextFault s = some what) :
    ∃ text, (openPath p).run s =
      .error (.runtimeError text) (setDb (failedHandle what) (takeFault s)) := by
  refine ⟨"Could not create (open) SQLite3 DB at ".toList ++ p, ?_⟩
  unfold openPath
  rw [if_neg hp, bind_ok (call_answer _ s), answer_of_some h]
  rfl

theorem openPath_succeeds {p : Path} (hp : p ≠ []) {s : SqliteState} (h : nextFault s = none) :
    (openPath p).run s = .ok () (openedAt p s) := by
  unfold openPath
  rw [if_neg hp, bind_ok (call_answer _ s), answer_of_none h]
  rfl

theorem openPath_empty (s : SqliteState) :
    ∃ text, (openPath []).run s = .error (.runtimeError text) s :=
  ⟨_, rfl⟩

/-- The state after a successful `OpenDatabase` of a resource adapter: its table is there. -/
def openedWithTable (p : Path) (s : SqliteState) : SqliteState :=
  setTable (some ((s.disk.tables p).getD Table.empty)) (takeFault (openedAt p s))

/-- A `Sqlite` object whose last `sqlite3_open` failed counts as open. -/
theorem isOpen_of_failedOpen {s : Sqlite} (h : s.failedOpen = true) : s.isOpen = true := by
  unfold Sqlite.failedOpen at h
  unfold Sqlite.isOpen
  cases hdb : s.db with
  | none =>
    rw [hdb] at h
    cases h
  | some c => rfl

/-- `Execute` on the handle of a failed `sqlite3_open` makes no call that ends with an error text. -/
theorem execute_failedOpen {β : Type} {sql : Str}
    {rowCallback : β → List Str → Except Exception β} {b : β} {s : SqliteState}
    (h : s.sqlite.failedOpen = true) :
    (execute E sql rowCallback b).run s = .error .uninitializedPointer s := by
  unfold execute
  rw [bind_ok (EStateM.run_get s)]
  simp only [isOpen_of_failedOpen h, h, Bool.not_true, Bool.false_eq_true, if_false, if_true]
  rfl

theorem execute_fails {β : Type} {sql : Str} {rowCallback : β → List Str → Except Exception β}
    {b : β} {s : SqliteState} (hopen : s.sqlite.isOpen = true)
    (hfile : s.sqlite.failedOpen = false) {what : Str} (h : nextFault s = some what) :
    ∃ text, (execute E sql rowCallback b).run s = .error (.runtimeError text) (takeFault s) := by
  refine ⟨"Sqlite could not execute command: '".toList ++ sql ++ "' due to: ".toList ++ what, ?_⟩
  unfold execute
  rw [bind_ok (EStateM.run_get s)]
  simp only [hopen, hfile, Bool.not_true, Bool.false_eq_true, if_false]
  rw [bind_ok (call_answer _ s), answer_of_some h]
  rfl

/-- A statement that no fault meets: its table is stored, and the callback gets its rows. An
exception of the callback leaves a statement behind. -/
theorem execute_runs {β : Type} {sql : Str} {rowCallback : β → List Str → Except Exception β}
    {b : β} {s : SqliteState} (hopen : s.sqlite.isOpen = true)
    (hfile : s.sqlite.failedOpen = false) (h : nextFault s = none) :
    (execute E sql rowCallback b).run s =
      match E.exec (cString sql) (table s) with
      | (t, .error what) => .error (couldNotExecute sql what) (setTable t (takeFault s))
      | (t, .ok rows) =>
        match rows.foldlM rowCallback b with
        | .ok b' => .ok b' (setTable t (takeFault s))
        | .error e => .error e (addStatements (· + 1) (setTable t (takeFault s))) := by
  unfold execute
  rw [bind_ok (EStateM.run_get s)]
  simp only [hopen, hfile, Bool.not_true, Bool.false_eq_true, if_false]
  rw [bind_ok (call_answer _ s), answer_of_none h, table_takeFault]
  rcases E.exec (cString sql) (table s) with ⟨t, what | rows⟩
  · rfl
  · simp only
    rw [bind_ok (EStateM.run_modify _ _)]
    cases rows.foldlM rowCallback b <;> rfl

section

variable {p : Path} {s : SqliteState}

theorem openResourceDatabase_closed (hclosed : s.sqlite.isOpen = false) (alreadyOpen : Str) :
    (openResourceDatabase E alreadyOpen p).run s =
      (openPath p >>= fun _ => execute E Sql.createTable (fun _ _ => pure ()) ()).run s := by
  unfold openResourceDatabase
  rw [bind_ok (EStateM.run_get s)]
  simp only [hclosed, Bool.false_eq_true, if_false]

/-- `OpenDatabase` of a resource adapter whose two calls succeed. -/
theorem openResourceDatabase_succeeds (hclosed : s.sqlite.isOpen = false) (hp : p ≠ [])
    (hopen : nextFault s = none) (hcreate : nextFault (takeFault s) = none) (alreadyOpen : Str) :
    (openResourceDatabase E alreadyOpen p).run s = .ok () (openedWithTable p s) := by
  have hnext : nextFault (openedAt p s) = none := hcreate
  rw [openResourceDatabase_closed E hclosed, bind_ok (openPath_succeeds hp hopen),
    execute_runs E rfl rfl hnext, cString_createTable, E.exec_createTable]
  rfl

/-- When `CREATE TABLE` fails, the database stays open. -/
theorem openResourceDatabase_left_open (hclosed : s.sqlite.isOpen = false) (hp : p ≠ [])
    (hopen : nextFault s = none) {what : Str} (hcreate : nextFault (takeFault s) = some what)
    (alreadyOpen : Str) :
    ∃ text, (openResourceDatabase E alreadyOpen p).run s =
      .error (.runtimeError text) (takeFault (openedAt p s)) := by
  have hnext : nextFault (openedAt p s) = some what := hcreate
  rw [openResourceDatabase_closed E hclosed, bind_ok (openPath_succeeds hp hopen)]
  exact execute_fails E rfl rfl hnext

theorem openResourceDatabase_fails (hclosed : s.sqlite.isOpen = false) (hp : p ≠ []) {what : Str}
    (hopen : nextFault s = some what) (alreadyOpen : Str) :
    ∃ text, (openResourceDatabase E alreadyOpen p).run s =
      .error (.runtimeError text) (setDb (failedHandle what) (takeFault s)) := by
  obtain ⟨text, hrun⟩ := openPath_fails hp hopen
  refine ⟨text, ?_⟩
  rw [openResourceDatabase_closed E hclosed, bind_error hrun]

theorem openResourceDatabase_empty (hclosed : s.sqlite.isOpen = false) (alreadyOpen : Str) :
    ∃ text, (openResourceDatabase E alreadyOpen []).run s = .error (.runtimeError text) s := by
  obtain ⟨text, hrun⟩ := openPath_empty s
  refine ⟨text, ?_⟩
  rw [openResourceDatabase_closed E hclosed, bind_error hrun]

end

/-- `Open` does not store the handle of a failed `sqlite3_open`: there is no path, or no memory. -/
def StoresNoHandle (p : Path) (s : SqliteState) : Prop :=
  p = [] ∨ nextFault s = some outOfMemory

theorem isOpen_failedHandle {what : Str} {path : Path} :
    (Sqlite.mk (failedHandle what) path).isOpen = false ↔ what = outOfMemory := by
  unfold failedHandle Sqlite.isOpen
  by_cases h : what = outOfMemory
  · simp [h]
  · simp [h]

/-- `Open` returns when there is a path and `sqlite3_open` succeeds. -/
theorem openPath_returns_iff {q : Path} {s : SqliteState} :
    (∃ s', (openPath q).run s = .ok () s') ↔ q ≠ [] ∧ nextFault s = none := by
  by_cases hq : q = []
  · subst hq
    obtain ⟨text, hrun⟩ := openPath_empty s
    simp [hrun]
  · cases hfault : nextFault s with
    | none => simp [hq, openPath_succeeds hq hfault]
    | some what =>
      obtain ⟨text, hrun⟩ := openPath_fails hq hfault
      simp [hrun]

/-- The two calls of `OpenDatabase` of a resource adapter succeed, or it stores no handle. -/
def OpensOrStoresNoHandle (p : Path) (s : SqliteState) : Prop :=
  StoresNoHandle p s ∨ (nextFault s = none ∧ nextFault (takeFault s) = none)

/-- How `OpenDatabase` of a closed resource adapter ends. -/
theorem openResourceDatabase_ends (alreadyOpen : Str) (p : Path) {s : SqliteState}
    (hclosed : s.sqlite.isOpen = false) :
    (p ≠ [] ∧ nextFault s = none ∧ nextFault (takeFault s) = none ∧
        (openResourceDatabase E alreadyOpen p).run s = .ok () (openedWithTable p s)) ∨
      (StoresNoHandle p s ∧ ∃ text s', s'.sqlite.isOpen = false ∧
        (openResourceDatabase E alreadyOpen p).run s = .error (.runtimeError text) s') ∨
      (¬ OpensOrStoresNoHandle p s ∧ ∃ text s', s'.sqlite.isOpen = true ∧
        (openResourceDatabase E alreadyOpen p).run s = .error (.runtimeError text) s') := by
  by_cases hp : p = []
  · subst hp
    obtain ⟨text, hrun⟩ := openResourceDatabase_empty E hclosed alreadyOpen
    exact Or.inr (Or.inl ⟨Or.inl rfl, text, s, hclosed, hrun⟩)
  cases hopen : nextFault s with
  | some what =>
    obtain ⟨text, hrun⟩ := openResourceDatabase_fails E hclosed hp hopen alreadyOpen
    by_cases hmemory : what = outOfMemory
    · subst hmemory
      exact Or.inr (Or.inl ⟨Or.inr hopen, text, _, isOpen_failedHandle.mpr rfl, hrun⟩)
    · refine Or.inr (Or.inr ⟨?_, text, _, ?_, hrun⟩)
      · simp [OpensOrStoresNoHandle, StoresNoHandle, hp, hopen, hmemory]
      · exact Bool.not_eq_false _ ▸ (mt isOpen_failedHandle.mp hmemory)
  | none =>
    cases hcreate : nextFault (takeFault s) with
    | some what =>
      obtain ⟨text, hrun⟩ := openResourceDatabase_left_open E hclosed hp hopen hcreate alreadyOpen
      refine Or.inr (Or.inr ⟨?_, text, _, rfl, hrun⟩)
      simp [OpensOrStoresNoHandle, StoresNoHandle, hp, hopen, hcreate]
    | none =>
      exact Or.inl ⟨hp, rfl, rfl, openResourceDatabase_succeeds E hclosed hp hopen hcreate _⟩

/-- `CloseDatabase` of a database without statements. -/
theorem closeDatabase_opened (disk : Disk) (p : Path) :
    closeDatabase.run ⟨disk, ⟨some ⟨some p, 0⟩, p⟩⟩ = .ok () ⟨disk, ⟨none, p⟩⟩ := by
  unfold closeDatabase
  rw [bind_ok (EStateM.run_get _)]
  simp only [Sqlite.isOpen, Option.isSome_some, if_true]
  unfold close
  rw [bind_ok (EStateM.run_get _)]
  rfl

/-! ## How `InsertBlob` ends -/

theorem prepareV2_eq_ok {sql : Str} {s : SqliteState} :
    prepareV2 E sql s = .ok () ↔
      s.sqlite.failedOpen = false ∧ E.prepare (cString sql) (table s) = .ok () := by
  unfold prepareV2
  cases s.sqlite.failedOpen <;> simp

theorem table_addStatements (f : Nat → Nat) (s : SqliteState) :
    table (addStatements f s) = table s := by
  obtain ⟨disk, ⟨db, dbPath⟩⟩ := s
  cases db with
  | none => rfl
  | some c => cases c with
    | mk file statements => cases file <;> rfl

/-- The state after an insertion: its three calls were made, and the statement was stepped. -/
def inserted (sql : Str) (bound : List UInt8) (s : SqliteState) : SqliteState :=
  setTable (E.step (cString sql) bound (table s)).1 (takeFault (takeFault (takeFault s)))

/-- The statement that was prepared is finalized. -/
theorem addStatements_setTable (t : Option Table) (s : SqliteState) :
    addStatements (· - 1) (setTable t (takeFault (takeFault (addStatements (· + 1) (takeFault s))))) =
      setTable t (takeFault (takeFault (takeFault s))) := by
  obtain ⟨disk, ⟨db, dbPath⟩⟩ := s
  cases db with
  | none => rfl
  | some c => cases c with
    | mk file statements => cases file <;> rfl

/-- Only a statement can be bound to. -/
theorem not_blank_of_bindBlob {sql : Str} {data bound : List UInt8} {k : Int}
    (h : E.bindBlob sql data k = .ok bound) : E.blank sql = false := by
  by_contra hblank
  obtain ⟨what, hthrow⟩ := E.bindBlob_blank sql data k (Bool.not_eq_false _ |>.mp hblank)
  rw [hthrow] at h
  cases h

@[simp] theorem sqlite_setTable (t : Option Table) (s : SqliteState) :
    (setTable t s).sqlite = s.sqlite := by
  unfold setTable
  split <;> rfl

theorem isOpen_addStatements (f : Nat → Nat) (s : SqliteState) :
    (addStatements f s).sqlite.isOpen = s.sqlite.isOpen := by
  cases hdb : s.sqlite.db <;> simp [addStatements, setDb, Sqlite.isOpen, hdb]

/-- An insertion that returns has finalized its statement. -/
theorem sqlite_inserted (sql : Str) (bound : List UInt8) (s : SqliteState) :
    (inserted E sql bound s).sqlite = s.sqlite := by
  rw [inserted, sqlite_setTable]
  rfl

/-- `InsertBlob` prepares a statement: there is data, the database is open, and the library accepts
the text and finds a statement in it. -/
structure Prepares (sql : Str) (data : Option (List UInt8)) (size : UInt64) (s : SqliteState) :
    Prop where
  data : data ≠ none
  nonempty : size ≠ 0
  opened : s.sqlite.isOpen = true
  accepted : answer (prepareV2 E sql) s = .ok ()
  statement : E.blank (cString sql) = false

/-- The library inserts a row from the text: the database is open, there is data, and none of
its three calls fails, from outside or by what it finds. -/
structure Inserts (sql : Str) (data : Option (List UInt8)) (size : UInt64) (s : SqliteState) :
    Prop where
  opened : s.sqlite.isOpen = true
  nonempty : size ≠ 0
  faults : ∀ fault ∈ s.disk.faults.take 3, fault = none
  calls : ∃ bytes bound, data = some bytes ∧ prepareV2 E sql s = .ok () ∧
    E.bindBlob (cString sql) bytes (toInt size) = .ok bound ∧
    (E.step (cString sql) bound (table s)).2 = .ok ()

section

variable {sql : Str} {bytes bound : List UInt8} {size : UInt64} {s : SqliteState}

theorem Inserts.bind_ok (h : Inserts E sql (some bytes) size s) :
    ∃ bound, answer (fun _ => E.bindBlob (cString sql) bytes (toInt size))
      (addStatements (· + 1) (takeFault s)) = .ok bound := by
  obtain ⟨bytes', bound, ⟨⟨⟩⟩, -, hbind, -⟩ := h.calls
  exact ⟨bound, answer_eq_ok.mpr ⟨((faults_take_three s).mp h.faults).2.1, hbind⟩⟩

theorem Inserts.step_ok (h : Inserts E sql (some bytes) size s)
    (hbind : E.bindBlob (cString sql) bytes (toInt size) = .ok bound) :
    ∃ t, answer (fun s => .ok (E.step (cString sql) bound (table s)))
      (takeFault (addStatements (· + 1) (takeFault s))) = .ok (t, .ok ()) := by
  obtain ⟨bytes', bound', ⟨⟨⟩⟩, -, hbind', hstep⟩ := h.calls
  obtain rfl := Except.ok.inj (hbind.symm.trans hbind')
  refine ⟨(E.step (cString sql) bound (table s)).1,
    answer_eq_ok.mpr ⟨((faults_take_three s).mp h.faults).2.2, ?_⟩⟩
  rw [table_takeFault, table_takeFault, table_addStatements, table_takeFault, ← hstep]

/-- Three calls that succeed insert a row, and the table that the last one gives is that of the
insertion. -/
theorem inserts_of_answers {t : Option Table} (hopen : s.sqlite.isOpen = true) (hsize : size ≠ 0)
    (hprepare : answer (prepareV2 E sql) s = .ok ())
    (hanswer : answer (fun _ => E.bindBlob (cString sql) bytes (toInt size))
      (addStatements (· + 1) (takeFault s)) = .ok bound)
    (hstep : answer (fun s => .ok (E.step (cString sql) bound (table s)))
      (takeFault (addStatements (· + 1) (takeFault s))) = .ok (t, .ok ())) :
    Inserts E sql (some bytes) size s ∧
      setTable t (takeFault (takeFault (takeFault s))) = inserted E sql bound s := by
  obtain ⟨hfirst, hprepared⟩ := answer_eq_ok.mp hprepare
  obtain ⟨hsecond, hbind⟩ := answer_eq_ok.mp hanswer
  obtain ⟨hthird, hresult⟩ := answer_eq_ok.mp hstep
  have hpair := Except.ok.inj hresult
  rw [table_takeFault, table_takeFault, table_addStatements, table_takeFault] at hpair
  refine ⟨⟨hopen, hsize, (faults_take_three s).mpr ⟨hfirst, hsecond, hthird⟩, bytes, bound, rfl,
    hprepared, hbind, by rw [hpair]⟩, ?_⟩
  rw [inserted, hpair]

end

theorem Inserts.prepares {sql : Str} {data : Option (List UInt8)} {size : UInt64} {s : SqliteState}
    (h : Inserts E sql data size s) : Prepares E sql data size s := by
  obtain ⟨bytes, bound, rfl, hprepare, hbind, -⟩ := h.calls
  have hfirst := ((faults_take_three s).mp h.faults).1
  exact ⟨Option.some_ne_none _, h.nonempty, h.opened, answer_eq_ok.mpr ⟨hfirst, hprepare⟩,
    not_blank_of_bindBlob E hbind⟩

/-- How `InsertBlob` ends: before a statement is prepared, with the statement left, or with the row
inserted. -/
inductive InsertEnd (sql : Str) (data : Option (List UInt8)) (size : UInt64) (s : SqliteState) :
    EStateM.Result Exception SqliteState Unit → Prop
  | refused {what : Str} {s' : SqliteState} : ¬ Prepares E sql data size s →
      s'.sqlite = s.sqlite →
      InsertEnd sql data size s (.error (.runtimeError what) s')
  | failed {what : Str} {s' : SqliteState} : Prepares E sql data size s →
      ¬ Inserts E sql data size s → s'.sqlite = (addStatements (· + 1) s).sqlite →
      InsertEnd sql data size s (.error (.runtimeError what) s')
  | inserted {bytes bound : List UInt8} : Inserts E sql data size s → data = some bytes →
      E.bindBlob (cString sql) bytes (toInt size) = .ok bound →
      InsertEnd sql data size s (.ok () (inserted E sql bound s))

theorem insertBlob_ends (sql : Str) (data : Option (List UInt8)) (size : UInt64) (s : SqliteState) :
    InsertEnd E sql data size s ((insertBlob E sql data size).run s) := by
  unfold insertBlob
  cases data with
  | none => exact .refused (fun h => h.data rfl) rfl
  | some bytes =>
    by_cases hsize : size = 0
    · simp only [if_pos hsize]
      exact .refused (fun h => h.nonempty hsize) rfl
    simp only [if_neg hsize]
    rw [bind_ok (EStateM.run_get s)]
    cases hopen : s.sqlite.isOpen with
    | false =>
      simp only [Bool.not_false, if_true]
      exact .refused (fun h => Bool.false_ne_true (hopen.symm.trans h.opened)) rfl
    | true =>
      simp only [Bool.not_true, Bool.false_eq_true, if_false]
      rw [bind_ok (call_answer _ s)]
      cases hprepare : answer (prepareV2 E sql) s with
      | error what => exact .refused (fun h => nomatch hprepare.symm.trans h.accepted) rfl
      | ok u =>
        cases hblank : E.blank (cString sql) with
        | true =>
          -- there is no statement, and nothing can be bound
          simp only [Bool.not_true, Bool.false_eq_true, if_false]
          rw [bind_ok (call_answer _ _)]
          cases hanswer : answer (fun _ => E.bindBlob (cString sql) bytes (toInt size))
              (takeFault s) with
          | error what => exact .refused (fun h => nomatch hblank.symm.trans h.statement) rfl
          | ok bound =>
            have hbind := (answer_eq_ok.mp hanswer).2
            cases hblank.symm.trans (not_blank_of_bindBlob E hbind)
        | false =>
          have hprepares : Prepares E sql (some bytes) size s :=
            ⟨Option.some_ne_none _, hsize, hopen, hprepare, hblank⟩
          simp only [Bool.not_false, if_true]
          rw [bind_ok (EStateM.run_modify _ _), bind_ok (call_answer _ _)]
          cases hanswer : answer (fun _ => E.bindBlob (cString sql) bytes (toInt size))
              (addStatements (· + 1) (takeFault s)) with
          | error what =>
            refine .failed hprepares (fun h => ?_) rfl
            obtain ⟨bound, hok⟩ := h.bind_ok E
            cases hanswer.symm.trans hok
          | ok bound =>
            have hbind := (answer_eq_ok.mp hanswer).2
            simp only
            rw [bind_ok (call_answer _ _)]
            cases hstep : answer (fun s => .ok (E.step (cString sql) bound (table s)))
                (takeFault (addStatements (· + 1) (takeFault s))) with
            | error what =>
              refine .failed hprepares (fun h => ?_) rfl
              obtain ⟨t, hok⟩ := h.step_ok E hbind
              cases hstep.symm.trans hok
            | ok outcome =>
              obtain ⟨t, stepped⟩ := outcome
              simp only
              rw [bind_ok (EStateM.run_modify _ _)]
              cases stepped with
              | error what =>
                refine .failed hprepares (fun h => ?_) (by rw [sqlite_setTable]; rfl)
                obtain ⟨t', hok⟩ := h.step_ok E hbind
                cases hstep.symm.trans hok
              | ok u =>
                obtain ⟨hinserts, hstate⟩ := inserts_of_answers E hopen hsize hprepare hanswer hstep
                have hend := InsertEnd.inserted hinserts rfl hbind
                rw [← hstate, ← addStatements_setTable] at hend
                exact hend

/-- `InsertBlob` returns exactly when the library inserts the row. -/
theorem insertBlob_returns_iff (sql : Str) (data : Option (List UInt8)) (size : UInt64)
    (s : SqliteState) :
    (∃ s', (insertBlob E sql data size).run s = .ok () s') ↔ Inserts E sql data size s := by
  have hends := insertBlob_ends E sql data size s
  generalize (insertBlob E sql data size).run s = r at hends
  cases hends with
  | refused hnot _ => exact iff_of_false nofun fun h => hnot h.prepares
  | failed _ hnot _ => exact iff_of_false nofun hnot
  | inserted hinserts _ _ => exact iff_of_true ⟨_, rfl⟩ hinserts

/-- `InsertBlob` returns exactly when there is data, the database is open, and none of its three
calls of the library fails, from outside or by what it finds. -/
theorem insertBlob_eq_ok {sql : Str} {data : Option (List UInt8)} {size : UInt64}
    {s s' : SqliteState} :
    (insertBlob E sql data size).run s = .ok () s' ↔
      s.sqlite.isOpen = true ∧ size ≠ 0 ∧ (∀ fault ∈ s.disk.faults.take 3, fault = none) ∧
        ∃ bytes bound, data = some bytes ∧ prepareV2 E sql s = .ok () ∧
          E.bindBlob (cString sql) bytes (toInt size) = .ok bound ∧
          (E.step (cString sql) bound (table s)).2 = .ok () ∧ s' = inserted E sql bound s := by
  constructor
  · intro h
    have hends := insertBlob_ends E sql data size s
    rw [h] at hends
    cases hends with
    | inserted hinserts hdata hbind =>
      obtain ⟨bytes, bound, hbytes, hprepare, hbound, hstep⟩ := hinserts.calls
      obtain rfl := Option.some.inj (hdata.symm.trans hbytes)
      obtain rfl := Except.ok.inj (hbind.symm.trans hbound)
      exact ⟨hinserts.opened, hinserts.nonempty, hinserts.faults, _, _, hdata, hprepare, hbind,
        hstep, rfl⟩
  · rintro ⟨hopen, hsize, hfaults, bytes, bound, hdata, hprepare, hbind, hstep, rfl⟩
    have hinserts : Inserts E sql data size s :=
      ⟨hopen, hsize, hfaults, bytes, bound, hdata, hprepare, hbind, hstep⟩
    have hends := insertBlob_ends E sql data size s
    generalize (insertBlob E sql data size).run s = r at hends
    cases hends with
    | refused hnot _ => exact absurd hinserts.prepares hnot
    | failed _ hnot _ => exact absurd hinserts hnot
    | inserted _ hdata' hbind' =>
      obtain rfl := Option.some.inj (hdata.symm.trans hdata')
      obtain rfl := Except.ok.inj (hbind.symm.trans hbind')
      rfl

end Azulejo
