import Azulejo.DatabaseAdapters.EntitySpecs

/-!
# Loading a resource when calls of the library fail

`LoadEscapes` says on which databases, and for which answers of the library, `ResourceLoader::Load`
ends in an exception that a handler for `std::runtime_error` does not catch (`escapes_load_iff`), and
`load_sqlite` what it leaves of the connection.
-/

namespace Azulejo

open Stateful Sqlite SqliteBlob

/-- An exception of a standard class; the others are ends without an exception. -/
def Exception.isStandard : Exception → Bool
  | .runtimeError _ => true
  | .logicError _ => true
  | .exception _ => true
  | .nontermination => false
  | .nullDereference => false
  | .uninitializedPointer => false

/-- A standard exception that a handler for `std::runtime_error` does not catch. -/
def Exception.escapes : Exception → Bool
  | .logicError _ => true
  | .exception _ => true
  | _ => false

theorem Exception.isStandard_of_escapes {e : Exception} (h : e.escapes = true) :
    e.isStandard = true := by
  cases e with
  | runtimeError what => rfl
  | logicError what => rfl
  | exception what => rfl
  | nontermination => cases h
  | nullDereference => cases h
  | uninitializedPointer => cases h

/-! ## Exceptions that are not caught -/

/-- The program ends in an exception that a handler for `std::runtime_error` does not catch. -/
def Escapes {σ α : Type} (x : EStateM Exception σ α) (s : σ) : Prop :=
  ∃ e s', x.run s = .error e s' ∧ e.escapes = true

theorem escapes_bind_iff {σ α β : Type} {x : EStateM Exception σ α}
    {f : α → EStateM Exception σ β} {s : σ} :
    Escapes (x >>= f) s ↔ Escapes x s ∨ ∃ a s', x.run s = .ok a s' ∧ Escapes (f a) s' := by
  cases hx : x.run s with
  | ok a s' =>
    have hnot : ¬ Escapes x s := by
      rintro ⟨e, s₁, hrun, -⟩
      rw [hx] at hrun
      cases hrun
    have hbind : Escapes (x >>= f) s ↔ Escapes (f a) s' := by
      unfold Escapes
      rw [bind_ok hx]
    rw [hbind]
    constructor
    · exact fun h => Or.inr ⟨a, s', rfl, h⟩
    · rintro (h | ⟨a', s₁, hrun, h⟩)
      · exact absurd h hnot
      · cases hrun
        exact h
  | error e s' =>
    have hbind : Escapes (x >>= f) s ↔ Escapes x s := by
      unfold Escapes
      rw [bind_error hx, hx]
      constructor
      · rintro ⟨e', s₁, ⟨⟩, he⟩
        exact ⟨e, s', rfl, he⟩
      · rintro ⟨e', s₁, ⟨⟩, he⟩
        exact ⟨e, s', rfl, he⟩
    rw [hbind]
    refine ⟨Or.inl, ?_⟩
    rintro (h | ⟨a, s₁, hrun, -⟩)
    · exact h
    · cases hrun

theorem not_escapes_of_ok {σ α : Type} {x : EStateM Exception σ α} {s s' : σ} {a : α}
    (h : x.run s = .ok a s') : ¬ Escapes x s := by
  rintro ⟨e, s₁, hrun, -⟩
  rw [h] at hrun
  cases hrun

theorem not_escapes_of_error {σ α : Type} {x : EStateM Exception σ α} {s s' : σ} {e : Exception}
    (h : x.run s = .error e s') (he : e.escapes = false) : ¬ Escapes x s := by
  rintro ⟨e', s₁, hrun, he'⟩
  rw [h] at hrun
  cases hrun
  exact Bool.false_ne_true (he.symm.trans he')

theorem not_escapes_of_runtimeError {σ α : Type} {x : EStateM Exception σ α} {s s' : σ} {what : Str}
    (h : x.run s = .error (.runtimeError what) s') : ¬ Escapes x s :=
  not_escapes_of_error h rfl

/-! ## Loading -/

variable (E : SqliteEngine)

/-- The numbers of a row can be read. -/
def ReadableRow (colValues : List Str) : Prop :=
  ∀ i ∈ [1, 2, 3, 4], ∃ n, stoi (colValues.getD i []) = .ok n

def stoiFailed : Exception := .logicError "stoi".toList

theorem stoi_ends (text : Str) : (∃ n, stoi text = .ok n) ∨ stoi text = .error stoiFailed := by
  unfold stoi
  cases DecimalText.scanInt text with
  | none => exact Or.inr rfl
  | some i =>
    by_cases hrange : -(2 ^ 31) ≤ i ∧ i < 2 ^ 31
    · simp only [if_pos hrange]
      exact Or.inl ⟨i, rfl⟩
    · simp only [if_neg hrange]
      exact Or.inr rfl

theorem not_readableRow {colValues : List Str} {i : Nat} (hi : i ∈ [1, 2, 3, 4])
    (h : stoi (colValues.getD i []) = .error stoiFailed) : ¬ ReadableRow colValues := by
  intro hread
  obtain ⟨n, hn⟩ := hread i hi
  rw [h] at hn
  cases hn

/-- The row callback ends in a `std::logic_error` when it does not return. -/
theorem pKeyHandler_ends (colValues : List Str) (old : RowNumbers) :
    (ReadableRow colValues ∧ ∃ numbers, pKeyHandler old colValues = .ok numbers) ∨
      (¬ ReadableRow colValues ∧ pKeyHandler old colValues = .error stoiFailed) := by
  unfold pKeyHandler
  rcases stoi_ends (colValues.getD 1 []) with ⟨iRow, hiRow⟩ | hiRow
  · rcases stoi_ends (colValues.getD 2 []) with ⟨m, hm⟩ | hm
    · rcases stoi_ends (colValues.getD 3 []) with ⟨n, hn⟩ | hn
      · rcases stoi_ends (colValues.getD 4 []) with ⟨sizeOf, hsizeOf⟩ | hsizeOf
        · have hread : ReadableRow colValues := by
            simp only [ReadableRow, List.forall_mem_cons]
            exact ⟨⟨iRow, hiRow⟩, ⟨m, hm⟩, ⟨n, hn⟩, ⟨sizeOf, hsizeOf⟩, by simp⟩
          refine Or.inl ⟨hread,
            ⟨iRow, UInt64.ofInt m, UInt64.ofInt n, UInt64.ofInt sizeOf⟩, ?_⟩
          rw [hiRow, hm, hn, hsizeOf]
          rfl
        · refine Or.inr ⟨not_readableRow (by simp) hsizeOf, ?_⟩
          rw [hiRow, hm, hn, hsizeOf]
          rfl
      · refine Or.inr ⟨not_readableRow (by simp) hn, ?_⟩
        rw [hiRow, hm, hn]
        rfl
    · refine Or.inr ⟨not_readableRow (by simp) hm, ?_⟩
      rw [hiRow, hm]
      rfl
  · refine Or.inr ⟨not_readableRow (by simp) hiRow, ?_⟩
    rw [hiRow]
    rfl

theorem foldlM_pKeyHandler_ends (rows : List (List Str)) (numbers : RowNumbers) :
    ((∀ row ∈ rows, ReadableRow row) ∧
        ∃ numbers', rows.foldlM pKeyHandler numbers = .ok numbers') ∨
      ((∃ row ∈ rows, ¬ ReadableRow row) ∧
        rows.foldlM pKeyHandler numbers = .error stoiFailed) := by
  induction rows generalizing numbers with
  | nil => exact Or.inl ⟨by simp, numbers, rfl⟩
  | cons row rows ih =>
    rcases pKeyHandler_ends row numbers with ⟨hread, numbers₁, hrow⟩ | ⟨hbad, herror⟩
    · have hfold : (row :: rows).foldlM pKeyHandler numbers =
          rows.foldlM pKeyHandler numbers₁ := by
        rw [List.foldlM_cons, hrow]
        rfl
      rw [hfold]
      rcases ih numbers₁ with ⟨hall, hend⟩ | ⟨⟨bad, hmem, hbad⟩, hend⟩
      · exact Or.inl ⟨List.forall_mem_cons.mpr ⟨hread, hall⟩, hend⟩
      · exact Or.inr ⟨⟨bad, List.mem_cons_of_mem row hmem, hbad⟩, hend⟩
    · refine Or.inr ⟨⟨row, List.mem_cons_self, hbad⟩, ?_⟩
      rw [List.foldlM_cons, herror]
      rfl

/-- `size` in `ResourceLoader::Load`. -/
def RowNumbers.size (numbers : RowNumbers) : UInt64 := numbers.m * numbers.n * numbers.sizeOf

/-- What `Load` does with the numbers of a row. -/
def loadBlob (registry : ResourceLoader.Registry) (key : Str) (numbers : RowNumbers) :
    EStateM Exception SqliteState IResource := do
  let cell ← openBlob E Sql.tableName Sql.dataKey numbers.iRow
  let blob ← SqliteBlob.read E cell numbers.size 0
  let c ← lift (ResourceLoader.generateResource registry key)
  match (ResourceLoader.fillResource numbers blob c).run c.construct with
  | .error e _ => throw e
  | .ok () resource => pure resource

theorem load_eq (registry : ResourceLoader.Registry) {key : Str} (hkey : key ≠ [])
    {s : SqliteState} (hopen : s.sqlite.isOpen = true) :
    (ResourceLoader.load E registry key).run s =
      (execute E (Sql.selectKey key) pKeyHandler ⟨-1, 0, 0, 0⟩ >>=
        loadBlob E registry key).run s := by
  unfold ResourceLoader.load
  rw [if_neg hkey, bind_ok (EStateM.run_get s)]
  simp only [hopen, Bool.not_true, Bool.false_eq_true, if_false]
  rfl

section Keeps

variable {τ : Type} {view : SqliteState → τ} (hview : ∀ s, view (takeFault s) = view s)
include hview

/-- A call of the library changes nothing but the faults. -/
theorem keeps_call {α : Type} (result : SqliteState → Except Str α) : Keeps view (call result) := by
  intro s
  rw [call_answer]
  exact hview s

theorem keeps_openBlob (tableName columnName : Str) (iRow : Int) :
    Keeps view (openBlob E tableName columnName iRow) := by
  refine (keeps_call hview _).bind fun result => ?_
  cases result with
  | error what => exact keeps_throw _ _
  | ok cell => exact keeps_pure _ _

theorem keeps_read (cell : List UInt8) (numBytes : UInt64) (offset : Int) :
    Keeps view (SqliteBlob.read E cell numBytes offset) := by
  unfold SqliteBlob.read
  by_cases hsize : numBytes = 0
  · simp only [if_pos hsize]
    exact fun _ => rfl
  by_cases hoffset : offset < 0
  · simp only [if_neg hsize, if_pos hoffset]
    exact fun _ => rfl
  by_cases hhuge : 2 ^ 63 ≤ numBytes.toNat
  · simp only [if_neg hsize, if_neg hoffset, if_pos hhuge]
    exact fun _ => rfl
  simp only [if_neg hsize, if_neg hoffset, if_neg hhuge]
  refine (keeps_call hview _).bind fun result => ?_
  cases result with
  | error what => exact fun _ => rfl
  | ok u =>
    refine (keeps_call hview _).bind fun result => ?_
    cases result with
    | error what => exact keeps_throw _ _
    | ok bytes => exact keeps_pure _ _

/-- Below the rows, loading changes nothing but the faults. -/
theorem keeps_loadBlob (registry : ResourceLoader.Registry) (key : Str) (numbers : RowNumbers) :
    Keeps view (loadBlob E registry key numbers) := by
  refine (keeps_openBlob E hview _ _ _).bind fun cell => ?_
  refine (keeps_read E hview _ _ _).bind fun blob => ?_
  refine (keeps_lift _ _).bind fun c => ?_
  cases (ResourceLoader.fillResource numbers blob c).run c.construct with
  | ok u resource => exact keeps_pure _ _
  | error e resource => exact keeps_throw _ _

end Keeps

/-- Below the rows, loading leaves the `Sqlite` object alone. -/
theorem keeps_sqlite_loadBlob (registry : ResourceLoader.Registry) (key : Str)
    (numbers : RowNumbers) : Keeps SqliteState.sqlite (loadBlob E registry key numbers) :=
  keeps_loadBlob E (fun _ => rfl) registry key numbers

/-! ### Which loads end in an exception that is not caught -/

/-- The rows of the statement are read, the last one giving `numbers`, with `s'` the state then. -/
structure RowsRead (sql : Str) (s : SqliteState) (numbers : RowNumbers) (s' : SqliteState) :
    Prop where
  connected : s.sqlite.failedOpen = false
  runs : nextFault s = none
  rows : ∃ t rows, E.exec (cString sql) (table s) = (t, .ok rows) ∧
    rows.foldlM pKeyHandler ⟨-1, 0, 0, 0⟩ = .ok numbers ∧ s' = setTable t (takeFault s)

theorem execute_rows_ok {sql : Str} {s s' : SqliteState} {numbers : RowNumbers}
    (hopen : s.sqlite.isOpen = true) :
    (execute E sql pKeyHandler ⟨-1, 0, 0, 0⟩).run s = .ok numbers s' ↔
      RowsRead E sql s numbers s' := by
  by_cases hfailed : s.sqlite.failedOpen = true
  · rw [execute_failedOpen E hfailed]
    exact iff_of_false nofun fun h =>
      Bool.false_ne_true (h.connected.symm.trans hfailed)
  have hfile := Bool.eq_false_of_not_eq_true hfailed
  cases hfault : nextFault s with
  | some what =>
    obtain ⟨text, hrun⟩ := execute_fails E hopen hfile hfault
    rw [hrun]
    refine iff_of_false nofun fun h => ?_
    rw [h.runs] at hfault
    cases hfault
  | none =>
    rw [execute_runs E hopen hfile hfault]
    rcases hexec : E.exec (cString sql) (table s) with ⟨t, what | rows⟩
    · refine iff_of_false nofun fun h => ?_
      obtain ⟨t', rows, hrows, -⟩ := h.rows
      rw [hexec] at hrows
      cases hrows
    · cases hfold : rows.foldlM pKeyHandler ⟨-1, 0, 0, 0⟩ with
      | error e =>
        refine iff_of_false (by simp only [hfold]; exact nofun) fun h => ?_
        obtain ⟨t', rows', hrows, hfold', -⟩ := h.rows
        rw [hexec] at hrows
        cases hrows
        rw [hfold] at hfold'
        cases hfold'
      | ok numbers' =>
        simp only [hfold]
        constructor
        · rintro ⟨⟩
          exact ⟨hfile, hfault, t, rows, hexec, hfold, rfl⟩
        · rintro ⟨-, -, t', rows', hrows, hfold', rfl⟩
          rw [hexec] at hrows
          cases hrows
          rw [hfold] at hfold'
          cases hfold'
          rfl

/-- `Execute` lets the `std::logic_error` of an unreadable row out. -/
theorem escapes_execute_iff {sql : Str} {s : SqliteState} (hopen : s.sqlite.isOpen = true) :
    Escapes (execute E sql pKeyHandler ⟨-1, 0, 0, 0⟩) s ↔
      s.sqlite.failedOpen = false ∧ nextFault s = none ∧
        ∃ t rows row, E.exec (cString sql) (table s) = (t, .ok rows) ∧
          row ∈ rows ∧ ¬ ReadableRow row := by
  by_cases hfailed : s.sqlite.failedOpen = true
  · exact iff_of_false (not_escapes_of_error (execute_failedOpen E hfailed) rfl)
      fun h => Bool.false_ne_true (h.1.symm.trans hfailed)
  have hfile := Bool.eq_false_of_not_eq_true hfailed
  cases hfault : nextFault s with
  | some what =>
    obtain ⟨text, hrun⟩ := execute_fails E hopen hfile hfault
    exact iff_of_false (not_escapes_of_runtimeError hrun) fun h => nomatch h.2.1
  | none =>
    have hrun := @execute_runs E _ sql pKeyHandler ⟨-1, 0, 0, 0⟩ s hopen hfile hfault
    rcases hexec : E.exec (cString sql) (table s) with ⟨t, what | rows⟩
    · rw [hexec] at hrun
      refine iff_of_false (not_escapes_of_runtimeError hrun) ?_
      rintro ⟨-, -, t', rows, row, hrows, -⟩
      cases hrows
    · rw [hexec] at hrun
      rcases foldlM_pKeyHandler_ends rows ⟨-1, 0, 0, 0⟩ with ⟨hall, numbers, hfold⟩ |
        ⟨⟨row, hmem, hbad⟩, hfold⟩
      · simp only [hfold] at hrun
        refine iff_of_false (not_escapes_of_ok hrun) ?_
        rintro ⟨-, -, t', rows', row, ⟨⟩, hmem, hbad⟩
        exact hbad (hall row hmem)
      · simp only [hfold] at hrun
        exact iff_of_true ⟨_, _, hrun, rfl⟩ ⟨hfile, rfl, t, rows, row, rfl, hmem, hbad⟩

/-- The cell of a row is opened. -/
structure CellOpened (iRow : Int) (s : SqliteState) (cell : List UInt8) : Prop where
  runs : nextFault s = none
  opened : E.blobOpen Sql.tableName Sql.dataKey iRow (table s) = .ok cell

theorem cellOpened_iff {iRow : Int} {s : SqliteState} {cell : List UInt8} :
    CellOpened E iRow s cell ↔
      answer (fun s => E.blobOpen Sql.tableName Sql.dataKey iRow (table s)) s = .ok cell := by
  rw [answer_eq_ok, table_takeFault]
  exact ⟨fun h => ⟨h.runs, h.opened⟩, fun h => ⟨h.1, h.2⟩⟩

theorem openBlob_ok_iff {iRow : Int} {s s' : SqliteState} {cell : List UInt8} :
    (openBlob E Sql.tableName Sql.dataKey iRow).run s = .ok cell s' ↔
      CellOpened E iRow s cell ∧ s' = takeFault s := by
  unfold openBlob
  rw [bind_ok (call_answer _ s), cellOpened_iff]
  cases answer (fun s => E.blobOpen Sql.tableName Sql.dataKey iRow (table s)) s with
  | error what => exact iff_of_false nofun fun h => nomatch h.1
  | ok cell' =>
    constructor
    · rintro ⟨⟩
      exact ⟨rfl, rfl⟩
    · rintro ⟨⟨⟩, rfl⟩
      rfl

theorem not_escapes_openBlob (iRow : Int) (s : SqliteState) :
    ¬ Escapes (openBlob E Sql.tableName Sql.dataKey iRow) s := by
  rintro ⟨e, s', hrun, he⟩
  unfold openBlob at hrun
  rw [bind_ok (call_answer _ s)] at hrun
  split at hrun
  · cases hrun
  · cases hrun
    cases he

/-- There is no buffer for the bytes: more than a vector can have, or no memory. -/
def NoBuffer (size : UInt64) (s : SqliteState) : Prop :=
  size ≠ 0 ∧ (2 ^ 63 ≤ size.toNat ∨ nextFault s ≠ none)

/-- The bytes of a cell are read into a buffer. -/
structure BytesRead (cell : List UInt8) (size : UInt64) (s : SqliteState) (blob : List UInt8) :
    Prop where
  nonempty : size ≠ 0
  fits : size.toNat < 2 ^ 63
  allocated : nextFault s = none
  runs : nextFault (takeFault s) = none
  bytes : ∃ bytes, E.blobRead cell (toInt size) 0 = .ok bytes ∧
    blob = bytes ++ List.replicate (size.toNat - bytes.length) 0

theorem bytesRead_iff {cell blob : List UInt8} {size : UInt64} {s : SqliteState} :
    BytesRead E cell size s blob ↔ size ≠ 0 ∧ ¬ NoBuffer size s ∧
      ∃ bytes, answer (fun _ => E.blobRead cell (toInt size) 0) (takeFault s) = .ok bytes ∧
        blob = bytes ++ List.replicate (size.toNat - bytes.length) 0 := by
  simp only [answer_eq_ok]
  constructor
  · rintro ⟨hsize, hfits, halloc, hruns, bytes, hbytes, rfl⟩
    refine ⟨hsize, ?_, bytes, ⟨hruns, hbytes⟩, rfl⟩
    rintro ⟨-, hlarge | hfault⟩
    · omega
    · exact hfault halloc
  · rintro ⟨hsize, hbuffer, bytes, ⟨hruns, hbytes⟩, rfl⟩
    refine ⟨hsize, ?_, ?_, hruns, bytes, hbytes, rfl⟩
    · by_contra hlarge
      exact hbuffer ⟨hsize, Or.inl (by omega)⟩
    · by_contra hfault
      exact hbuffer ⟨hsize, Or.inr hfault⟩

/-- How `Read` ends: with no size, with no buffer, with a call that fails, or with the bytes. -/
inductive ReadEnd (cell : List UInt8) (size : UInt64) (offset : Int) (s : SqliteState) :
    EStateM.Result Exception SqliteState (List UInt8) → Prop
  | refused {what : Str} : size = 0 → ReadEnd cell size offset s (.error (.runtimeError what) s)
  | noBuffer {e : Exception} {s' : SqliteState} : NoBuffer size s → e.escapes = true →
      ReadEnd cell size offset s (.error e s')
  | failed {what : Str} {s' : SqliteState} : ¬ NoBuffer size s →
      (∀ bytes, answer (fun _ => E.blobRead cell (toInt size) offset) (takeFault s) ≠ .ok bytes) →
      ReadEnd cell size offset s (.error (.runtimeError what) s')
  | read {bytes : List UInt8} : size ≠ 0 → ¬ NoBuffer size s →
      answer (fun _ => E.blobRead cell (toInt size) offset) (takeFault s) = .ok bytes →
      ReadEnd cell size offset s
        (.ok (bytes ++ List.replicate (size.toNat - bytes.length) 0) (takeFault (takeFault s)))

theorem read_ends (cell : List UInt8) (size : UInt64) {offset : Int} (hoffset : 0 ≤ offset)
    (s : SqliteState) :
    ReadEnd E cell size offset s ((SqliteBlob.read E cell size offset).run s) := by
  unfold SqliteBlob.read
  by_cases hsize : size = 0
  · simp only [if_pos hsize]
    exact .refused hsize
  by_cases hhuge : 2 ^ 63 ≤ size.toNat
  · simp only [if_neg hsize, if_neg (Int.not_lt.mpr hoffset), if_pos hhuge]
    exact .noBuffer ⟨hsize, Or.inl hhuge⟩ rfl
  simp only [if_neg hsize, if_neg (Int.not_lt.mpr hoffset), if_neg hhuge]
  rw [bind_ok (call_answer _ s)]
  cases halloc : nextFault s with
  | some what =>
    rw [answer_of_some halloc]
    exact .noBuffer ⟨hsize, Or.inr (by rw [halloc]; exact Option.some_ne_none _)⟩ rfl
  | none =>
    have hbuffer : ¬ NoBuffer size s := by
      rintro ⟨-, hlarge | hfault⟩
      · exact hhuge hlarge
      · exact hfault halloc
    rw [answer_of_none halloc]
    simp only
    rw [bind_ok (call_answer _ _)]
    cases hread : answer (fun _ => E.blobRead cell (toInt size) offset) (takeFault s) with
    | error what => exact .failed hbuffer fun bytes hok => nomatch hread.symm.trans hok
    | ok bytes => exact .read hsize hbuffer hread

theorem escapes_read_iff {cell : List UInt8} {size : UInt64} {s : SqliteState} :
    Escapes (SqliteBlob.read E cell size 0) s ↔ NoBuffer size s := by
  have hends := read_ends E cell size (Int.le_refl 0) s
  unfold Escapes
  generalize (SqliteBlob.read E cell size 0).run s = r at hends
  cases hends with
  | refused hsize =>
    exact iff_of_false (by rintro ⟨e, s', ⟨⟩, ⟨⟩⟩) fun h => h.1 hsize
  | noBuffer hbuffer he => exact iff_of_true ⟨_, _, rfl, he⟩ hbuffer
  | failed hbuffer _ => exact iff_of_false (by rintro ⟨e, s', ⟨⟩, ⟨⟩⟩) hbuffer
  | read _ hbuffer _ => exact iff_of_false (by rintro ⟨e, s', ⟨⟩, -⟩) hbuffer

theorem read_ok_iff {cell blob : List UInt8} {size : UInt64} {s : SqliteState} :
    (∃ s', (SqliteBlob.read E cell size 0).run s = .ok blob s') ↔ BytesRead E cell size s blob := by
  have hends := read_ends E cell size (Int.le_refl 0) s
  rw [bytesRead_iff]
  generalize (SqliteBlob.read E cell size 0).run s = r at hends
  cases hends with
  | refused hsize => exact iff_of_false nofun fun h => h.1 hsize
  | noBuffer hbuffer _ => exact iff_of_false nofun fun h => h.2.1 hbuffer
  | failed _ hnone =>
    refine iff_of_false nofun ?_
    rintro ⟨-, -, bytes, hbytes, -⟩
    exact hnone bytes hbytes
  | read hsize hbuffer hread =>
    constructor
    · rintro ⟨s', ⟨⟩⟩
      exact ⟨hsize, hbuffer, _, hread, rfl⟩
    · rintro ⟨-, -, bytes, hbytes, rfl⟩
      obtain rfl := Except.ok.inj (hread.symm.trans hbytes)
      exact ⟨_, rfl⟩

/-- The class registered under the key takes the dimensions, and its `Assign` ends in an exception
that is not caught. -/
def AssignEscapes (registry : ResourceLoader.Registry) (key : Str) (numbers : RowNumbers)
    (blob : List UInt8) : Prop :=
  ∃ c, registry key = some c ∧ (c.construct.N = 0 ∨ c.construct.N = numbers.m) ∧
    (c.construct.M = 0 ∨ c.construct.M = numbers.n) ∧
    Escapes (c.assign blob) { c.construct with N := numbers.m, M := numbers.n }

theorem escapes_fillResource_iff (numbers : RowNumbers) (blob : List UInt8) (c : ResourceClass) :
    Escapes (ResourceLoader.fillResource numbers blob c) c.construct ↔
      (c.construct.N = 0 ∨ c.construct.N = numbers.m) ∧
      (c.construct.M = 0 ∨ c.construct.M = numbers.n) ∧
      Escapes (c.assign blob) { c.construct with N := numbers.m, M := numbers.n } := by
  by_cases hN : c.construct.N = 0 ∨ c.construct.N = numbers.m
  · have hrow := IResource.setRowSize_eq hN
    by_cases hM : c.construct.M = 0 ∨ c.construct.M = numbers.n
    · have hcolumn : IResource.setColumnSize numbers.n { c.construct with N := numbers.m } =
          .ok { c.construct with N := numbers.m, M := numbers.n } := IResource.setColumnSize_eq hM
      unfold Escapes ResourceLoader.fillResource
      rw [bind_ok (EStateM.run_get _), bind_ok (lift_ok hrow _), bind_ok (EStateM.run_set _ _),
        bind_ok (EStateM.run_get _), bind_ok (lift_ok hcolumn _), bind_ok (EStateM.run_set _ _)]
      simp only [hN, hM, true_and]
    · have hcolumn : IResource.setColumnSize numbers.n { c.construct with N := numbers.m } =
          .error IResource.dimensionsChanged := IResource.setColumnSize_throws hM
      have hrun : (ResourceLoader.fillResource numbers blob c).run c.construct =
          .error IResource.dimensionsChanged { c.construct with N := numbers.m } := by
        unfold ResourceLoader.fillResource
        rw [bind_ok (EStateM.run_get _), bind_ok (lift_ok hrow _), bind_ok (EStateM.run_set _ _),
          bind_ok (EStateM.run_get _), bind_error (lift_error hcolumn _)]
      exact iff_of_false (not_escapes_of_runtimeError hrun) fun h => hM h.2.1
  · have hrun : (ResourceLoader.fillResource numbers blob c).run c.construct =
        .error IResource.dimensionsChanged c.construct := by
      unfold ResourceLoader.fillResource
      rw [bind_ok (EStateM.run_get _),
        bind_error (lift_error (IResource.setRowSize_throws hN) _)]
    exact iff_of_false (not_escapes_of_runtimeError hrun) fun h => hN h.1

/-- The end of `Load`, when the bytes are there. -/
theorem escapes_finish_iff {registry : ResourceLoader.Registry} {key : Str} (hkey : key ≠ [])
    (numbers : RowNumbers) (blob : List UInt8) (s : SqliteState) :
    Escapes (lift (ResourceLoader.generateResource registry key) >>= fun c =>
        match (ResourceLoader.fillResource numbers blob c).run c.construct with
        | .error e _ => (throw e : EStateM Exception SqliteState IResource)
        | .ok () resource => pure resource) s ↔
      AssignEscapes registry key numbers blob := by
  cases hc : registry key with
  | none =>
    have hgen : ResourceLoader.generateResource registry key =
        .error (.runtimeError "Key is not registered with the ResourceLoader".toList) := by
      simp only [ResourceLoader.generateResource, if_neg hkey, hc]
      rfl
    refine iff_of_false (not_escapes_of_runtimeError (bind_error (lift_error hgen s))) ?_
    rintro ⟨c, hc', -⟩
    rw [hc] at hc'
    cases hc'
  | some c =>
    have hgen : ResourceLoader.generateResource registry key = .ok c := by
      simp only [ResourceLoader.generateResource, if_neg hkey, hc]
      rfl
    have hassign : AssignEscapes registry key numbers blob ↔
        Escapes (ResourceLoader.fillResource numbers blob c) c.construct := by
      rw [escapes_fillResource_iff]
      constructor
      · rintro ⟨c', hc', h⟩
        rw [hc] at hc'
        cases hc'
        exact h
      · exact fun h => ⟨c, hc, h⟩
    rw [hassign]
    unfold Escapes
    rw [bind_ok (lift_ok hgen s)]
    cases hfill : (ResourceLoader.fillResource numbers blob c).run c.construct with
    | ok u resource => exact iff_of_false (by rintro ⟨e, s', ⟨⟩, -⟩) (by rintro ⟨e, s', ⟨⟩, -⟩)
    | error e resource =>
      constructor
      · rintro ⟨e', s', ⟨⟩, he⟩
        exact ⟨e, resource, rfl, he⟩
      · rintro ⟨e', s', ⟨⟩, he⟩
        exact ⟨e, s, rfl, he⟩

theorem escapes_loadBlob_iff {registry : ResourceLoader.Registry} {key : Str} (hkey : key ≠ [])
    (numbers : RowNumbers) (s : SqliteState) :
    Escapes (loadBlob E registry key numbers) s ↔
      ∃ cell, CellOpened E numbers.iRow s cell ∧ (NoBuffer numbers.size (takeFault s) ∨
        ∃ blob, BytesRead E cell numbers.size (takeFault s) blob ∧
          AssignEscapes registry key numbers blob) := by
  unfold loadBlob
  rw [escapes_bind_iff]
  simp only [not_escapes_openBlob, false_or, openBlob_ok_iff]
  constructor
  · rintro ⟨cell, s', ⟨hcell, rfl⟩, h⟩
    rw [escapes_bind_iff, escapes_read_iff] at h
    rcases h with hbuffer | ⟨blob, s', hread, hfinish⟩
    · exact ⟨cell, hcell, Or.inl hbuffer⟩
    · exact ⟨cell, hcell, Or.inr ⟨blob, (read_ok_iff E).mp ⟨s', hread⟩,
        (escapes_finish_iff hkey numbers blob s').mp hfinish⟩⟩
  · rintro ⟨cell, hcell, h⟩
    refine ⟨cell, _, ⟨hcell, rfl⟩, ?_⟩
    rw [escapes_bind_iff, escapes_read_iff]
    rcases h with hbuffer | ⟨blob, hblob, hassign⟩
    · exact Or.inl hbuffer
    · obtain ⟨s', hread⟩ := (read_ok_iff E).mpr hblob
      exact Or.inr ⟨blob, s', hread, (escapes_finish_iff hkey numbers blob s').mpr hassign⟩

/-- `Load` of the key ends in an exception that is not caught: a row cannot be read, or there is no
buffer for the bytes of the last row, or the `Assign` of the class ends so. -/
inductive LoadEscapes (registry : ResourceLoader.Registry) (key : Str) (s : SqliteState) :
    Prop where
  | row {t : Option Table} {rows : List (List Str)} {row : List Str} :
      s.sqlite.failedOpen = false → nextFault s = none →
      E.exec (cString (Sql.selectKey key)) (table s) = (t, .ok rows) → row ∈ rows → ¬ ReadableRow row → LoadEscapes registry key s
  | buffer {numbers : RowNumbers} {s' : SqliteState} {cell : List UInt8} :
      RowsRead E (Sql.selectKey key) s numbers s' → CellOpened E numbers.iRow s' cell →
      NoBuffer numbers.size (takeFault s') → LoadEscapes registry key s
  | assign {numbers : RowNumbers} {s' : SqliteState} {cell blob : List UInt8} :
      RowsRead E (Sql.selectKey key) s numbers s' → CellOpened E numbers.iRow s' cell →
      BytesRead E cell numbers.size (takeFault s') blob →
      AssignEscapes registry key numbers blob → LoadEscapes registry key s

theorem escapes_load_iff {registry : ResourceLoader.Registry} {key : Str} (hkey : key ≠ [])
    {s : SqliteState} (hopen : s.sqlite.isOpen = true) :
    Escapes (ResourceLoader.load E registry key) s ↔ LoadEscapes E registry key s := by
  have hload : Escapes (ResourceLoader.load E registry key) s ↔
      Escapes (execute E (Sql.selectKey key) pKeyHandler ⟨-1, 0, 0, 0⟩ >>=
        loadBlob E registry key) s := by
    unfold Escapes
    rw [load_eq E registry hkey hopen]
  rw [hload, escapes_bind_iff, escapes_execute_iff E hopen]
  simp only [execute_rows_ok E hopen, escapes_loadBlob_iff E hkey]
  constructor
  · rintro (⟨hfile, hfault, t, rows, row, hexec, hmem, hbad⟩ |
      ⟨numbers, s', hrows, cell, hcell, hbuffer | ⟨blob, hblob, hassign⟩⟩)
    · exact LoadEscapes.row hfile hfault hexec hmem hbad
    · exact LoadEscapes.buffer hrows hcell hbuffer
    · exact LoadEscapes.assign hrows hcell hblob hassign
  · rintro (⟨hfile, hfault, hexec, hmem, hbad⟩ | ⟨hrows, hcell, hbuffer⟩ |
      ⟨hrows, hcell, hblob, hassign⟩)
    · exact Or.inl ⟨hfile, hfault, _, _, _, hexec, hmem, hbad⟩
    · exact Or.inr ⟨_, _, hrows, _, hcell, Or.inl hbuffer⟩
    · exact Or.inr ⟨_, _, hrows, _, hcell, Or.inr ⟨_, hblob, hassign⟩⟩

/-! ### What loading leaves of the connection -/

/-- `Load` leaves the `Sqlite` object alone unless the exception of an unreadable row goes through
it; then the database is still open. -/
theorem load_sqlite (registry : ResourceLoader.Registry) {key : Str} (hkey : key ≠ [])
    {s : SqliteState} (hopen : s.sqlite.isOpen = true) :
    (finalState ((ResourceLoader.load E registry key).run s)).sqlite = s.sqlite ∨
      ∃ s', (ResourceLoader.load E registry key).run s = .error stoiFailed s' ∧
        s'.sqlite.isOpen = true := by
  rw [load_eq E registry hkey hopen]
  by_cases hfailed : s.sqlite.failedOpen = true
  · rw [bind_error (execute_failedOpen E hfailed)]
    exact Or.inl rfl
  have hfile := Bool.eq_false_of_not_eq_true hfailed
  cases hfault : nextFault s with
  | some what =>
    obtain ⟨text, hrun⟩ := execute_fails E hopen hfile hfault
    rw [bind_error hrun]
    exact Or.inl rfl
  | none =>
    have hrun := @execute_runs E _ (Sql.selectKey key) pKeyHandler ⟨-1, 0, 0, 0⟩ s hopen hfile
      hfault
    rcases hexec : E.exec (cString (Sql.selectKey key)) (table s) with ⟨t, what | rows⟩
    · rw [hexec] at hrun
      rw [bind_error hrun]
      exact Or.inl (sqlite_setTable t (takeFault s))
    · rw [hexec] at hrun
      rcases foldlM_pKeyHandler_ends rows ⟨-1, 0, 0, 0⟩ with ⟨-, numbers, hfold⟩ | ⟨-, hfold⟩
      · simp only [hfold] at hrun
        rw [bind_ok hrun, keeps_sqlite_loadBlob E registry key numbers]
        exact Or.inl (sqlite_setTable t (takeFault s))
      · simp only [hfold] at hrun
        rw [bind_error hrun]
        refine Or.inr ⟨_, rfl, ?_⟩
        rw [isOpen_addStatements, sqlite_setTable]
        exact hopen

theorem load_keeps_sqlite {registry : ResourceLoader.Registry} {key : Str} (hkey : key ≠ [])
    {s : SqliteState} (hopen : s.sqlite.isOpen = true)
    {r : EStateM.Result Exception SqliteState IResource}
    (h : (ResourceLoader.load E registry key).run s = r) (hr : ∀ s', r ≠ .error stoiFailed s') :
    (finalState r).sqlite = s.sqlite := by
  subst h
  rcases load_sqlite E registry hkey hopen with hsame | ⟨s', hrun, -⟩
  · exact hsame
  · exact absurd hrun (hr s')

/-- After `Load` the database is open as before. -/
theorem load_keeps_open {registry : ResourceLoader.Registry} {key : Str} (hkey : key ≠ [])
    {s : SqliteState} (hopen : s.sqlite.isOpen = true) :
    (finalState ((ResourceLoader.load E registry key).run s)).sqlite.isOpen = true := by
  rcases load_sqlite E registry hkey hopen with hsame | ⟨s', hrun, hstill⟩
  · rw [hsame]
    exact hopen
  · rw [hrun]
    exact hstill

end Azulejo
