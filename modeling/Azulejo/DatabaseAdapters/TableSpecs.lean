import Azulejo.DatabaseAdapters.FaultSpecs
import Azulejo.DatabaseAdapters.Specs

/-!
# What the calls leave of the tables

Each operation of the resource adapters changes the tables in one way at most, and not at all when
it throws, whichever calls of the library fail.
-/

namespace Azulejo

open Stateful Sqlite SqliteBlob

variable {E : SqliteEngine} {crc : List UInt8 → UInt32}

/-- SQLite answers a statement on a table that is not there with an error. -/
structure RefusesMissingTable (E : SqliteEngine) : Prop where
  deleteKey : ∀ key, PlainLiteral key → ∃ what, E.exec (Sql.deleteKey key) none = (none, .error what)
  selectKey : ∀ key, PlainLiteral key → ∃ what, E.exec (Sql.selectKey key) none = (none, .error what)

/-- The table that is there is stored again. -/
theorem setTable_table (s : SqliteState) : (setTable (table s) s).disk.tables = s.disk.tables := by
  obtain ⟨⟨tables, faults⟩, ⟨db, dbPath⟩⟩ := s
  rcases db with _ | ⟨_ | file, statements⟩
  · rfl
  · rfl
  · exact Function.update_eq_self file tables

/-! ## Opening and closing -/

theorem openResourceDatabase_tables (alreadyOpen : Str) (p : Path) (s : SqliteState) :
    (finalState ((openResourceDatabase E alreadyOpen p).run s)).disk.tables = s.disk.tables ∨
      (finalState ((openResourceDatabase E alreadyOpen p).run s)).disk.tables =
        Function.update s.disk.tables p (some ((s.disk.tables p).getD Table.empty)) := by
  cases hclosed : s.sqlite.isOpen with
  | true =>
    unfold openResourceDatabase
    rw [bind_ok (EStateM.run_get s)]
    simp only [hclosed, if_true]
    exact Or.inl rfl
  | false =>
    by_cases hp : p = []
    · subst hp
      obtain ⟨text, hrun⟩ := openResourceDatabase_empty E hclosed alreadyOpen
      rw [hrun]
      exact Or.inl rfl
    cases hopen : nextFault s with
    | some what =>
      obtain ⟨text, hrun⟩ := openResourceDatabase_fails E hclosed hp hopen alreadyOpen
      rw [hrun]
      exact Or.inl rfl
    | none =>
      cases hcreate : nextFault (takeFault s) with
      | some what =>
        obtain ⟨text, hrun⟩ := openResourceDatabase_left_open E hclosed hp hopen hcreate alreadyOpen
        rw [hrun]
        exact Or.inl rfl
      | none =>
        rw [openResourceDatabase_succeeds E hclosed hp hopen hcreate]
        exact Or.inr rfl

theorem closeDatabase_tables (s : SqliteState) :
    (finalState (closeDatabase.run s)).disk.tables = s.disk.tables := by
  unfold closeDatabase
  rw [bind_ok (EStateM.run_get s)]
  cases hopen : s.sqlite.isOpen with
  | false => rfl
  | true =>
    simp only [if_true]
    unfold close
    rw [bind_ok (EStateM.run_get s)]
    split
    · rfl
    · split
      · rfl
      · rfl

/-! ## Persisting -/

/-- `InsertBlob` has changed the tables when it throws only if the statement did and failed. -/
theorem insertBlob_error_tables {sql : Str} {data : Option (List UInt8)} {size : UInt64}
    {s s' : SqliteState} {e : Exception} (h : (insertBlob E sql data size).run s = .error e s') :
    s'.disk.tables = s.disk.tables ∨
      size ≠ 0 ∧ ∃ bytes bound what, data = some bytes ∧
        E.prepare (cString sql) (table s) = .ok () ∧
        (E.step (cString sql) bound (table s)).2 = .error what := by
  unfold insertBlob at h
  cases data with
  | none =>
    cases h
    exact Or.inl rfl
  | some bytes =>
    by_cases hsize : size = 0
    · simp only [if_pos hsize] at h
      cases h
      exact Or.inl rfl
    simp only [if_neg hsize] at h
    rw [bind_ok (EStateM.run_get s)] at h
    cases hopen : s.sqlite.isOpen with
    | false =>
      simp only [hopen, Bool.not_false, if_true] at h
      cases h
      exact Or.inl rfl
    | true =>
      simp only [hopen, Bool.not_true, Bool.false_eq_true, if_false] at h
      rw [bind_ok (call_answer _ s)] at h
      cases hprepare : answer (prepareV2 E sql) s with
      | error what =>
        rw [hprepare] at h
        cases h
        exact Or.inl rfl
      | ok u =>
        rw [hprepare] at h
        have hprepared := ((prepareV2_eq_ok E).mp (answer_eq_ok.mp hprepare).2).2
        cases hblank : E.blank (cString sql) with
        | true =>
          simp only [hblank, Bool.not_true, Bool.false_eq_true, if_false] at h
          rw [bind_ok (call_answer _ _)] at h
          cases hanswer : answer (fun _ => E.bindBlob (cString sql) bytes (toInt size))
              (takeFault s) with
          | error what =>
            rw [hanswer] at h
            cases h
            exact Or.inl rfl
          | ok bound =>
            cases hblank.symm.trans (not_blank_of_bindBlob E (answer_eq_ok.mp hanswer).2)
        | false =>
          simp only [hblank, Bool.not_false, if_true] at h
          rw [bind_ok (EStateM.run_modify _ _), bind_ok (call_answer _ _)] at h
          have htables : (addStatements (· + 1) (takeFault s)).disk.tables = s.disk.tables := rfl
          cases hanswer : answer (fun _ => E.bindBlob (cString sql) bytes (toInt size))
              (addStatements (· + 1) (takeFault s)) with
          | error what =>
            rw [hanswer] at h
            cases h
            exact Or.inl htables
          | ok bound =>
            simp only [hanswer] at h
            rw [bind_ok (call_answer _ _)] at h
            cases hstep : answer (fun s => .ok (E.step (cString sql) bound (table s)))
                (takeFault (addStatements (· + 1) (takeFault s))) with
            | error what =>
              rw [hstep] at h
              cases h
              exact Or.inl htables
            | ok outcome =>
              obtain ⟨t, stepped⟩ := outcome
              simp only [hstep] at h
              rw [bind_ok (EStateM.run_modify _ _)] at h
              cases stepped with
              | ok u => cases h
              | error what =>
                have hpair := Except.ok.inj (answer_eq_ok.mp hstep).2
                rw [table_takeFault, table_takeFault, table_addStatements, table_takeFault] at hpair
                exact Or.inr ⟨hsize, bytes, bound, what, rfl, hprepared, by rw [hpair]⟩

/-- A `Persist` that throws has changed no table, as long as the numbers of its row are `INTEGER`s
and there is an id for another row. -/
theorem persist_error_tables {key : Str} (hkey : PlainLiteral key) {s s' : PersistState}
    (hfits : s.resource.size ≠ 0 → s.resource.data ≠ none → s.resource.M.toNat < 2 ^ 63 ∧
      s.resource.N.toNat < 2 ^ 63 ∧ s.resource.elementSize.toNat < 2 ^ 63)
    (hrow : ∀ t, table s.database = some t → t.lastRow + 1 < 2 ^ 63) {e : Exception}
    (h : (ResourcePersister.persist E crc key).run s = .error e s') :
    s'.database.disk.tables = s.database.disk.tables := by
  by_cases hne : key = []
  · unfold ResourcePersister.persist at h
    rw [if_pos hne] at h
    cases h
    rfl
  by_cases hsame : s.resource.checksum crc = s.resource.checkSum
  · rw [persist_unchanged E crc hne hsame] at h
    cases h
  cases hopen : s.database.sqlite.isOpen with
  | false =>
    obtain ⟨err, hthrows⟩ := persist_closed E crc hne hsame hopen
    rw [hthrows] at h
    cases h
    rfl
  | true =>
    rw [persist_open E crc hne hsame hopen, zoom_run] at h
    cases hinsert : (insertBlob E (Sql.insertRow key s.resource.M s.resource.N
        s.resource.elementSize) s.resource.data s.resource.size).run s.database with
    | ok u database =>
      simp only [hinsert] at h
      cases h
    | error err database =>
      simp only [hinsert] at h
      cases h
      rcases insertBlob_error_tables hinsert with hkeeps |
        ⟨hsize, bytes, bound, what, hdata, hprepare, hstep⟩
      · exact hkeeps
      · obtain ⟨hM, hN, helementSize⟩ := hfits hsize (by rw [hdata]; exact Option.some_ne_none _)
        obtain ⟨t, ht⟩ := of_prepare_insertRow E hkey hprepare
        rw [cString_insertRow hkey, ht,
          E.step_insertRow key _ _ _ bound t hkey hM hN helementSize (hrow t ht)] at hstep
        cases hstep

/-- How a deletion ends: with an exception and the tables as they were, or with the rows of the key
deleted from the table of the open file. -/
theorem unpersist_ends (hE : RefusesMissingTable E) {key : Str} (hkey : PlainLiteral key)
    (s : SqliteState) :
    (∃ e s', (ResourcePersister.unpersist E key).run s = .error e s' ∧
        s'.disk.tables = s.disk.tables) ∨
      ∃ s' file statements t, (ResourcePersister.unpersist E key).run s = .ok () s' ∧
        s.sqlite.db = some ⟨some file, statements⟩ ∧ s.disk.tables file = some t ∧
        s'.disk.tables = Function.update s.disk.tables file (some (t.delete key)) := by
  unfold ResourcePersister.unpersist
  by_cases hne : key = []
  · rw [if_pos hne]
    exact Or.inl ⟨_, _, rfl, rfl⟩
  rw [if_neg hne, bind_ok (EStateM.run_get s)]
  cases hopen : s.sqlite.isOpen with
  | false =>
    simp only [Bool.not_false, if_true]
    exact Or.inl ⟨_, _, rfl, rfl⟩
  | true =>
    simp only [Bool.not_true, Bool.false_eq_true, if_false]
    by_cases hfailed : s.sqlite.failedOpen = true
    · rw [execute_failedOpen E hfailed]
      exact Or.inl ⟨_, _, rfl, rfl⟩
    have hfile := Bool.eq_false_of_not_eq_true hfailed
    cases hfault : nextFault s with
    | some what =>
      obtain ⟨text, hrun⟩ := execute_fails E hopen hfile hfault
      rw [hrun]
      exact Or.inl ⟨_, _, rfl, rfl⟩
    | none =>
      rw [execute_runs E hopen hfile hfault, cString_deleteKey hkey]
      cases htable : table s with
      | none =>
        obtain ⟨what, hmissing⟩ := hE.deleteKey key hkey
        rw [hmissing]
        refine Or.inl ⟨_, _, rfl, ?_⟩
        rw [← htable]
        exact setTable_table (takeFault s)
      | some t =>
        obtain ⟨file, statements, hdb, ht⟩ := of_table_eq_some htable
        rw [E.exec_deleteKey key t hkey]
        exact Or.inr ⟨_, file, statements, t, rfl, hdb, ht,
          @tables_setTable (takeFault s) file statements hdb _⟩

/-! ## Loading -/

theorem load_tables (hE : RefusesMissingTable E) (registry : ResourceLoader.Registry) {key : Str}
    (hkey : PlainLiteral key) (s : SqliteState) :
    (finalState ((ResourceLoader.load E registry key).run s)).disk.tables = s.disk.tables := by
  by_cases hne : key = []
  · unfold ResourceLoader.load
    rw [if_pos hne]
    rfl
  cases hopen : s.sqlite.isOpen with
  | false =>
    unfold ResourceLoader.load
    rw [if_neg hne, bind_ok (EStateM.run_get s)]
    simp only [hopen, Bool.not_false, if_true]
    rfl
  | true =>
    rw [load_eq E registry hne hopen]
    have hexecute : (finalState ((execute E (Sql.selectKey key) pKeyHandler
        ⟨-1, 0, 0, 0⟩).run s)).disk.tables = s.disk.tables := by
      by_cases hfailed : s.sqlite.failedOpen = true
      · rw [execute_failedOpen E hfailed]
        rfl
      have hfile := Bool.eq_false_of_not_eq_true hfailed
      cases hfault : nextFault s with
      | some what =>
        obtain ⟨text, hrun⟩ := execute_fails E hopen hfile hfault
        rw [hrun]
        rfl
      | none =>
        rw [execute_runs E hopen hfile hfault, cString_selectKey hkey]
        have hsame : ∀ t, t = table s → (setTable t (takeFault s)).disk.tables = s.disk.tables := by
          rintro t rfl
          exact setTable_table (takeFault s)
        cases htable : table s with
        | none =>
          obtain ⟨what, hmissing⟩ := hE.selectKey key hkey
          rw [hmissing]
          exact hsame none htable.symm
        | some t =>
          rw [E.exec_selectKey key t hkey]
          simp only
          split
          · exact hsame (some t) htable.symm
          · exact hsame (some t) htable.symm
    have hblob := fun numbers => @keeps_loadBlob E _ (fun s => s.disk.tables) (fun _ => rfl)
      registry key numbers
    cases hrun : (execute E (Sql.selectKey key) pKeyHandler ⟨-1, 0, 0, 0⟩).run s with
    | error e s' =>
      rw [hrun] at hexecute
      rw [bind_error hrun]
      exact hexecute
    | ok numbers s' =>
      rw [hrun] at hexecute
      rw [bind_ok hrun]
      exact (hblob numbers s').trans hexecute

end Azulejo
