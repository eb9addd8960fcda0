import Azulejo.DatabaseAdapters.FaultSpecs
import Azulejo.Properties.RetriedSave

/-!
# Statements that are never finalized

`InsertBlob` leaves by an exception when the binding or the step fails, before it finalizes the
statement it has prepared. The database can then not be closed any more.
-/

namespace Azulejo

open Stateful Sqlite SqliteBlob

variable (E : SqliteEngine)

/-- The statements of a database that are prepared and not finalized. -/
def openStatements (s : SqliteState) : Nat := (s.sqlite.db.map Connection.statements).getD 0

/-- After `InsertBlob`, returned or thrown, there are the statements there were before, so that a
database without any can be closed. -/
def FinalizesAll (sql : Str) (data : Option (List UInt8)) (size : UInt64) (s : SqliteState) :
    Prop :=
  let s' := finalState ((insertBlob E sql data size).run s)
  openStatements s' = openStatements s ∧
    (s.sqlite.isOpen = true → openStatements s = 0 → ∃ s'', close.run s' = .ok () s'')

/-! ## Counting statements -/

theorem openStatements_addStatements {s : SqliteState} (h : s.sqlite.isOpen = true) (f : Nat → Nat) :
    openStatements (addStatements f s) = f (openStatements s) := by
  obtain ⟨connection, hdb⟩ := Option.isSome_iff_exists.mp h
  simp only [openStatements, addStatements, setDb, hdb, Option.map_some, Option.getD_some]

/-- A database without statements can be closed. -/
theorem close_of_no_statements {s : SqliteState} (h : s.sqlite.isOpen = true)
    (hnone : openStatements s = 0) : ∃ s', close.run s = .ok () s' := by
  obtain ⟨connection, hdb⟩ := Option.isSome_iff_exists.mp h
  have hzero : connection.statements = 0 := by
    rwa [openStatements, hdb] at hnone
  unfold close
  rw [bind_ok (EStateM.run_get s)]
  simp only [hdb, hzero]
  exact ⟨_, rfl⟩

/-! ## How `InsertBlob` leaves the statements -/

/-- A call that prepares no statement leaves the `Sqlite` object alone. -/
theorem sqlite_of_not_prepares {sql : Str} {data : Option (List UInt8)} {size : UInt64}
    {s : SqliteState} (h : ¬ Prepares E sql data size s) :
    (finalState ((insertBlob E sql data size).run s)).sqlite = s.sqlite := by
  have hends := insertBlob_ends E sql data size s
  generalize (insertBlob E sql data size).run s = r at hends ⊢
  cases hends with
  | refused _ hsame => exact hsame
  | failed hprepares _ _ => exact absurd hprepares h
  | inserted hinserts _ _ => exact absurd hinserts.prepares h

/-- A statement that was prepared is still there when the call throws. -/
theorem openStatements_of_error {sql : Str} {data : Option (List UInt8)} {size : UInt64}
    {s s' : SqliteState} {err : Exception} (h : Prepares E sql data size s)
    (hrun : (insertBlob E sql data size).run s = .error err s') :
    openStatements s' = openStatements s + 1 := by
  have hends := insertBlob_ends E sql data size s
  rw [hrun] at hends
  cases hends with
  | refused hnot _ => exact absurd h hnot
  | failed _ _ hsqlite =>
    rw [openStatements, hsqlite]
    exact openStatements_addStatements h.opened _

theorem finalizesAll_of_sqlite {sql : Str} {data : Option (List UInt8)} {size : UInt64}
    {s : SqliteState}
    (h : (finalState ((insertBlob E sql data size).run s)).sqlite = s.sqlite) :
    FinalizesAll E sql data size s := by
  have hsame : openStatements (finalState ((insertBlob E sql data size).run s)) =
      openStatements s := by
    rw [openStatements, h, openStatements]
  refine ⟨hsame, fun hopen hnone => ?_⟩
  apply close_of_no_statements
  · rwa [h]
  · rwa [hsame]

/-- **When an insertion leaves no statement behind.** For every text, data and size, from every
state and with every answer of the library: no statement is prepared, or the insertion runs to its
end. -/
theorem finalizesAll_iff (sql : Str) (data : Option (List UInt8)) (size : UInt64)
    (s : SqliteState) :
    FinalizesAll E sql data size s ↔ (Prepares E sql data size s → Inserts E sql data size s) := by
  constructor
  · intro h hprepares
    by_contra hinserts
    cases hrun : (insertBlob E sql data size).run s with
    | ok u s' =>
      exact hinserts ((insertBlob_returns_iff E sql data size s).mp ⟨s', hrun⟩)
    | error err s' =>
      have hleft := openStatements_of_error E hprepares hrun
      have hsame := h.1
      rw [hrun] at hsame
      change openStatements s' = openStatements s at hsame
      omega
  · intro h
    apply finalizesAll_of_sqlite
    by_cases hprepares : Prepares E sql data size s
    · obtain ⟨s', hrun⟩ := (insertBlob_returns_iff E sql data size s).mpr (h hprepares)
      obtain ⟨_, _, _, bytes, bound, _, _, _, _, rfl⟩ := (insertBlob_eq_ok E).mp hrun
      rw [hrun]
      exact sqlite_inserted E sql bound s
    · exact sqlite_of_not_prepares E hprepares

/-- The step fails, for instance because the disk is full. -/
theorem failed_step_leaks :
    ¬ FinalizesAll plainEngine (Sql.insertRow ['a'] 1 1 1) (some [7]) 1
      ⟨⟨fun _ => some Table.empty, [none, none, some "database or disk is full".toList]⟩,
        ⟨some ⟨some ['d'], 0⟩, ['d']⟩⟩ := by
  intro h
  have hsame : (1 : Nat) = 0 := h.1
  cases hsame

end Azulejo
