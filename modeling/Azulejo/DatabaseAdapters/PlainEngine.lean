import Azulejo.DatabaseAdapters.Sqlite

/-!
# An engine for plain statements

`plainEngine` understands just the four statements of the adapters, with keys that hold no
quote, and answers anything else with a syntax error. It meets every law of `SqliteEngine`.
-/

namespace Azulejo

open DecimalText

namespace PlainEngine

/-- What follows `pre` at the beginning of the text. -/
def stripPrefix? (pre s : Str) : Option Str :=
  if pre.isPrefixOf s then some (s.drop pre.length) else none

@[simp] theorem stripPrefix?_append (pre s : Str) : stripPrefix? pre (pre ++ s) = some s := by
  have h : pre.isPrefixOf (pre ++ s) = true := by simp
  simp [stripPrefix?, h]

/-- A text literal whose opening quote has been read, and the text from the next quote on. -/
def literal (s : Str) : Str × Str := (s.takeWhile (· != '\''), s.dropWhile (· != '\''))

theorem literal_append {key rest : Str} (h : '\'' ∉ key) :
    literal (key ++ '\'' :: rest) = (key, '\'' :: rest) := by
  have hall : ∀ c ∈ key, (c != '\'') = true := by
    intro c hc
    have hne : c ≠ '\'' := by
      rintro rfl
      exact h hc
    simp [hne]
  unfold literal
  rw [List.takeWhile_append_of_pos hall, List.dropWhile_append_of_pos hall]
  simp

/-- A decimal number, and the text after its digits. -/
def number? (s : Str) : Option (Nat × Str) :=
  (scanNat s).map fun n => (n, s.dropWhile Char.isDigit)

theorem number?_ofNat (n : Nat) {rest : Str} (h : ∀ c ∈ rest.head?, c.isDigit = false) :
    number? (ofNat n ++ rest) = some (n, rest) := by
  have hdrop : (ofNat n ++ rest).dropWhile Char.isDigit = rest := by
    have hall : ∀ c ∈ ofNat n, c.isDigit = true := fun c hc => isDigit_of_mem_ofNat hc
    rw [List.dropWhile_append_of_pos hall]
    cases rest with
    | nil => rfl
    | cons c rest => simp [h c rfl]
  unfold number?
  rw [scanNat_ofNat_append h, hdrop]
  rfl

/-- The key and the three numbers of an `INSERT`. -/
def insert? (sql : Str) : Option (Str × Nat × Nat × Nat) := do
  let s ← stripPrefix? Sql.insertPrefix sql
  let s₁ ← stripPrefix? "',".toList (literal s).2
  let (m, s₂) ← number? s₁
  let s₃ ← stripPrefix? ",".toList s₂
  let (n, s₄) ← number? s₃
  let s₅ ← stripPrefix? ",".toList s₄
  let (sizeOf, s₆) ← number? s₅
  if s₆ = ",?);".toList then some ((literal s).1, m, n, sizeOf) else none

/-- The key of a statement that consists of `pre`, a literal and its end. -/
def keyStatement? (pre sql : Str) : Option Str :=
  (stripPrefix? pre sql).bind fun s =>
    if (literal s).2 = "';".toList then some (literal s).1 else none

theorem keyStatement?_append {pre key : Str} (h : '\'' ∉ key) :
    keyStatement? pre (pre ++ key ++ "';".toList) = some key := by
  have hlit : literal (key ++ "';".toList) = (key, "';".toList) := literal_append h
  unfold keyStatement?
  rw [List.append_assoc, stripPrefix?_append, Option.bind_some, hlit]
  simp

theorem insert?_insertRow {key : Str} (h : '\'' ∉ key) (m n sizeOf : UInt64) :
    insert? (Sql.insertRow key m n sizeOf) = some (key, m.toNat, n.toNat, sizeOf.toNat) := by
  have hcomma : ∀ (s : Str), ∀ c ∈ (",".toList ++ s).head?, c.isDigit = false := by
    intro s c hc
    cases hc
    rfl
  have hend : ∀ c ∈ (",?);".toList).head?, c.isDigit = false := by
    intro c hc
    cases hc
    rfl
  have hlit : ∀ rest : Str, literal (key ++ ("',".toList ++ rest)) = (key, "',".toList ++ rest) :=
    fun rest => literal_append h
  unfold insert? Sql.insertRow
  simp only [List.append_assoc, stripPrefix?_append, Option.bind_eq_bind, Option.bind_some, hlit,
    number?_ofNat _ (hcomma _), number?_ofNat _ hend]
  rfl

def syntaxError : Str := "syntax error".toList
def noTable : Str := "no such table: resources".toList

def exec (sql : Str) : Option Table → Option Table × Except Str (List (List Str))
  | t =>
    if sql = Sql.createTable then (some (t.getD Table.empty), .ok [])
    else match t with
      | none => (none, .error noTable)
      | some t =>
        match keyStatement? Sql.deletePrefix sql, keyStatement? Sql.selectPrefix sql with
        | some key, _ => (some (t.delete key), .ok [])
        | none, some key => (some t, .ok ((t.ofKey key).map Row.columns))
        | none, none => (some t, .error syntaxError)

def step (sql : Str) (data : List UInt8) : Option Table → Option Table × Except Str Unit
  | none => (none, .error noTable)
  | some t =>
    match insert? sql with
    | some (key, m, n, sizeOf) =>
      if t.lastRow + 1 < 2 ^ 63 then (some (t.insert key m n sizeOf data), .ok ())
      else (some t, .error "database or disk is full".toList)
    | none => (some t, .error syntaxError)

def prepare (sql : Str) : Option Table → Except Str Unit
  | none => .error noTable
  | some _ => if (insert? sql).isSome then .ok () else .error syntaxError

def bindBlob (data : List UInt8) (n : Int) : Except Str (List UInt8) :=
  if 0 ≤ n ∧ n ≤ data.length then .ok (data.take n.toNat) else .error "bad parameter".toList

def blobOpen (table column : Str) (i : Int) (t : Option Table) : Except Str (List UInt8) :=
  if table = Sql.tableName ∧ column = Sql.dataKey then
    match t.bind fun t => t.rowById i with
    | some r => .ok r.data
    | none => .error "no such rowid".toList
  else .error noTable

def blobRead (data : List UInt8) (n offset : Int) : Except Str (List UInt8) :=
  if 0 ≤ n ∧ 0 ≤ offset ∧ offset + n ≤ data.length then
    .ok ((data.drop offset.toNat).take n.toNat)
  else .error "SQL logic error".toList

def blobWrite (cell buff : List UInt8) (n offset : Int) : Except Str (List UInt8) :=
  if 0 ≤ n ∧ 0 ≤ offset ∧ offset + n ≤ cell.length then
    .ok (cell.take offset.toNat ++ buff.take n.toNat ++ cell.drop (offset + n).toNat)
  else .error "SQL logic error".toList

theorem head_createTable : Sql.createTable.head? = some 'C' := rfl

theorem deleteKey_ne_createTable (key : Str) : Sql.deleteKey key ≠ Sql.createTable := by
  have hhead : (Sql.deleteKey key).head? = some 'D' := rfl
  intro h
  rw [h, head_createTable] at hhead
  exact absurd hhead (by decide)

theorem selectKey_ne_createTable (key : Str) : Sql.selectKey key ≠ Sql.createTable := by
  have hhead : (Sql.selectKey key).head? = some 'S' := rfl
  intro h
  rw [h, head_createTable] at hhead
  exact absurd hhead (by decide)

end PlainEngine

open PlainEngine in
/-- The engine for the statements of the adapters. -/
def plainEngine : SqliteEngine where
  exec := exec
  prepare := prepare
  blank _ := false
  bindBlob _ := bindBlob
  step := step
  blobOpen := blobOpen
  blobRead := blobRead
  blobWrite := blobWrite
  lengthLimit := 2 ^ 31 - 1
  lengthLimit_largest := Nat.le_refl _
  exec_createTable t := by
    cases t <;> simp [exec]
  exec_deleteKey key t h := by
    simp only [exec, deleteKey_ne_createTable, if_false]
    rw [show keyStatement? Sql.deletePrefix (Sql.deleteKey key) = some key from
      keyStatement?_append h.1]
  exec_selectKey key t h := by
    simp only [exec, selectKey_ne_createTable, if_false]
    rw [show keyStatement? Sql.deletePrefix (Sql.selectKey key) = none from rfl,
      show keyStatement? Sql.selectPrefix (Sql.selectKey key) = some key from
      keyStatement?_append h.1]
  prepare_insertRow key m n sizeOf t h := by
    simp only [prepare, insert?_insertRow h.1, Option.isSome_some, if_true]
  prepare_insertRow_none key m n sizeOf _ := ⟨noTable, rfl⟩
  step_insertRow key m n sizeOf data t h _ _ _ hrow := by
    simp only [step, insert?_insertRow h.1, if_pos hrow]
  step_insertRow_full key m n sizeOf data t h hrow := by
    simp only [step, insert?_insertRow h.1, if_neg (Nat.not_lt.mpr hrow)]
    exact ⟨_, _, rfl⟩
  bindBlob_insertRow key m n sizeOf data k _ hk hlimit := by
    simp [bindBlob, hk]
  bindBlob_exact sql data k bound hk h := by
    simp only [bindBlob, Nat.cast_nonneg, Nat.cast_le, hk, and_self, if_true,
      Int.toNat_natCast] at h
    exact (Except.ok.inj h).symm
  bindBlob_blank _ _ _ h := nomatch h
  blobOpen_some t i r hr := by
    simp [blobOpen, hr]
  blobOpen_none t i hi := ⟨_, by simp only [blobOpen, and_self, if_true, Option.bind_some, hi]; rfl⟩
  blobRead_inside cell n offset h := by
    have hinside : (0 : Int) ≤ n ∧ (0 : Int) ≤ offset ∧ (offset : Int) + n ≤ cell.length := by omega
    simp only [blobRead, if_pos hinside, Int.toNat_natCast]
  blobRead_outside cell n offset h := by
    have houtside : ¬ (0 ≤ n ∧ 0 ≤ offset ∧ offset + n ≤ cell.length) := by omega
    exact ⟨_, by simp only [blobRead, if_neg houtside]; rfl⟩
  blobWrite_inside cell buff n offset _ h := by
    have hinside : (0 : Int) ≤ n ∧ (0 : Int) ≤ offset ∧ (offset : Int) + n ≤ cell.length := by omega
    have hend : ((offset : Int) + n).toNat = offset + n := by omega
    simp only [blobWrite, if_pos hinside, Int.toNat_natCast, hend]
  blobWrite_outside cell buff n offset h := by
    have houtside : ¬ (0 ≤ n ∧ 0 ≤ offset ∧ offset + n ≤ cell.length) := by omega
    exact ⟨_, by simp only [blobWrite, if_neg houtside]; rfl⟩

end Azulejo
