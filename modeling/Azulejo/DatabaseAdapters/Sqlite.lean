import Azulejo.Basic
import Azulejo.Lib.DecimalText
import Mathlib.Logic.Function.Basic

/-!
# SQLite, as the adapters use it

A database file holds at most the one table `resources`. What SQLite does with a statement
text, a bound blob and an open blob handle is a parameter, `SqliteEngine`, with its
documented behaviour on the statements the adapters compose from keys without quotes.
`Sqlite` and `SqliteBlob` are translated from the source over these calls; each call may
also fail for a reason outside the program, which the list of faults decides.
-/

namespace Azulejo

open Stateful

/-! ## The table `resources` -/

/-- A row of `resources`. -/
structure Row where
  row : Nat
  resourceKey : Str
  m : Nat
  n : Nat
  sizeOf : Nat
  data : List UInt8

/-- The table with its rows in `rowid` order. `lastRow` is the largest id ever given out,
below which `AUTOINCREMENT` never gives another. -/
structure Table where
  rows : List Row
  lastRow : Nat
  increasing : rows.Pairwise fun r s => r.row < s.row
  bounded : ∀ r ∈ rows, r.row ≤ lastRow

namespace Table

def empty : Table where
  rows := []
  lastRow := 0
  increasing := List.Pairwise.nil
  bounded := by simp

/-- `INSERT` with the next id. -/
def insert (t : Table) (key : Str) (m n sizeOf : Nat) (data : List UInt8) : Table where
  rows := t.rows ++ [⟨t.lastRow + 1, key, m, n, sizeOf, data⟩]
  lastRow := t.lastRow + 1
  increasing := by
    rw [List.pairwise_append]
    refine ⟨t.increasing, by simp, ?_⟩
    intro r hr s hs
    rw [List.mem_singleton.mp hs]
    exact Nat.lt_succ_of_le (t.bounded r hr)
  bounded := by
    intro r hr
    rcases List.mem_append.mp hr with hr | hr
    · exact Nat.le_succ_of_le (t.bounded r hr)
    · rw [List.mem_singleton.mp hr]

/-- `DELETE ... WHERE resource_key = key`. -/
def delete (t : Table) (key : Str) : Table where
  rows := t.rows.filter fun r => r.resourceKey != key
  lastRow := t.lastRow
  increasing := t.increasing.filter _
  bounded := fun r hr => t.bounded r (List.mem_of_mem_filter hr)

/-- The rows of a key, in `rowid` order. -/
def ofKey (t : Table) (key : Str) : List Row := t.rows.filter fun r => r.resourceKey == key

/-- The row with an id. -/
def rowById (t : Table) (i : Int) : Option Row := t.rows.find? fun r => (r.row : Int) == i

end Table

/-! ## Statement texts -/

namespace Sql

def tableName : Str := "resources".toList
def dataKey : Str := "data".toList

/-- What `OpenDatabase` of the resource adapters executes. -/
def createTable : Str :=
  "CREATE TABLE IF NOT EXISTS resources (row INTEGER PRIMARY KEY AUTOINCREMENT, ".toList ++
    "resource_key TEXT NOT NULL, m INTEGER, n INTEGER, sizeof INTEGER, data BLOB);".toList ++
    " PRAGMA auto_vacuum = FULL;".toList

def insertPrefix : Str :=
  "INSERT INTO resources (resource_key,m,n,sizeof,data) VALUES ('".toList
def deletePrefix : Str := "DELETE FROM resources WHERE resource_key = '".toList
def selectPrefix : Str :=
  "SELECT resource_key, row, m, n, sizeof FROM resources WHERE resource_key = '".toList

def insertRow (key : Str) (m n sizeOf : UInt64) : Str :=
  insertPrefix ++ key ++ "',".toList ++ DecimalText.ofNat m.toNat ++ ",".toList ++
    DecimalText.ofNat n.toNat ++ ",".toList ++ DecimalText.ofNat sizeOf.toNat ++ ",?);".toList

def deleteKey (key : Str) : Str := deletePrefix ++ key ++ "';".toList

def selectKey (key : Str) : Str := selectPrefix ++ key ++ "';".toList

end Sql

/-- A key that is its own text literal: it holds no quote, and no NUL that would end the
statement. -/
def PlainLiteral (key : Str) : Prop := '\'' ∉ key ∧ '\x00' ∉ key

/-- The text of a row's columns, as a row callback of `Sql.selectKey` gets it. -/
def Row.columns (r : Row) : List Str :=
  [r.resourceKey, DecimalText.ofNat r.row, DecimalText.ofNat r.m, DecimalText.ofNat r.n,
    DecimalText.ofNat r.sizeOf]

/-- The calls of the SQLite library, each with its result or its error text. A statement
runs on the table of the file, if it has one. `exec` returns the result rows; `prepare`
says whether the text is accepted, also when it is `blank` and there is no statement in it;
`bindBlob` gives the bytes bound for a byte count that is an `int`; `step` runs a prepared
statement with the bytes bound to its one parameter; `blobOpen` opens a cell, `blobRead` reads a
count of bytes at an offset, and `blobWrite` gives the cell with a count of bytes written there.
`lengthLimit` is the most bytes the library takes for a blob, `SQLITE_MAX_LENGTH`, here at the
largest value it can be built with. -/
structure SqliteEngine where
  exec : Str → Option Table → Option Table × Except Str (List (List Str))
  prepare : Str → Option Table → Except Str Unit
  blank : Str → Bool
  bindBlob : Str → List UInt8 → Int → Except Str (List UInt8)
  step : Str → List UInt8 → Option Table → Option Table × Except Str Unit
  blobOpen : Str → Str → Int → Option Table → Except Str (List UInt8)
  blobRead : List UInt8 → Int → Int → Except Str (List UInt8)
  blobWrite : List UInt8 → List UInt8 → Int → Int → Except Str (List UInt8)
  lengthLimit : Nat
  lengthLimit_largest : 2 ^ 31 - 1 ≤ lengthLimit
  exec_createTable : ∀ t, exec Sql.createTable t = (some (t.getD Table.empty), .ok [])
  exec_deleteKey : ∀ key (t : Table), PlainLiteral key →
    exec (Sql.deleteKey key) (some t) = (some (t.delete key), .ok [])
  exec_selectKey : ∀ key (t : Table), PlainLiteral key →
    exec (Sql.selectKey key) (some t) = (some t, .ok ((t.ofKey key).map Row.columns))
  prepare_insertRow : ∀ key m n sizeOf (t : Table), PlainLiteral key →
    prepare (Sql.insertRow key m n sizeOf) (some t) = .ok ()
  prepare_insertRow_none : ∀ key m n sizeOf, PlainLiteral key →
    ∃ what, prepare (Sql.insertRow key m n sizeOf) none = .error what
  step_insertRow : ∀ key (m n sizeOf : UInt64) data (t : Table), PlainLiteral key →
    m.toNat < 2 ^ 63 → n.toNat < 2 ^ 63 → sizeOf.toNat < 2 ^ 63 → t.lastRow + 1 < 2 ^ 63 →
    step (Sql.insertRow key m n sizeOf) data (some t) =
      (some (t.insert key m.toNat n.toNat sizeOf.toNat data), .ok ())
  step_insertRow_full : ∀ key (m n sizeOf : UInt64) data (t : Table), PlainLiteral key →
    2 ^ 63 ≤ t.lastRow + 1 →
    ∃ t' what, step (Sql.insertRow key m n sizeOf) data (some t) = (t', .error what)
  bindBlob_insertRow : ∀ key m n sizeOf data (k : Nat), PlainLiteral key → k ≤ data.length →
    k ≤ lengthLimit → bindBlob (Sql.insertRow key m n sizeOf) data k = .ok (data.take k)
  bindBlob_exact : ∀ sql data (k : Nat) bound, k ≤ data.length →
    bindBlob sql data k = .ok bound → bound = data.take k
  bindBlob_blank : ∀ sql data k, blank sql = true → ∃ what, bindBlob sql data k = .error what
  blobOpen_some : ∀ (t : Table) i r, t.rowById i = some r →
    blobOpen Sql.tableName Sql.dataKey i (some t) = .ok r.data
  blobOpen_none : ∀ (t : Table) i, t.rowById i = none →
    ∃ what, blobOpen Sql.tableName Sql.dataKey i (some t) = .error what
  blobRead_inside : ∀ cell (n offset : Nat), offset + n ≤ cell.length →
    blobRead cell n offset = .ok ((cell.drop offset).take n)
  blobRead_outside : ∀ cell (n offset : Int), n < 0 ∨ offset < 0 ∨ cell.length < offset + n →
    ∃ what, blobRead cell n offset = .error what
  blobWrite_inside : ∀ cell buff (n offset : Nat), n ≤ buff.length → offset + n ≤ cell.length →
    blobWrite cell buff n offset =
      .ok (cell.take offset ++ buff.take n ++ cell.drop (offset + n))
  blobWrite_outside : ∀ cell buff (n offset : Int),
    n < 0 ∨ offset < 0 ∨ cell.length < offset + n →
    ∃ what, blobWrite cell buff n offset = .error what

/-! ## Database files and connections -/

/-- The database files, and for the next calls of the library whether one fails although
nothing is wrong with it, with the error text. The allocation of a read buffer counts as a call.
A database is known by the text of its path; a path such as `:memory:`, which makes a new database
with each connection, is not spoken of. -/
structure Disk where
  tables : Path → Option Table
  faults : List (Option Str)

/-- A `sqlite3` object: the file it has open, and the statements prepared and not yet
finalized. -/
structure Connection where
  file : Option Path
  statements : Nat

/-- `Sqlite`: `db_`, which is null until a database is opened, and `dbPath_`. -/
structure Sqlite where
  db : Option Connection
  dbPath : Path

structure SqliteState where
  disk : Disk
  sqlite : Sqlite

namespace Sqlite

/-- A default constructed `Sqlite`. -/
def new : Sqlite := ⟨none, []⟩

/-- `IsOpen`. -/
def isOpen (s : Sqlite) : Bool := s.db.isSome

/-- The handle is that of a failed `sqlite3_open`: it is not null, and has no file. -/
def failedOpen (s : Sqlite) : Bool := s.db.any fun c => c.file.isNone

/-- A call of the library: its own result, unless it fails from outside. -/
def call {α : Type} (result : SqliteState → Except Str α) :
    EStateM Exception SqliteState (Except Str α) := fun s =>
  match s.disk.faults with
  | [] => .ok (result s) s
  | fault :: rest =>
    let s' := { s with disk := { s.disk with faults := rest } }
    match fault with
    | some what => .ok (.error what) s'
    | none => .ok (result s') s'

/-- The table of the connected file. -/
def table (s : SqliteState) : Option Table :=
  match s.sqlite.db with
  | some ⟨some file, _⟩ => s.disk.tables file
  | _ => none

def setTable (t : Option Table) (s : SqliteState) : SqliteState :=
  match s.sqlite.db with
  | some ⟨some file, _⟩ =>
    { s with disk := { s.disk with tables := Function.update s.disk.tables file t } }
  | _ => s

def setDb (db : Option Connection) (s : SqliteState) : SqliteState :=
  { s with sqlite := { s.sqlite with db := db } }

def addStatements (f : Nat → Nat) (s : SqliteState) : SqliteState :=
  setDb (s.sqlite.db.map fun c => { c with statements := f c.statements }) s

/-- The text of `SQLITE_NOMEM`. -/
def outOfMemory : Str := "out of memory".toList

/-- `Open`. A failed `sqlite3_open` leaves a handle that is not null, unless there was no memory
for one. -/
def openPath (dbPath : Path) : EStateM Exception SqliteState Unit := do
  if dbPath = [] then
    throw (.runtimeError "Could not create (open) SQLite3 DB from empty path".toList)
  match ← call fun _ => .ok () with
  | .error what => do
    modify (setDb (if what = outOfMemory then none else some ⟨none, 0⟩))
    throw (.runtimeError ("Could not create (open) SQLite3 DB at ".toList ++ dbPath))
  | .ok () => modify fun s => { s with sqlite := ⟨some ⟨some dbPath, 0⟩, dbPath⟩ }

/-- `Close`. `sqlite3_close` refuses while statements are not finalized. -/
def close : EStateM Exception SqliteState Unit := do
  let s ← get
  match s.sqlite.db with
  | none => throw (.runtimeError "Cannot close sqlite3 db because given db is nullptr".toList)
  | some c =>
    if c.statements ≠ 0 then
      throw (.runtimeError "Could not create (close) SQLite3 DB".toList)
    else modify (setDb none)

def couldNotExecute (sql what : Str) : Exception :=
  .runtimeError ("Sqlite could not execute command: '".toList ++ sql ++ "' due to: ".toList ++ what)

/-- `Execute`, the row callback changing a value `b`. An exception from the callback goes
through `sqlite3_exec`, which then never finalizes its statement. On the handle of a failed
`sqlite3_open` the library returns `SQLITE_MISUSE` before it sets the pointer to the error text,
and `Execute` builds a string from that pointer. -/
def execute {β : Type} (E : SqliteEngine) (sql : Str)
    (rowCallback : β → List Str → Except Exception β) (b : β) :
    EStateM Exception SqliteState β := do
  let s ← get
  if !s.sqlite.isOpen then
    throw (.runtimeError
      "Sqlite cannot execute command because database is not open".toList)
  if s.sqlite.failedOpen then
    throw .uninitializedPointer
  match ← call fun s => .ok (E.exec (cString sql) (table s)) with
  | .error what => throw (couldNotExecute sql what)
  | .ok (table', result) => do
    modify (setTable table')
    match result with
    | .error what => throw (couldNotExecute sql what)
    | .ok rows =>
      match rows.foldlM rowCallback b with
      | .ok b' => pure b'
      | .error e => do
        modify (addStatements (· + 1))
        throw e

end Sqlite

/-! ## Blobs -/

/-- `static_cast<int>` of a `size_t`. -/
def toInt (size : UInt64) : Int :=
  let low : Nat := size.toNat % 2 ^ 32
  if low < 2 ^ 31 then (low : Int) else (low : Int) - 2 ^ 32

namespace SqliteBlob

open Sqlite

/-- `sqlite3_prepare_v2`, which refuses the handle of a failed `sqlite3_open`. -/
def prepareV2 (E : SqliteEngine) (sql : Str) (s : SqliteState) : Except Str Unit :=
  if s.sqlite.failedOpen then .error "bad parameter or other API misuse".toList
  else E.prepare (cString sql) (table s)

/-- `SqliteBlob::InsertBlob`. A statement that was prepared is finalized only when it has
been stepped to its end. -/
def insertBlob (E : SqliteEngine) (sql : Str) (data : Option (List UInt8)) (size : UInt64) :
    EStateM Exception SqliteState Unit :=
  match data with
  | none => throw (.runtimeError
      "SqliteBlob could not insert blob because data pointer is nullptr".toList)
  | some bytes => do
    if size = 0 then
      throw (.runtimeError "SqliteBlob could not insert blob because data size is 0".toList)
    let s ← get
    if !s.sqlite.isOpen then
      throw (.runtimeError
        "SqliteBlob could not insert blob because data database is not open".toList)
    match ← call (prepareV2 E sql) with
    | .error what => throw (.runtimeError ("Sqlite prepare_v2 failed: ".toList ++ what))
    | .ok () => do
      if !E.blank (cString sql) then modify (addStatements (· + 1))
      match ← call fun _ => E.bindBlob (cString sql) bytes (toInt size) with
      | .error what => throw (.runtimeError ("Sqlite bind_blob failed: ".toList ++ what))
      | .ok bound =>
        match ← call fun s => .ok (E.step (cString sql) bound (table s)) with
        | .error what => throw (stepFailed what)
        | .ok (table', result) => do
          modify (setTable table')
          match result with
          | .error what => throw (stepFailed what)
          | .ok () => modify (addStatements (· - 1))
where
  stepFailed (what : Str) : Exception :=
    .runtimeError ("Sqlite sttement step execution failed: ".toList ++ what)

/-- `SqliteBlob::Open`: the bytes of the cell the handle gives access to. -/
def openBlob (E : SqliteEngine) (tableName columnName : Str) (iRow : Int) :
    EStateM Exception SqliteState (List UInt8) := do
  match ← call fun s => E.blobOpen tableName columnName iRow (table s) with
  | .ok cell => pure cell
  | .error _ => throw (.runtimeError ("Could not open SQLite3 blob at ".toList ++ tableName ++
      " col=".toList ++ columnName ++ " row=".toList ++ DecimalText.ofInt iRow))

/-- `SqliteBlob::Read` on an open handle. The buffer has `numBytes` bytes, of which the
library is asked for as many as an `int` holds. -/
def read (E : SqliteEngine) (cell : List UInt8) (numBytes : UInt64) (offset : Int) :
    EStateM Exception SqliteState (List UInt8) := do
  if numBytes = 0 then throw (.runtimeError "SqliteBlob cannot read 0 bytes".toList)
  if offset < 0 then throw (.runtimeError "SqliteBlob cannot read at negative offset".toList)
  if 2 ^ 63 ≤ numBytes.toNat then
    throw (.logicError "cannot create std::vector larger than max_size()".toList)
  match ← call fun _ => .ok () with
  | .error _ => throw (.exception "std::bad_alloc".toList)
  | .ok () => pure ()
  match ← call fun _ => E.blobRead cell (toInt numBytes) offset with
  | .ok bytes => pure (bytes ++ List.replicate (numBytes.toNat - bytes.length) 0)
  | .error _ => throw (.runtimeError ("Could not read ".toList ++
      DecimalText.ofNat numBytes.toNat ++ " from sqlite3 blob at offset=".toList ++
      DecimalText.ofInt offset))

/-- `SqliteBlob::Write` on an open handle: the cell afterwards. A null `buff` is `none`. -/
def write (E : SqliteEngine) (cell : List UInt8) (buff : Option (List UInt8)) (size : UInt64)
    (offset : Int) : EStateM Exception SqliteState (List UInt8) :=
  match buff with
  | none => throw (.runtimeError "SqliteBlob cannot write because buffer is nullptr".toList)
  | some bytes => do
    if size = 0 then
      throw (.runtimeError "SqliteBlob cannot write because buffer length is 0".toList)
    if offset < 0 then
      throw (.runtimeError "SqliteBlob cannot write because offset is negative".toList)
    match ← call fun _ => E.blobWrite cell bytes (toInt size) offset with
    | .ok cell' => pure cell'
    | .error _ => throw (.runtimeError ("Could not write ".toList ++
        DecimalText.ofNat size.toNat ++ " from sqlite3 blob at offset=".toList ++
        DecimalText.ofInt offset))

end SqliteBlob

end Azulejo
