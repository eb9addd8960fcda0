import Azulejo.DatabaseAdapters.Specs
import Azulejo.Lib.SqlText

/-!
# Keys in the statements composed from them

`Persist`, `Load` of the persister and `Load` of the loader put the key between two quotes as
it is, and SQLite reads the text up to its first NUL. The statement is then the intended one,
with the key as the value of its text literal, exactly for keys without a quote and without a
NUL.
-/

namespace Azulejo

open Sqlite SqlText

/-! ## The statements that are meant -/

/-- The token of a text literal. -/
def literal (value : Str) : Token := .quoted '\'' value

def word (w : String) : Token := .word w.toList

def number (n : UInt64) : Token := .word (DecimalText.ofNat n.toNat)

def beforeInserted : List Token :=
  [word "INSERT", word "INTO", word "resources", .symbol '(', word "resource_key", .symbol ',',
    word "m", .symbol ',', word "n", .symbol ',', word "sizeof", .symbol ',', word "data",
    .symbol ')', word "VALUES", .symbol '(']

def beforeDeleted : List Token :=
  [word "DELETE", word "FROM", word "resources", word "WHERE", word "resource_key", .symbol '=']

def beforeSelected : List Token :=
  [word "SELECT", word "resource_key", .symbol ',', word "row", .symbol ',', word "m", .symbol ',',
    word "n", .symbol ',', word "sizeof", word "FROM", word "resources", word "WHERE",
    word "resource_key", .symbol '=']

/-- `INSERT INTO resources (resource_key,m,n,sizeof,data) VALUES ('key',m,n,sizeOf,?);` -/
def insertTokens (key : Str) (m n sizeOf : UInt64) : List Token :=
  beforeInserted ++ literal key :: [.symbol ',', number m, .symbol ',', number n, .symbol ',',
    number sizeOf, .symbol ',', .symbol '?', .symbol ')', .symbol ';']

/-- `DELETE FROM resources WHERE resource_key = 'key';` -/
def deleteTokens (key : Str) : List Token := beforeDeleted ++ literal key :: [.symbol ';']

/-- `SELECT resource_key, row, m, n, sizeof FROM resources WHERE resource_key = 'key';` -/
def selectTokens (key : Str) : List Token := beforeSelected ++ literal key :: [.symbol ';']

/-! ## What comes before and after the key -/

theorem run_insertPrefix :
    run ⟨[], .blank⟩ Sql.insertPrefix = ⟨beforeInserted, .quoted '\'' []⟩ := by
  decide +kernel

theorem run_deletePrefix :
    run ⟨[], .blank⟩ Sql.deletePrefix = ⟨beforeDeleted, .quoted '\'' []⟩ := by
  decide +kernel

theorem run_selectPrefix :
    run ⟨[], .blank⟩ Sql.selectPrefix = ⟨beforeSelected, .quoted '\'' []⟩ := by
  decide +kernel

/-- What follows the key: the quote that closes the literal, and text without a quote that is
read as the given tokens. -/
structure Closes (rest : Str) (after : List Token) : Prop where
  noQuote : '\'' ∉ rest
  noNul : '\x00' ∉ rest
  tokens : ∀ ts value, finish (run ⟨ts, .closing '\'' value⟩ rest) =
    some (ts ++ literal value :: after)

theorem closes_semicolon : Closes ";".toList [.symbol ';'] where
  noQuote := by decide
  noNul := by decide
  tokens ts value := by
    show some (ts ++ [literal value] ++ [.symbol ';']) = _
    rw [List.append_assoc]
    rfl

theorem isWordChar_of_isDigit {c : Char} (h : c.isDigit = true) : isWordChar c = true := by
  simp [isWordChar, Char.isAlphanum, h]

theorem run_number (ts : List Token) (n : UInt64) {c : Char} (hc : isWordChar c = false)
    (rest : Str) :
    run ⟨ts, .blank⟩ (DecimalText.ofNat n.toNat ++ c :: rest) =
      run (start (ts ++ [number n]) c) rest :=
  run_blank_word ts (DecimalText.ofNat_ne_nil _)
    (fun _ hd => isWordChar_of_isDigit (DecimalText.isDigit_of_mem_ofNat hd)) hc rest

/-- The numbers of an insertion and its end. -/
def afterInserted (m n sizeOf : UInt64) : Str :=
  ",".toList ++ DecimalText.ofNat m.toNat ++ ",".toList ++ DecimalText.ofNat n.toNat ++
    ",".toList ++ DecimalText.ofNat sizeOf.toNat ++ ",?);".toList

theorem closes_numbers (m n sizeOf : UInt64) :
    Closes (afterInserted m n sizeOf) [.symbol ',', number m, .symbol ',', number n, .symbol ',',
      number sizeOf, .symbol ',', .symbol '?', .symbol ')', .symbol ';'] where
  noQuote := by
    have hdigits : ∀ k, '\'' ∉ DecimalText.ofNat k := fun k h =>
      absurd (DecimalText.isDigit_of_mem_ofNat h) (by decide)
    simp [afterInserted, hdigits]
  noNul := by
    simp [afterInserted, nul_not_mem_ofNat]
  tokens ts value := by
    have hcomma : isWordChar ',' = false := by decide
    have hrest : afterInserted m n sizeOf = ',' :: (DecimalText.ofNat m.toNat ++ ',' ::
        (DecimalText.ofNat n.toNat ++ ',' :: (DecimalText.ofNat sizeOf.toNat ++ ',' ::
          "?);".toList))) := by
      simp [afterInserted]
    have hstart : ∀ us, start us ',' = ⟨us ++ [.symbol ','], .blank⟩ := fun _ => rfl
    have hend : ∀ us, finish (run ⟨us, .blank⟩ "?);".toList) =
        some (us ++ [.symbol '?', .symbol ')', .symbol ';']) := by
      intro us
      show some (us ++ [.symbol '?'] ++ [.symbol ')'] ++ [.symbol ';']) = _
      simp
    rw [hrest, run_closing_of_ne _ _ _ (by decide), hstart, run_number _ m hcomma, hstart,
      run_number _ n hcomma, hstart, run_number _ sizeOf hcomma, hstart, hend]
    simp [literal]

/-! ## Statements and keys -/

/-- A statement composed from a key is read as the intended one exactly when the key is its own
text literal. -/
theorem lex_composed_iff {pre rest : Str} {before after : List Token}
    (hpre : run ⟨[], .blank⟩ pre = ⟨before, .quoted '\'' []⟩) (hnul : '\x00' ∉ pre)
    (hrest : Closes rest after) (key : Str) :
    lex (cString (pre ++ key ++ '\'' :: rest)) = some (before ++ literal key :: after) ↔
      PlainLiteral key := by
  have hlex : lex (cString (pre ++ key ++ '\'' :: rest)) =
      finish (run ⟨before, .quoted '\'' []⟩ (cString (key ++ '\'' :: rest))) := by
    unfold lex
    rw [List.append_assoc, cString_append hnul, run_append, hpre]
  rw [hlex]
  constructor
  · intro h
    obtain ⟨value, rest', hescape, hvalue⟩ := (escape_of_finish _ []).1 h
    obtain rfl : key = value := (Token.quoted.inj hvalue).2
    -- what was read is the key with its quotes doubled, so the key has no NUL
    have hkeyNul : '\x00' ∉ key := by
      intro hmem
      have hread : '\x00' ∈ cString (key ++ '\'' :: rest) := by
        rw [hescape]
        exact List.mem_append_left _ (mem_escape.mpr hmem)
      have hne := List.mem_takeWhile_imp hread
      simp at hne
    -- and the quotes in the text are those of the key and the closing one
    have hwhole : cString (key ++ '\'' :: rest) = key ++ '\'' :: rest := by
      apply cString_eq
      simp [hkeyNul, hrest.noNul]
    have hcount := congrArg (List.count '\'') (hwhole.symm.trans hescape)
    rw [List.count_append, List.count_append, List.count_cons_self, List.count_cons_self,
      count_escape, List.count_eq_zero.mpr hrest.noQuote] at hcount
    exact ⟨List.count_eq_zero.mp (by omega), hkeyNul⟩
  · rintro ⟨hquote, hkeyNul⟩
    have hwhole : cString (key ++ '\'' :: rest) = escape '\'' key ++ '\'' :: rest := by
      rw [escape_eq_self hquote]
      apply cString_eq
      simp [hkeyNul, hrest.noNul]
    rw [hwhole, run_append, run_escape, run_quoted_quote]
    exact hrest.tokens before key

theorem lex_deleteKey_iff (key : Str) :
    lex (cString (Sql.deleteKey key)) = some (deleteTokens key) ↔ PlainLiteral key :=
  lex_composed_iff run_deletePrefix nul_not_mem_deletePrefix closes_semicolon key

theorem lex_selectKey_iff (key : Str) :
    lex (cString (Sql.selectKey key)) = some (selectTokens key) ↔ PlainLiteral key :=
  lex_composed_iff run_selectPrefix nul_not_mem_selectPrefix closes_semicolon key

theorem insertRow_eq (key : Str) (m n sizeOf : UInt64) :
    Sql.insertRow key m n sizeOf =
      Sql.insertPrefix ++ key ++ '\'' :: afterInserted m n sizeOf := by
  simp [Sql.insertRow, afterInserted]

theorem lex_insertRow_iff (key : Str) (m n sizeOf : UInt64) :
    lex (cString (Sql.insertRow key m n sizeOf)) = some (insertTokens key m n sizeOf) ↔
      PlainLiteral key := by
  rw [insertRow_eq]
  exact lex_composed_iff run_insertPrefix nul_not_mem_insertPrefix (closes_numbers m n sizeOf) key

/-- The statements composed from the key are the intended ones, each a single statement with
the key as the value of its text literal; and what the library then does with a table touches
no row of another key, and inserts one row with this key. -/
structure KeptAsData (key : Str) : Prop where
  persist : ∀ m n sizeOf,
    lex (cString (Sql.insertRow key m n sizeOf)) = some (insertTokens key m n sizeOf)
  unpersist : lex (cString (Sql.deleteKey key)) = some (deleteTokens key)
  load : lex (cString (Sql.selectKey key)) = some (selectTokens key)
  inserts : ∀ (E : SqliteEngine) (m n sizeOf : UInt64) data (t : Table) t',
    m.toNat < 2 ^ 63 → n.toNat < 2 ^ 63 → sizeOf.toNat < 2 ^ 63 →
    E.step (cString (Sql.insertRow key m n sizeOf)) data (some t) = (t', .ok ()) →
    t' = some (t.insert key m.toNat n.toNat sizeOf.toNat data)
  deletes : ∀ (E : SqliteEngine) (t : Table), ∃ t',
    E.exec (cString (Sql.deleteKey key)) (some t) = (some t', .ok []) ∧
      ∀ other, t'.ofKey other = if other = key then [] else t.ofKey other
  selects : ∀ (E : SqliteEngine) (t : Table),
    E.exec (cString (Sql.selectKey key)) (some t) = (some t, .ok ((t.ofKey key).map Row.columns))

theorem ofKey_delete (t : Table) (key other : Str) :
    (t.delete key).ofKey other = if other = key then [] else t.ofKey other := by
  by_cases h : other = key
  · rw [if_pos h, h, Table.ofKey_delete_self]
  · rw [if_neg h, Table.ofKey_delete_ne t (Ne.symm h)]

/-- **Keys are data only without quotes.** For every key, the statements that `Persist` and the
two `Load`s compose keep it as data exactly when it holds no quote and no NUL. -/
theorem kept_as_data_iff (key : Str) : KeptAsData key ↔ PlainLiteral key := by
  constructor
  · intro h
    exact (lex_deleteKey_iff key).mp h.unpersist
  · intro h
    refine ⟨fun m n sizeOf => (lex_insertRow_iff key m n sizeOf).mpr h,
      (lex_deleteKey_iff key).mpr h, (lex_selectKey_iff key).mpr h, ?_, ?_, ?_⟩
    · intro E m n sizeOf data t t' hm hn hsizeOf hstep
      exact of_step_insertRow E h hm hn hsizeOf hstep
    · intro E t
      refine ⟨t.delete key, ?_, ofKey_delete t key⟩
      rw [cString_deleteKey h, E.exec_deleteKey key t h]
    · intro E t
      rw [cString_selectKey h, E.exec_selectKey key t h]

/-- A key that deletes every row: its quotes end the literal, and the rest is a condition. -/
theorem quotes_end_the_literal :
    lex (cString (Sql.deleteKey "x' OR 'a'='a".toList)) =
      some (beforeDeleted ++ [literal ['x'], word "OR", literal ['a'], .symbol '=', literal ['a'],
        .symbol ';']) ∧
    ¬ KeptAsData "x' OR 'a'='a".toList := by
  constructor
  · decide +kernel
  · intro h
    have hplain := (lex_deleteKey_iff _).mp h.unpersist
    exact hplain.1 (by decide)

end Azulejo
