import Mathlib.Data.List.Basic
import Mathlib.Tactic.Common

/-!
# The lexical rules of SQL text

A lexer for SQL that takes a text character by character. A quoted token ends at a quote that
is not doubled, and a doubled one stands for itself (`escape`). What a lexer has emitted it
never takes back (`tokens_run`), so the first token after an opening quote is known from the
text alone (`escape_of_lex`); the converse is `run_escape`.

Two simplifications make no token end elsewhere: an operator of several characters comes as
its characters, and a blob literal as a word and a text literal.
-/

namespace SqlText

/-- Keywords, identifiers and numbers are words; a text literal is `quoted` with an
apostrophe. -/
inductive Token where
  | word (w : List Char)
  | quoted (quote : Char) (value : List Char)
  | bracketed (name : List Char)
  | symbol (c : Char)
  deriving DecidableEq

/-- What the lexer is in the middle of; `closing` has read a quote that may be doubled yet. -/
inductive Mode where
  | blank
  | word (w : List Char)
  | quoted (quote : Char) (value : List Char)
  | closing (quote : Char) (value : List Char)
  | bracketed (name : List Char)
  | dash
  | lineComment
  | slash
  | comment
  | commentStar
  deriving DecidableEq

structure Lexer where
  tokens : List Token
  mode : Mode
  deriving DecidableEq

def isSpace (c : Char) : Bool := c = ' ' || c = '\t' || c = '\n' || c = '\r' || c = '\x0c'

def isWordChar (c : Char) : Bool := c.isAlphanum || c = '_' || c = '$' || 0x80 ≤ c.toNat

def isQuote (c : Char) : Bool := c = '\'' || c = '"' || c.toNat = 0x60

/-- A character outside every token. -/
def start (tokens : List Token) (c : Char) : Lexer :=
  if isSpace c then ⟨tokens, .blank⟩
  else if isWordChar c then ⟨tokens, .word [c]⟩
  else if isQuote c then ⟨tokens, .quoted c []⟩
  else if c = '[' then ⟨tokens, .bracketed []⟩
  else if c = '-' then ⟨tokens, .dash⟩
  else if c = '/' then ⟨tokens, .slash⟩
  else ⟨tokens ++ [.symbol c], .blank⟩

def step (l : Lexer) (c : Char) : Lexer :=
  match l.mode with
  | .blank => start l.tokens c
  | .word w =>
    if isWordChar c then ⟨l.tokens, .word (w ++ [c])⟩ else start (l.tokens ++ [.word w]) c
  | .quoted quote value =>
    if c = quote then ⟨l.tokens, .closing quote value⟩ else ⟨l.tokens, .quoted quote (value ++ [c])⟩
  | .closing quote value =>
    if c = quote then ⟨l.tokens, .quoted quote (value ++ [c])⟩
    else start (l.tokens ++ [.quoted quote value]) c
  | .bracketed name =>
    if c = ']' then ⟨l.tokens ++ [.bracketed name], .blank⟩
    else ⟨l.tokens, .bracketed (name ++ [c])⟩
  | .dash => if c = '-' then ⟨l.tokens, .lineComment⟩ else start (l.tokens ++ [.symbol '-']) c
  | .lineComment => if c = '\n' then ⟨l.tokens, .blank⟩ else l
  | .slash => if c = '*' then ⟨l.tokens, .comment⟩ else start (l.tokens ++ [.symbol '/']) c
  | .comment => if c = '*' then ⟨l.tokens, .commentStar⟩ else l
  | .commentStar =>
    if c = '/' then ⟨l.tokens, .blank⟩
    else if c = '*' then l else ⟨l.tokens, .comment⟩

def run (l : Lexer) (text : List Char) : Lexer := text.foldl step l

/-- The tokens at the end of the text; a quoted token must be closed. -/
def finish (l : Lexer) : Option (List Token) :=
  match l.mode with
  | .blank | .lineComment | .comment | .commentStar => some l.tokens
  | .word w => some (l.tokens ++ [.word w])
  | .quoted _ _ | .bracketed _ => none
  | .closing quote value => some (l.tokens ++ [.quoted quote value])
  | .dash => some (l.tokens ++ [.symbol '-'])
  | .slash => some (l.tokens ++ [.symbol '/'])

/-- The tokens of a text. -/
def lex (text : List Char) : Option (List Token) := finish (run ⟨[], .blank⟩ text)

theorem run_append (l : Lexer) (s t : List Char) : run l (s ++ t) = run (run l s) t :=
  List.foldl_append

/-! ## What has been emitted stays -/

theorem tokens_start (ts : List Token) (c : Char) : ts <+: (start ts c).tokens := by
  unfold start
  split_ifs
  case neg => exact List.prefix_append ts _
  all_goals exact List.prefix_rfl

theorem tokens_step (l : Lexer) (c : Char) : l.tokens <+: (step l c).tokens := by
  obtain ⟨ts, mode⟩ := l
  cases mode
  case blank => exact tokens_start ts c
  all_goals
    simp only [step]
    split_ifs
  all_goals first
    | exact List.prefix_rfl
    | exact tokens_start ts c
    | exact List.prefix_append ts _
    | exact (List.prefix_append ts _).trans (tokens_start _ c)

theorem tokens_run (l : Lexer) (text : List Char) : l.tokens <+: (run l text).tokens := by
  induction text generalizing l with
  | nil => exact List.prefix_rfl
  | cons c text ih => exact (tokens_step l c).trans (ih (step l c))

theorem tokens_finish {l : Lexer} {ts : List Token} (h : finish l = some ts) : l.tokens <+: ts := by
  unfold finish at h
  cases hmode : l.mode <;> rw [hmode] at h <;> cases h
  all_goals first
    | exact List.prefix_rfl
    | exact List.prefix_append l.tokens _

/-! ## Quoted tokens -/

/-- The text with every quote doubled. -/
def escape (quote : Char) : List Char → List Char
  | [] => []
  | c :: value => if c = quote then c :: c :: escape quote value else c :: escape quote value

theorem escape_eq_self {quote : Char} {value : List Char} (h : quote ∉ value) :
    escape quote value = value := by
  induction value with
  | nil => rfl
  | cons c value ih =>
    rw [List.mem_cons, not_or] at h
    rw [escape, if_neg (Ne.symm h.1), ih h.2]

theorem mem_escape {quote c : Char} {value : List Char} : c ∈ escape quote value ↔ c ∈ value := by
  induction value with
  | nil => rfl
  | cons d value ih =>
    unfold escape
    split_ifs <;> simp [ih]

theorem count_escape (quote : Char) (value : List Char) :
    (escape quote value).count quote = 2 * value.count quote := by
  induction value with
  | nil => rfl
  | cons c value ih =>
    unfold escape
    by_cases hc : c = quote
    · rw [if_pos hc, hc, List.count_cons_self, List.count_cons_self, List.count_cons_self, ih]
      omega
    · rw [if_neg hc, List.count_cons_of_ne hc, List.count_cons_of_ne hc, ih]

section

variable (ts : List Token) (value text : List Char) {quote c : Char}

theorem run_quoted_quote :
    run ⟨ts, .quoted quote value⟩ (quote :: text) = run ⟨ts, .closing quote value⟩ text := by
  simp [run, step]

theorem run_quoted_of_ne (hc : c ≠ quote) :
    run ⟨ts, .quoted quote value⟩ (c :: text) = run ⟨ts, .quoted quote (value ++ [c])⟩ text := by
  simp [run, step, hc]

theorem run_closing_quote :
    run ⟨ts, .closing quote value⟩ (quote :: text) =
      run ⟨ts, .quoted quote (value ++ [quote])⟩ text := by
  simp [run, step]

theorem run_closing_of_ne (hc : c ≠ quote) :
    run ⟨ts, .closing quote value⟩ (c :: text) =
      run (start (ts ++ [.quoted quote value]) c) text := by
  simp [run, step, hc]

end

/-- A doubled text is read back as it was. -/
theorem run_escape (quote : Char) (ts : List Token) (pre value : List Char) :
    run ⟨ts, .quoted quote pre⟩ (escape quote value) = ⟨ts, .quoted quote (pre ++ value)⟩ := by
  induction value generalizing pre with
  | nil => rw [List.append_nil]; rfl
  | cons c value ih =>
    have hpre : pre ++ c :: value = (pre ++ [c]) ++ value := by simp
    by_cases hc : c = quote
    · subst hc
      rw [escape, if_pos rfl, run_quoted_quote, run_closing_quote, ih, hpre]
    · rw [escape, if_neg hc, run_quoted_of_ne _ _ _ hc, ih, hpre]

/-! ## Words -/

theorem run_word (ts : List Token) {cs : List Char} (h : ∀ c ∈ cs, isWordChar c = true) :
    ∀ w, run ⟨ts, .word w⟩ cs = ⟨ts, .word (w ++ cs)⟩ := by
  induction cs with
  | nil => exact fun w => by rw [List.append_nil]; rfl
  | cons c cs ih =>
    intro w
    have hstep : run ⟨ts, .word w⟩ (c :: cs) = run ⟨ts, .word (w ++ [c])⟩ cs := by
      simp [run, step, h c (List.mem_cons_self ..)]
    rw [hstep, ih fun d hd => h d (List.mem_cons_of_mem c hd), List.append_assoc]
    rfl

theorem isSpace_of_isWordChar {c : Char} (h : isWordChar c = true) : isSpace c = false := by
  rw [← Bool.not_eq_true]
  intro hspace
  simp only [isSpace, Bool.or_eq_true, decide_eq_true_eq] at hspace
  rcases hspace with (((rfl | rfl) | rfl) | rfl) | rfl <;> exact absurd h (by decide)

/-- A word, up to the character after it. -/
theorem run_blank_word (ts : List Token) {w : List Char} (hne : w ≠ [])
    (hw : ∀ c ∈ w, isWordChar c = true) {c : Char} (hc : isWordChar c = false)
    (rest : List Char) :
    run ⟨ts, .blank⟩ (w ++ c :: rest) = run (start (ts ++ [.word w]) c) rest := by
  cases w with
  | nil => exact absurd rfl hne
  | cons d w =>
    have hd := hw d (List.mem_cons_self ..)
    have hfirst : run ⟨ts, .blank⟩ (d :: (w ++ c :: rest)) =
        run ⟨ts, .word [d]⟩ (w ++ c :: rest) := by
      simp [run, step, start, isSpace_of_isWordChar hd, hd]
    rw [List.cons_append, hfirst, run_append,
      run_word ts (fun e he => hw e (List.mem_cons_of_mem d he))]
    simp [run, step, hc]

/-! ## Reading backwards -/

/-- Tokens that are all emitted when `t` comes next begin with `t`. -/
theorem next_token {l : Lexer} {ts post final : List Token} {t t' : Token}
    (htokens : ts ++ [t'] <+: l.tokens) (hfinish : finish l = some final)
    (hfinal : final = ts ++ t :: post) : t = t' := by
  have hprefix := htokens.trans (tokens_finish hfinish)
  rw [hfinal, List.prefix_append_right_inj, List.cons_prefix_cons] at hprefix
  exact hprefix.1.symm

/-- The token that an opening quote begins is the doubled text up to a quote. -/
theorem escape_of_finish {quote : Char} {ts post : List Token} {t : Token} (text : List Char) :
    ∀ pre,
      (finish (run ⟨ts, .quoted quote pre⟩ text) = some (ts ++ t :: post) →
        ∃ value rest, text = escape quote value ++ quote :: rest ∧
          t = .quoted quote (pre ++ value)) ∧
      (finish (run ⟨ts, .closing quote pre⟩ text) = some (ts ++ t :: post) →
        t = .quoted quote pre ∨ ∃ value rest, text = quote :: (escape quote value ++ quote :: rest) ∧
          t = .quoted quote (pre ++ quote :: value)) := by
  induction text with
  | nil =>
    intro pre
    refine ⟨(fun h => by cases h), fun h => Or.inl ?_⟩
    have htokens := List.append_cancel_left (Option.some.inj h)
    exact (List.cons.inj htokens).1.symm
  | cons c text ih =>
    intro pre
    by_cases hc : c = quote
    · rw [hc, run_quoted_quote, run_closing_quote]
      refine ⟨fun h => ?_, fun h => Or.inr ?_⟩
      · rcases (ih pre).2 h with ht | ⟨value, rest, htext, ht⟩
        · exact ⟨[], text, rfl, by rw [ht, List.append_nil]⟩
        · exact ⟨quote :: value, rest, by rw [htext]; simp [escape], ht⟩
      · obtain ⟨value, rest, htext, ht⟩ := (ih (pre ++ [quote])).1 h
        exact ⟨value, rest, by rw [htext], by rw [ht]; simp⟩
    · rw [run_quoted_of_ne _ _ _ hc, run_closing_of_ne _ _ _ hc]
      refine ⟨fun h => ?_, fun h => Or.inl ?_⟩
      · obtain ⟨value, rest, htext, ht⟩ := (ih (pre ++ [c])).1 h
        exact ⟨c :: value, rest, by rw [htext, escape, if_neg hc]; rfl, by rw [ht]; simp⟩
      · -- any other character ends the token
        have hprefix := (tokens_start (ts ++ [.quoted quote pre]) c).trans (tokens_run _ text)
        exact next_token hprefix h rfl

end SqlText
