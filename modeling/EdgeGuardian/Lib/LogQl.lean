import EdgeGuardian.Lib.GoString

/-!
# Log queries

The part of LogQL in which a query selects streams by their labels and then lines by what they
contain: one selector in braces, the labels of which are compared with string literals, followed by
line filters, each of which has a string literal too. There may be white space and comments between
the tokens. A query is read in two stages, as its tokens and from these as its syntax.

## Main definitions

* `LogQl.Token`, `LogQl.lex`: the tokens of a text.
* `LogQl.Query`, `LogQl.parse`: the syntax of a query, and how it is read from a text.

## Main results

* `LogQl.lex_eq`: the tokens of a text are its first token and those of what follows it.
* `LogQl.parse_eq_some_iff`: a text is read as a query if and only if its tokens are those of the
  query.
-/

namespace LogQl

open GoString

/-! ### Tokens -/

/-- How a label is compared with a string, or a line is searched for one. -/
inductive Comparison
  | equal
  | notEqual
  | regex
  | notRegex
deriving DecidableEq, Repr

inductive Token
  | openBrace
  | closeBrace
  | comma
  /-- `=` or `=~`. -/
  | eq (regex : Bool)
  /-- `!=` or `!~`, which compare labels and filter lines. -/
  | neq (regex : Bool)
  /-- `|=` or `|~`. -/
  | pipe (regex : Bool)
  | identifier (name : List Char)
  | string (bytes : List UInt8)
deriving DecidableEq, Repr

def isIdentifierStart (c : Char) : Bool := c.isAlpha || c = '_'

def isIdentifierPart (c : Char) : Bool := c.isAlphanum || c = '_'

/-- The first token of a text that does not begin with white space, and what follows it. -/
def nextToken : List Char → Option (Token × List Char)
  | '{' :: cs => some (.openBrace, cs)
  | '}' :: cs => some (.closeBrace, cs)
  | ',' :: cs => some (.comma, cs)
  | '=' :: '~' :: cs => some (.eq true, cs)
  | '=' :: cs => some (.eq false, cs)
  | '!' :: '~' :: cs => some (.neq true, cs)
  | '!' :: '=' :: cs => some (.neq false, cs)
  | '|' :: '~' :: cs => some (.pipe true, cs)
  | '|' :: '=' :: cs => some (.pipe false, cs)
  | '"' :: cs => (scan .plain cs).map fun p => (.string p.1, p.2)
  | c :: cs =>
    if isIdentifierStart c then
      some (.identifier (c :: cs.takeWhile isIdentifierPart), cs.dropWhile isIdentifierPart)
    else none
  | [] => none

/-- A text without the white space and the comments at its beginning, which go from a `#` to the end
of the line. -/
def skip (comment : Bool) : List Char → List Char
  | [] => []
  | c :: cs =>
    if comment then skip (c ≠ '\n') cs
    else if c.isWhitespace then skip false cs
    else if c = '#' then skip true cs
    else c :: cs

def skipBlank (cs : List Char) : List Char := skip false cs

/-- The tokens of a text, if there are fewer than `fuel`. -/
def lexFuel : ℕ → List Char → Option (List Token)
  | 0, _ => none
  | fuel + 1, cs =>
    if skipBlank cs = [] then some []
    else (nextToken (skipBlank cs)).bind fun p => (lexFuel fuel p.2).map (p.1 :: ·)

/-- The tokens of a text. -/
def lex (cs : List Char) : Option (List Token) := lexFuel (cs.length + 1) cs

variable {cs rest : List Char} {t : Token} {ts : List Token}

theorem length_lt_of_nextToken (h : nextToken cs = some (t, rest)) :
    rest.length < cs.length := by
  unfold nextToken at h
  split at h
  case h_10 =>
    obtain ⟨p, hscan, heq⟩ := Option.map_eq_some_iff.mp h
    cases heq
    exact (length_lt_of_scan hscan).trans (Nat.lt_succ_self _)
  case h_11 c tail _ _ _ _ _ _ _ _ _ _ =>
    split_ifs at h
    cases h
    exact Nat.lt_succ_of_le (List.dropWhile_sublist _).length_le
  all_goals (cases h <;> simp only [List.length_cons] <;> omega)

theorem length_skip_le {comment : Bool} : (skip comment cs).length ≤ cs.length := by
  fun_induction skip comment cs with
  | case1 => exact le_rfl
  | case2 c cs ih => exact ih.trans (Nat.le_succ _)
  | case3 comment c cs _ _ ih => exact ih.trans (Nat.le_succ _)
  | case4 comment cs _ _ ih => exact ih.trans (Nat.le_succ _)
  | case5 => exact le_rfl

theorem length_skipBlank_le : (skipBlank cs).length ≤ cs.length := length_skip_le

theorem lexFuel_eq_of_lt {n m : ℕ} (hn : cs.length < n) (hm : cs.length < m) :
    lexFuel n cs = lexFuel m cs := by
  induction n generalizing cs m with
  | zero => exact absurd hn (Nat.not_lt_zero _)
  | succ n ih =>
    rcases m with _ | m
    · exact absurd hm (Nat.not_lt_zero _)
    rw [lexFuel, lexFuel]
    by_cases hblank : skipBlank cs = []
    · rw [if_pos hblank, if_pos hblank]
    rw [if_neg hblank, if_neg hblank]
    refine Option.bind_congr fun p hp => ?_
    have hlt : p.2.length < (skipBlank cs).length := length_lt_of_nextToken (t := p.1) hp
    have hle : (skipBlank cs).length ≤ cs.length := length_skipBlank_le
    rw [ih (m := m) (by omega) (by omega)]

/-- **The tokens of a text** are its first token and those of what follows it. -/
theorem lex_eq (cs : List Char) : lex cs =
    if skipBlank cs = [] then some []
    else (nextToken (skipBlank cs)).bind fun p => (lex p.2).map (p.1 :: ·) := by
  rw [lex, lexFuel]
  refine if_congr Iff.rfl rfl (Option.bind_congr fun p hp => ?_)
  have hlt : p.2.length < (skipBlank cs).length := length_lt_of_nextToken (t := p.1) hp
  have hle : (skipBlank cs).length ≤ cs.length := length_skipBlank_le
  rw [lex, lexFuel_eq_of_lt (by omega) (Nat.lt_succ_self _)]

theorem lex_of_nextToken (h : nextToken (skipBlank cs) = some (t, rest)) :
    lex cs = (lex rest).map (t :: ·) := by
  have hne : skipBlank cs ≠ [] := by
    intro hnil
    rw [hnil] at h
    cases h
  rw [lex_eq, if_neg hne, h, Option.bind_some]

/-- The tokens of a text that begins with a literal. -/
theorem lex_quote_iff : lex ('"' :: cs) = some (t :: ts) ↔
    ∃ v rest, scan .plain cs = some (v, rest) ∧ t = .string v ∧ lex rest = some ts := by
  have hskip : skipBlank ('"' :: cs) = '"' :: cs := rfl
  rw [lex_eq, hskip, if_neg (List.cons_ne_nil _ _)]
  simp only [nextToken, Option.bind_eq_some_iff, Option.map_eq_some_iff, List.cons.injEq]
  constructor
  · rintro ⟨p, ⟨⟨v, rest⟩, hscan, rfl⟩, _, hlex, rfl, rfl⟩
    exact ⟨v, rest, hscan, rfl, hlex⟩
  · rintro ⟨v, rest, hscan, rfl, hlex⟩
    exact ⟨(.string v, rest), ⟨(v, rest), hscan, rfl⟩, ts, hlex, rfl, rfl⟩

theorem lex_blank {c : Char} (hc : c.isWhitespace) : lex (c :: cs) = lex cs := by
  have hskip : skipBlank (c :: cs) = skipBlank cs := by
    simp [skipBlank, skip, hc]
  rw [lex_eq, lex_eq cs, hskip]

/-! ### Syntax -/

/-- A label, and what it is compared with. -/
structure Matcher where
  name : List Char
  comparison : Comparison
  value : List UInt8
deriving DecidableEq, Repr

structure LineFilter where
  comparison : Comparison
  value : List UInt8
deriving DecidableEq, Repr

/-- A stream selector and the line filters behind it. -/
structure Query where
  matchers : List Matcher
  filters : List LineFilter
deriving DecidableEq, Repr

/-- The comparison that an operator stands for within a selector. -/
def Token.matcherOp : Token → Option Comparison
  | .eq false => some .equal
  | .eq true => some .regex
  | .neq false => some .notEqual
  | .neq true => some .notRegex
  | _ => none

/-- The comparison that an operator stands for behind a selector. -/
def Token.filterOp : Token → Option Comparison
  | .pipe false => some .equal
  | .pipe true => some .regex
  | .neq false => some .notEqual
  | .neq true => some .notRegex
  | _ => none

/-- The matchers up to the closing brace, of which there is at least one. -/
def parseMatchers : List Token → Option (List Matcher × List Token)
  | .identifier name :: op :: .string value :: .comma :: ts =>
    op.matcherOp.bind fun c => (parseMatchers ts).map fun p => (⟨name, c, value⟩ :: p.1, p.2)
  | .identifier name :: op :: .string value :: .closeBrace :: ts =>
    op.matcherOp.map fun c => ([⟨name, c, value⟩], ts)
  | _ => none

def parseFilters : List Token → Option (List LineFilter)
  | [] => some []
  | op :: .string value :: ts =>
    op.filterOp.bind fun c => (parseFilters ts).map (⟨c, value⟩ :: ·)
  | _ => none

def parseTokens : List Token → Option Query
  | .openBrace :: ts =>
    (parseMatchers ts).bind fun p => (parseFilters p.2).map fun filters => ⟨p.1, filters⟩
  | _ => none

/-- The query that a text is read as. -/
def parse (text : String) : Option Query := (lex text.toList).bind parseTokens

/-- The operator for a comparison within a selector. -/
def Comparison.matcherToken : Comparison → Token
  | .equal => .eq false
  | .regex => .eq true
  | .notEqual => .neq false
  | .notRegex => .neq true

/-- The operator for a comparison behind a selector. -/
def Comparison.filterToken : Comparison → Token
  | .equal => .pipe false
  | .regex => .pipe true
  | .notEqual => .neq false
  | .notRegex => .neq true

def matcherTokens : List Matcher → List Token
  | [] => []
  | [m] => [.identifier m.name, m.comparison.matcherToken, .string m.value, .closeBrace]
  | m :: ms =>
    .identifier m.name :: m.comparison.matcherToken :: .string m.value :: .comma :: matcherTokens ms

def LineFilter.tokens (f : LineFilter) : List Token := [f.comparison.filterToken, .string f.value]

/-- The tokens of a query. -/
def Query.tokens (q : Query) : List Token :=
  .openBrace :: matcherTokens q.matchers ++ q.filters.flatMap LineFilter.tokens

@[simp] theorem matcherOp_matcherToken (c : Comparison) : c.matcherToken.matcherOp = some c := by
  cases c <;> rfl

@[simp] theorem filterOp_filterToken (c : Comparison) : c.filterToken.filterOp = some c := by
  cases c <;> rfl

theorem eq_matcherToken {c : Comparison} (h : t.matcherOp = some c) : t = c.matcherToken := by
  unfold Token.matcherOp at h
  split at h <;> cases h <;> rfl

theorem eq_filterToken {c : Comparison} (h : t.filterOp = some c) : t = c.filterToken := by
  unfold Token.filterOp at h
  split at h <;> cases h <;> rfl

theorem parseMatchers_eq_some {ms : List Matcher} {rest : List Token}
    (h : parseMatchers ts = some (ms, rest)) : ts = matcherTokens ms ++ rest ∧ ms ≠ [] := by
  fun_induction parseMatchers ts generalizing ms with
  | case1 name op value ts ih =>
    obtain ⟨c, hop, h⟩ := Option.bind_eq_some_iff.mp h
    obtain ⟨⟨ms', rest'⟩, hparse, heq⟩ := Option.map_eq_some_iff.mp h
    cases heq
    obtain ⟨rfl, hne⟩ := ih hparse
    obtain ⟨m, ms'', rfl⟩ := List.exists_cons_of_ne_nil hne
    rw [eq_matcherToken hop]
    exact ⟨rfl, List.cons_ne_nil _ _⟩
  | case2 name op value ts =>
    obtain ⟨c, hop, heq⟩ := Option.map_eq_some_iff.mp h
    cases heq
    rw [eq_matcherToken hop]
    exact ⟨rfl, List.cons_ne_nil _ _⟩
  | case3 => cases h

theorem parseMatchers_matcherTokens {ms : List Matcher} (hne : ms ≠ []) (rest : List Token) :
    parseMatchers (matcherTokens ms ++ rest) = some (ms, rest) := by
  fun_induction matcherTokens ms with
  | case1 => exact absurd rfl hne
  | case2 m => simp [parseMatchers]
  | case3 m ms hms ih =>
    have hms' : ms ≠ [] := fun hnil => hms hnil
    simp [parseMatchers, ih hms']

theorem parseFilters_eq_some {fs : List LineFilter} (h : parseFilters ts = some fs) :
    ts = fs.flatMap LineFilter.tokens := by
  fun_induction parseFilters ts generalizing fs with
  | case1 =>
    cases h
    rfl
  | case2 op value ts ih =>
    obtain ⟨c, hop, h⟩ := Option.bind_eq_some_iff.mp h
    obtain ⟨fs', hparse, rfl⟩ := Option.map_eq_some_iff.mp h
    rw [eq_filterToken hop, ih hparse]
    rfl
  | case3 => cases h

theorem parseFilters_flatMap (fs : List LineFilter) :
    parseFilters (fs.flatMap LineFilter.tokens) = some fs := by
  induction fs with
  | nil => rfl
  | cons f fs ih => simp [LineFilter.tokens, parseFilters, ih]

/-- **A text is read as a query** if and only if its tokens are those of the query. -/
theorem parse_eq_some_iff {text : String} {q : Query} (hne : q.matchers ≠ []) :
    parse text = some q ↔ lex text.toList = some q.tokens := by
  constructor
  · intro h
    obtain ⟨ts, hlex, h⟩ := Option.bind_eq_some_iff.mp h
    rw [hlex, Option.some_inj]
    unfold parseTokens at h
    split at h
    · obtain ⟨⟨ms, rest⟩, hms, h⟩ := Option.bind_eq_some_iff.mp h
      obtain ⟨fs, hfs, rfl⟩ := Option.map_eq_some_iff.mp h
      obtain ⟨rfl, -⟩ := parseMatchers_eq_some hms
      have hrest : rest = _ := parseFilters_eq_some hfs
      rw [hrest]
      rfl
    · cases h
  · intro h
    rw [parse, h, Option.bind_some, Query.tokens, List.cons_append, parseTokens,
      parseMatchers_matcherTokens hne, Option.bind_some, parseFilters_flatMap]
    rfl

end LogQl
