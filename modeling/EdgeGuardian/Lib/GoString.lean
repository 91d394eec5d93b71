import Mathlib.Data.List.Basic
import Mathlib.Tactic.SplitIfs
import Mathlib.Order.Nat

/-!
# Double-quoted string literals

The string literals of Go that are written between double quotes, as a scanner that reads a text one
character after the other and returns the bytes of the literal together with the text that follows
its closing quote. A backslash starts an escape: one of the letters for the control characters, a
backslash or a quote; three octal or two hexadecimal digits, for a byte; or four or eight
hexadecimal digits, for a code point. A line break may not occur in a literal.

An escape takes more bytes of the text than the literal gets from it. Hence a text that has been put
between quotes as it is comes out again from the scanner only if there is no escape in it.

## Main definitions

* `GoString.step`: what the scanner does with a character.
* `GoString.run`, `GoString.scan`: the scanner on a piece of a literal, and up to its closing quote.
* `GoString.Verbatim`: a text without quotes, backslashes and line breaks.
* `GoString.escapeQuotes`: a backslash before every quote, and nowhere else.

## Main results

* `GoString.scan_eq_utf8`: if a text between quotes is read as itself, then it is verbatim, or its
  last character is a backslash and the literal goes on behind the quote.
* `GoString.scan_escapeQuotes_eq_utf8`: if a text between quotes the quotes of which are escaped is
  read as itself, then there is neither a backslash nor a line break in it.
-/

namespace GoString

/-! ### The scanner -/

/-- Where the scanner is in a literal. -/
inductive Scanner
  | plain
  /-- Behind a backslash. -/
  | escaped
  /-- Within the digits of an escape, with `left` digits after the next one, for a code point or a
  byte. -/
  | digits (base left value : ℕ) (wide : Bool)
deriving DecidableEq, Repr

/-- The bytes of a text in UTF-8. -/
def utf8 (cs : List Char) : List UInt8 := cs.flatMap String.utf8EncodeChar

/-- The value of a hexadecimal digit. -/
def unhex (c : Char) : Option ℕ :=
  if '0' ≤ c ∧ c ≤ '9' then some (c.toNat - '0'.toNat)
  else if 'a' ≤ c ∧ c ≤ 'f' then some (c.toNat - 'a'.toNat + 10)
  else if 'A' ≤ c ∧ c ≤ 'F' then some (c.toNat - 'A'.toNat + 10)
  else none

/-- The byte for a letter behind a backslash. -/
def simpleEscape : Char → Option UInt8
  | 'a' => some 7
  | 'b' => some 8
  | 'f' => some 12
  | 'n' => some 10
  | 'r' => some 13
  | 't' => some 9
  | 'v' => some 11
  | '\\' => some 92
  | '"' => some 34
  | _ => none

/-- The bytes for the number that the digits of an escape stand for. -/
def encodeValue (wide : Bool) (value : ℕ) : Option (List UInt8) :=
  if wide then
    if h : value.isValidChar then some (String.utf8EncodeChar (Char.ofNatAux value h)) else none
  else if value < 256 then some [UInt8.ofNat value] else none

/-- What the scanner does with a character that does not end the literal. -/
def step : Scanner → Char → Option (Scanner × List UInt8)
  | .plain, c =>
    if c = '\\' then some (.escaped, [])
    else if c = '"' ∨ c = '\n' then none
    else some (.plain, String.utf8EncodeChar c)
  | .escaped, c =>
    if c = 'x' then some (.digits 16 1 0 false, [])
    else if c = 'u' then some (.digits 16 3 0 true, [])
    else if c = 'U' then some (.digits 16 7 0 true, [])
    else if '0' ≤ c ∧ c ≤ '7' then some (.digits 8 1 (c.toNat - '0'.toNat) false, [])
    else (simpleEscape c).map fun b => (.plain, [b])
  | .digits base left value wide, c =>
    (unhex c).bind fun d =>
      if d < base then
        match left with
        | 0 => (encodeValue wide (value * base + d)).map fun out => (.plain, out)
        | left + 1 => some (.digits base left (value * base + d) wide, [])
      else none

/-- The scanner on a piece of a literal. -/
def run : Scanner → List Char → Option (Scanner × List UInt8)
  | st, [] => some (st, [])
  | st, c :: cs => (step st c).bind fun p => (run p.1 cs).map fun q => (q.1, p.2 ++ q.2)

/-- The scanner up to the closing quote: the bytes of the literal, and the text behind it. -/
def scan : Scanner → List Char → Option (List UInt8 × List Char)
  | _, [] => none
  | st, c :: cs =>
    if st = .plain ∧ c = '"' then some ([], cs)
    else (step st c).bind fun p => (scan p.1 cs).map fun q => (p.2 ++ q.1, q.2)

/-- Nothing in the text means anything else in a literal. -/
def Verbatim (cs : List Char) : Prop := '"' ∉ cs ∧ '\\' ∉ cs ∧ '\n' ∉ cs

instance (cs : List Char) : Decidable (Verbatim cs) :=
  inferInstanceAs (Decidable (_ ∧ _ ∧ _))

/-- A backslash before every quote. -/
def escapeQuotes (cs : List Char) : List Char :=
  cs.flatMap fun c => if c = '"' then ['\\', '"'] else [c]

variable {st st' : Scanner} {c : Char} {cs tail rest : List Char} {out v : List UInt8}

@[simp] theorem utf8_nil : utf8 [] = [] := rfl

@[simp] theorem utf8_cons : utf8 (c :: cs) = String.utf8EncodeChar c ++ utf8 cs := rfl

theorem utf8_append : utf8 (cs ++ tail) = utf8 cs ++ utf8 tail := List.flatMap_append

theorem step_plain (hslash : c ≠ '\\') (hquote : c ≠ '"') (hline : c ≠ '\n') :
    step .plain c = some (.plain, String.utf8EncodeChar c) := by
  simp [step, hslash, hquote, hline]

theorem step_plain_quote : step .plain '"' = none := rfl

theorem step_escaped_quote : step .escaped '"' = some (.plain, [34]) := rfl

/-- Only a backslash in the literal starts an escape. -/
theorem step_eq_escaped (h : step st c = some (.escaped, out)) : st = .plain ∧ c = '\\' := by
  rcases st with _ | _ | ⟨base, left, value, wide⟩
  · by_cases hslash : c = '\\'
    · exact ⟨rfl, hslash⟩
    · simp only [step, hslash, if_false] at h
      split_ifs at h
      simp at h
  · simp only [step] at h
    split_ifs at h <;> simp at h
  · simp only [step, Option.bind_eq_some_iff] at h
    obtain ⟨d, -, h⟩ := h
    split_ifs at h
    split at h <;> simp at h

/-! ### Pieces of a literal -/

theorem run_cons : run st (c :: cs) = some (st', v) ↔
    ∃ mid out rest, step st c = some (mid, out) ∧ run mid cs = some (st', rest) ∧
      v = out ++ rest := by
  simp only [run, Option.bind_eq_some_iff, Option.map_eq_some_iff, Prod.exists, Prod.mk.injEq]
  constructor
  · rintro ⟨mid, out, hstep, _, rest, hrun, rfl, rfl⟩
    exact ⟨mid, out, rest, hstep, hrun, rfl⟩
  · rintro ⟨mid, out, rest, hstep, hrun, rfl⟩
    exact ⟨mid, out, hstep, st', rest, hrun, rfl, rfl⟩

theorem scan_cons : scan st (c :: cs) = some (v, rest) ↔
    (st = .plain ∧ c = '"' ∧ v = [] ∧ rest = cs) ∨
      ∃ mid out w, step st c = some (mid, out) ∧ scan mid cs = some (w, rest) ∧ v = out ++ w := by
  by_cases hend : st = .plain ∧ c = '"'
  · obtain ⟨rfl, rfl⟩ := hend
    simp [scan, step_plain_quote, eq_comm]
  · simp only [scan, hend, if_false, Option.bind_eq_some_iff, Option.map_eq_some_iff, Prod.exists,
      Prod.mk.injEq]
    constructor
    · rintro ⟨mid, out, hstep, w, _, hscan, rfl, rfl⟩
      exact .inr ⟨mid, out, w, hstep, hscan, rfl⟩
    · rintro (⟨hst, hc, -, -⟩ | ⟨mid, out, w, hstep, hscan, rfl⟩)
      · exact absurd ⟨hst, hc⟩ hend
      · exact ⟨mid, out, hstep, w, rest, hscan, rfl, rfl⟩

theorem scan_of_run (h : run st cs = some (st', out)) :
    scan st (cs ++ tail) = (scan st' tail).map fun q => (out ++ q.1, q.2) := by
  induction cs generalizing st out with
  | nil =>
    obtain ⟨rfl, rfl⟩ : st = st' ∧ [] = out := by simpa [run] using h
    simp
  | cons c cs ih =>
    obtain ⟨mid, bytes, more, hstep, hrun, rfl⟩ := run_cons.mp h
    have hend : ¬ (st = .plain ∧ c = '"') := by
      rintro ⟨rfl, rfl⟩
      cases hstep
    rw [List.cons_append, scan, if_neg hend, hstep, Option.bind_some, ih hrun]
    simp [Function.comp_def, List.append_assoc]

/-- A literal ends within the piece, or goes on behind it. -/
theorem scan_append (h : scan st (cs ++ tail) = some (v, rest)) :
    (∃ before, scan st cs = some (v, before) ∧ rest = before ++ tail) ∨
      ∃ st' out w, run st cs = some (st', out) ∧ scan st' tail = some (w, rest) ∧ v = out ++ w := by
  induction cs generalizing st v with
  | nil => exact .inr ⟨st, [], v, rfl, h, rfl⟩
  | cons c cs ih =>
    obtain ⟨hst, hc, rfl, rfl⟩ | ⟨mid, out, w, hstep, hscan, rfl⟩ := scan_cons.mp h
    · exact .inl ⟨cs, scan_cons.mpr (.inl ⟨hst, hc, rfl, rfl⟩), rfl⟩
    · obtain ⟨before, hbefore, hrest⟩ | ⟨st', more, u, hrun, htail, rfl⟩ := ih hscan
      · exact .inl ⟨before, scan_cons.mpr (.inr ⟨mid, out, w, hstep, hbefore, rfl⟩), hrest⟩
      · exact .inr ⟨st', out ++ more, u, run_cons.mpr ⟨mid, out, more, hstep, hrun, rfl⟩, htail,
          (List.append_assoc ..).symm⟩

theorem length_lt_of_scan (h : scan st cs = some (v, rest)) : rest.length < cs.length := by
  induction cs generalizing st v with
  | nil => cases h
  | cons c cs ih =>
    obtain ⟨-, -, -, rfl⟩ | ⟨mid, out, w, -, hscan, -⟩ := scan_cons.mp h
    · exact Nat.lt_succ_self _
    · exact (ih hscan).trans (Nat.lt_succ_self _)

/-- The scanner is behind a backslash only if the piece ends with one. -/
theorem eq_append_of_run_escaped (h : run st cs = some (.escaped, out)) :
    (cs = [] ∧ st = .escaped) ∨ ∃ before, cs = before ++ ['\\'] := by
  induction cs generalizing st out with
  | nil =>
    obtain ⟨rfl, -⟩ : st = .escaped ∧ [] = out := by simpa [run] using h
    exact .inl ⟨rfl, rfl⟩
  | cons c cs ih =>
    obtain ⟨mid, bytes, more, hstep, hrun, -⟩ := run_cons.mp h
    obtain ⟨rfl, rfl⟩ | ⟨before, rfl⟩ := ih hrun
    · obtain ⟨-, rfl⟩ := step_eq_escaped hstep
      exact .inr ⟨[], rfl⟩
    · exact .inr ⟨c :: before, rfl⟩

/-! ### Escapes are longer than what they stand for -/

/-- How many bytes the scanner may still return for digits that it has read. -/
def Scanner.credit : Scanner → ℕ
  | .digits _ left _ true => 3 - left
  | _ => 0

theorem length_encodeValue {wide : Bool} {value : ℕ} (h : encodeValue wide value = some out) :
    out.length ≤ 1 + Scanner.credit (.digits 16 0 value wide) := by
  cases wide with
  | true =>
    rw [encodeValue, if_pos rfl] at h
    by_cases hvalid : value.isValidChar
    · rw [dif_pos hvalid] at h
      cases h
      rw [String.length_utf8EncodeChar]
      exact Char.utf8Size_le_four _
    · rw [dif_neg hvalid] at h
      cases h
  | false =>
    rw [encodeValue, if_neg Bool.false_ne_true] at h
    by_cases hbyte : value < 256
    · rw [if_pos hbyte] at h
      cases h
      exact Nat.le_add_right 1 _
    · rw [if_neg hbyte] at h
      cases h

/-- A step returns no more bytes than it has read. -/
theorem length_step_le (h : step st c = some (st', out)) :
    out.length + st'.credit ≤ c.utf8Size + st.credit := by
  have hpos : 0 < c.utf8Size := c.utf8Size_pos
  rcases st with _ | _ | ⟨base, left, value, wide⟩
  · simp only [step] at h
    split_ifs at h <;> cases h
    · exact Nat.zero_le _
    · simp [Scanner.credit]
  · simp only [step] at h
    split_ifs at h
    · cases h; exact Nat.zero_le _
    · cases h; exact Nat.zero_le _
    · cases h; exact Nat.zero_le _
    · cases h; exact Nat.zero_le _
    · obtain ⟨b, -, hb⟩ := Option.map_eq_some_iff.mp h
      cases hb
      exact hpos
  · simp only [step, Option.bind_eq_some_iff] at h
    obtain ⟨d, -, h⟩ := h
    split_ifs at h
    rcases left with _ | left
    · obtain ⟨bytes, hbytes, heq⟩ := Option.map_eq_some_iff.mp h
      cases heq
      have hle := length_encodeValue hbytes
      cases wide <;> simp only [Scanner.credit] at hle ⊢ <;> omega
    · cases h
      cases wide <;> simp only [Scanner.credit, List.length_nil] <;> omega

theorem length_run_le (h : run st cs = some (st', out)) :
    out.length + st'.credit ≤ (utf8 cs).length + st.credit := by
  induction cs generalizing st out with
  | nil =>
    obtain ⟨rfl, rfl⟩ : st = st' ∧ [] = out := by simpa [run] using h
    exact le_rfl
  | cons c cs ih =>
    obtain ⟨mid, bytes, more, hstep, hrun, rfl⟩ := run_cons.mp h
    have hhead := length_step_le hstep
    have htail := ih hrun
    rw [utf8_cons, List.length_append, List.length_append, String.length_utf8EncodeChar]
    omega

/-- A literal has fewer bytes than the text in which it ends. -/
theorem length_scan_lt (h : scan st cs = some (v, rest)) :
    v.length < (utf8 cs).length + st.credit := by
  induction cs generalizing st v with
  | nil => cases h
  | cons c cs ih =>
    rw [utf8_cons, List.length_append, String.length_utf8EncodeChar]
    obtain ⟨-, -, rfl, -⟩ | ⟨mid, bytes, w, hstep, hscan, rfl⟩ := scan_cons.mp h
    · have hpos : 0 < c.utf8Size := c.utf8Size_pos
      exact Nat.lt_add_right _ (Nat.lt_add_right _ hpos)
    · have hhead := length_step_le hstep
      have htail := ih hscan
      rw [List.length_append]
      omega

/-! ### Texts that are read as themselves -/

theorem run_of_verbatim (h : Verbatim cs) : run .plain cs = some (.plain, utf8 cs) := by
  induction cs with
  | nil => rfl
  | cons c cs ih =>
    obtain ⟨hquote, hslash, hline⟩ := h
    rw [List.mem_cons, not_or] at hquote hslash hline
    exact run_cons.mpr ⟨.plain, _, _, step_plain (Ne.symm hslash.1) (Ne.symm hquote.1)
      (Ne.symm hline.1), ih ⟨hquote.2, hslash.2, hline.2⟩, rfl⟩

/-- If a text is read as itself, then its first character is: a backslash would return nothing, and
the rest no more than it has. -/
theorem head_of_utf8_eq {mid : Scanner} {bytes more : List UInt8}
    (hstep : step .plain c = some (mid, bytes)) (hle : more.length ≤ (utf8 cs).length + mid.credit)
    (hout : utf8 (c :: cs) = bytes ++ more) :
    c ≠ '\\' ∧ c ≠ '"' ∧ c ≠ '\n' ∧ mid = .plain ∧ utf8 cs = more := by
  have hslash : c ≠ '\\' := by
    rintro rfl
    cases hstep
    have hlen := congrArg List.length hout
    rw [utf8_cons, List.length_append, String.length_utf8EncodeChar, List.nil_append] at hlen
    have hone : ('\\' : Char).utf8Size = 1 := rfl
    simp only [Scanner.credit] at hle
    omega
  have hquote : c ≠ '"' := by
    rintro rfl
    cases hstep
  have hline : c ≠ '\n' := by
    rintro rfl
    cases hstep
  rw [step_plain hslash hquote hline] at hstep
  cases hstep
  rw [utf8_cons, List.append_cancel_left_eq] at hout
  exact ⟨hslash, hquote, hline, rfl, hout⟩

/-- **A piece is read as itself only without escapes.** -/
theorem verbatim_of_run (h : run .plain cs = some (st', utf8 cs)) : Verbatim cs := by
  induction cs with
  | nil => exact ⟨List.not_mem_nil, List.not_mem_nil, List.not_mem_nil⟩
  | cons c cs ih =>
    obtain ⟨mid, bytes, more, hstep, hrun, hout⟩ := run_cons.mp h
    obtain ⟨hslash, hquote, hline, rfl, rfl⟩ :=
      head_of_utf8_eq hstep ((Nat.le_add_right _ _).trans (length_run_le hrun)) hout
    obtain ⟨h1, h2, h3⟩ := ih hrun
    refine ⟨?_, ?_, ?_⟩ <;> rw [List.mem_cons, not_or]
    · exact ⟨Ne.symm hquote, h1⟩
    · exact ⟨Ne.symm hslash, h2⟩
    · exact ⟨Ne.symm hline, h3⟩

theorem scan_of_verbatim (h : Verbatim cs) :
    scan .plain (cs ++ '"' :: tail) = some (utf8 cs, tail) := by
  rw [scan_of_run (run_of_verbatim h)]
  simp [scan]

/-- **A text between quotes that is read as itself** is verbatim, or its last character is a
backslash and the literal goes on behind the quote. -/
theorem scan_eq_utf8 (h : scan .plain (cs ++ '"' :: tail) = some (utf8 cs, rest)) :
    (Verbatim cs ∧ rest = tail) ∨
      ∃ before out w, cs = before ++ ['\\'] ∧ scan .plain tail = some (w, rest) ∧
        utf8 cs = out ++ 34 :: w := by
  obtain ⟨before, hbefore, -⟩ | ⟨st', out, w, hrun, htail, hout⟩ := scan_append h
  · exact absurd (length_scan_lt hbefore) (lt_irrefl _)
  obtain ⟨rfl, -, rfl, rfl⟩ | ⟨mid, bytes, w', hstep, hscan, rfl⟩ := scan_cons.mp htail
  · rw [List.append_nil] at hout
    exact .inl ⟨verbatim_of_run (hout ▸ hrun), rfl⟩
  rcases st' with _ | _ | _
  · cases hstep
  · rw [step_escaped_quote] at hstep
    cases hstep
    obtain ⟨-, hst⟩ | ⟨before, hbefore⟩ := eq_append_of_run_escaped hrun
    · cases hst
    · exact .inr ⟨before, out, w', hbefore, hscan, hout⟩
  · cases hstep

/-! ### Texts the quotes of which are escaped -/

@[simp] theorem escapeQuotes_nil : escapeQuotes [] = [] := rfl

theorem escapeQuotes_quote : escapeQuotes ('"' :: cs) = '\\' :: '"' :: escapeQuotes cs := rfl

theorem escapeQuotes_cons (h : c ≠ '"') : escapeQuotes (c :: cs) = c :: escapeQuotes cs := by
  simp [escapeQuotes, h]

/-- An escaped quote is a quote, if the scanner is not within an escape. -/
theorem run_escapeQuotes_quote : run st (escapeQuotes ('"' :: cs)) = some (st', v) ↔
    st = .plain ∧ ∃ out, run .plain (escapeQuotes cs) = some (st', out) ∧ v = 34 :: out := by
  rw [escapeQuotes_quote, run_cons]
  constructor
  · rintro ⟨mid, bytes, more, hstep, hrun, rfl⟩
    obtain ⟨mid', bytes', more', hstep', hrun', rfl⟩ := run_cons.mp hrun
    rcases st with _ | _ | _
    · cases hstep
      rw [step_escaped_quote] at hstep'
      cases hstep'
      exact ⟨rfl, more', hrun', rfl⟩
    · cases hstep
      cases hstep'
    · cases hstep
  · rintro ⟨rfl, out, hrun, rfl⟩
    exact ⟨.escaped, [], 34 :: out, rfl, run_cons.mpr ⟨.plain, [34], out, rfl, hrun, rfl⟩, rfl⟩

theorem length_run_escapeQuotes_le (h : run st (escapeQuotes cs) = some (st', out)) :
    out.length + st'.credit ≤ (utf8 cs).length + st.credit := by
  induction cs generalizing st out with
  | nil => exact length_run_le h
  | cons c cs ih =>
    rw [utf8_cons, List.length_append, String.length_utf8EncodeChar]
    by_cases hquote : c = '"'
    · subst hquote
      obtain ⟨rfl, more, hrun, rfl⟩ := run_escapeQuotes_quote.mp h
      have htail := ih hrun
      have hone : ('"' : Char).utf8Size = 1 := rfl
      rw [List.length_cons]
      omega
    · rw [escapeQuotes_cons hquote] at h
      obtain ⟨mid, bytes, more, hstep, hrun, rfl⟩ := run_cons.mp h
      have hhead := length_step_le hstep
      have htail := ih hrun
      rw [List.length_append]
      omega

/-- An escaped quote ends a literal only behind another backslash. -/
theorem scan_escapeQuotes_quote (h : scan st (escapeQuotes ('"' :: cs)) = some (v, rest)) :
    (st = .plain ∧ ∃ w, scan .plain (escapeQuotes cs) = some (w, rest) ∧ v = 34 :: w) ∨
      (st = .escaped ∧ v = [92]) := by
  rw [escapeQuotes_quote] at h
  obtain ⟨-, hslash, -, -⟩ | ⟨mid, bytes, w, hstep, hscan, rfl⟩ := scan_cons.mp h
  · cases hslash
  rcases st with _ | _ | _
  · cases hstep
    obtain ⟨hst, -, -, -⟩ | ⟨mid, bytes, w', hstep', hscan', rfl⟩ := scan_cons.mp hscan
    · cases hst
    · rw [step_escaped_quote] at hstep'
      cases hstep'
      exact .inl ⟨rfl, w', hscan', rfl⟩
  · cases hstep
    obtain ⟨-, -, rfl, -⟩ | ⟨mid, bytes, w', hstep', -, -⟩ := scan_cons.mp hscan
    · exact .inr ⟨rfl, rfl⟩
    · cases hstep'
  · cases hstep

theorem length_scan_escapeQuotes_le (h : scan st (escapeQuotes cs) = some (v, rest)) :
    v.length ≤ (utf8 cs).length + st.credit := by
  induction cs generalizing st v with
  | nil => cases h
  | cons c cs ih =>
    rw [utf8_cons, List.length_append, String.length_utf8EncodeChar]
    by_cases hquote : c = '"'
    · subst hquote
      have hone : ('"' : Char).utf8Size = 1 := rfl
      obtain ⟨rfl, w, hscan, rfl⟩ | ⟨rfl, rfl⟩ := scan_escapeQuotes_quote h
      · have htail := ih hscan
        rw [List.length_cons]
        omega
      · rw [List.length_singleton]
        omega
    · rw [escapeQuotes_cons hquote] at h
      obtain ⟨-, hc, -, -⟩ | ⟨mid, bytes, w, hstep, hscan, rfl⟩ := scan_cons.mp h
      · exact absurd hc hquote
      · have hhead := length_step_le hstep
        have htail := ih hscan
        rw [List.length_append]
        omega

/-- A literal that ends within the text has fewer bytes: the quote at its end has a backslash before
it, which has another one before it. -/
theorem length_scan_escapeQuotes_lt (h : scan .plain (escapeQuotes cs) = some (v, rest)) :
    v.length < (utf8 cs).length := by
  induction cs generalizing v with
  | nil => cases h
  | cons c cs ih =>
    rw [utf8_cons, List.length_append, String.length_utf8EncodeChar]
    by_cases hquote : c = '"'
    · subst hquote
      have hone : ('"' : Char).utf8Size = 1 := rfl
      obtain ⟨-, w, hscan, rfl⟩ | ⟨hst, -⟩ := scan_escapeQuotes_quote h
      · have htail := ih hscan
        rw [List.length_cons]
        omega
      · cases hst
    rw [escapeQuotes_cons hquote] at h
    obtain ⟨-, hc, -, -⟩ | ⟨mid, bytes, w, hstep, hscan, rfl⟩ := scan_cons.mp h
    · exact absurd hc hquote
    rw [List.length_append]
    by_cases hslash : c = '\\'
    · subst hslash
      cases hstep
      have htail := length_scan_escapeQuotes_le hscan
      have hone : ('\\' : Char).utf8Size = 1 := rfl
      simp only [Scanner.credit, List.length_nil] at htail ⊢
      omega
    · have hline : c ≠ '\n' := by
        rintro rfl
        cases hstep
      rw [step_plain hslash hquote hline] at hstep
      cases hstep
      have htail := ih hscan
      rw [String.length_utf8EncodeChar]
      omega

theorem run_escapeQuotes (hslash : '\\' ∉ cs) (hline : '\n' ∉ cs) :
    run .plain (escapeQuotes cs) = some (.plain, utf8 cs) := by
  induction cs with
  | nil => rfl
  | cons c cs ih =>
    rw [List.mem_cons, not_or] at hslash hline
    by_cases hquote : c = '"'
    · subst hquote
      exact run_escapeQuotes_quote.mpr ⟨rfl, _, ih hslash.2 hline.2, rfl⟩
    · rw [escapeQuotes_cons hquote]
      exact run_cons.mpr ⟨.plain, _, _, step_plain (Ne.symm hslash.1) hquote (Ne.symm hline.1),
        ih hslash.2 hline.2, rfl⟩

theorem not_mem_of_run_escapeQuotes (h : run .plain (escapeQuotes cs) = some (st', utf8 cs)) :
    '\\' ∉ cs ∧ '\n' ∉ cs := by
  induction cs with
  | nil => exact ⟨List.not_mem_nil, List.not_mem_nil⟩
  | cons c cs ih =>
    by_cases hquote : c = '"'
    · subst hquote
      obtain ⟨-, out, hrun, hout⟩ := run_escapeQuotes_quote.mp h
      have htail : utf8 cs = out := List.cons_injective hout
      obtain ⟨h1, h2⟩ := ih (htail ▸ hrun)
      exact ⟨by simpa using h1, by simpa using h2⟩
    rw [escapeQuotes_cons hquote] at h
    obtain ⟨mid, bytes, more, hstep, hrun, hout⟩ := run_cons.mp h
    obtain ⟨hslash, -, hline, rfl, rfl⟩ := head_of_utf8_eq hstep
      ((Nat.le_add_right _ _).trans (length_run_escapeQuotes_le hrun)) hout
    obtain ⟨h1, h2⟩ := ih hrun
    exact ⟨by simp [Ne.symm hslash, h1], by simp [Ne.symm hline, h2]⟩

theorem scan_escapeQuotes (hslash : '\\' ∉ cs) (hline : '\n' ∉ cs) :
    scan .plain (escapeQuotes cs ++ '"' :: tail) = some (utf8 cs, tail) := by
  rw [scan_of_run (run_escapeQuotes hslash hline)]
  simp [scan]

/-- **A text between quotes the quotes of which are escaped** that is read as itself has neither
backslashes nor line breaks. -/
theorem scan_escapeQuotes_eq_utf8
    (h : scan .plain (escapeQuotes cs ++ ['"']) = some (utf8 cs, rest)) :
    '\\' ∉ cs ∧ '\n' ∉ cs := by
  obtain ⟨before, hbefore, -⟩ | ⟨st', out, w, hrun, htail, hout⟩ := scan_append h
  · exact absurd (length_scan_escapeQuotes_lt hbefore) (lt_irrefl _)
  obtain ⟨rfl, -, rfl, -⟩ | ⟨mid, bytes, w', -, hscan, -⟩ := scan_cons.mp htail
  · rw [List.append_nil] at hout
    exact not_mem_of_run_escapeQuotes (hout ▸ hrun)
  · cases hscan

end GoString
