import EdgeGuardian.Controller.Model
import EdgeGuardian.Lib.LogQl

/-!
# The queries for the logs of a device

The logs of all devices of all organisations are in one store, in which a device is told from the
others by the label `device_id`. A query for the logs of one device is a text in LogQL, into which
the id of the device is put between quotes, and behind it the level and the text that are searched
for, if they are given. Only the quotes in the text that is searched for are escaped.

Source: `service/LogService.java` (`queryLogs`), `api/DeviceController.java` (`getDeviceLogs`),
`mqtt/EnrollmentListener.java` (`validate`).

## Main definitions

* `queryLogs`: the text of a query.
* `deviceQuery`: the query that it is meant to be.
* `Splices`: nothing in the id, the level and the text that is searched for ends its literal or is
  read as an escape.

## Main results

* `parse_queryLogs_iff`: the text is read as the query that it is meant to be if and only if
  `Splices` holds.
-/

namespace EdgeGuardian.Controller

open GoString LogQl

/-! ### The text of a query -/

/-- The filter for the level, if one is given. -/
def levelFilter (level : Option String) : String :=
  match level with
  | some level => if level.isEmpty then "" else " |= \"level=" ++ level ++ "\""
  | none => ""

/-- The filter for the text that is searched for, if one is given. -/
def searchFilter (search : Option String) : String :=
  match search with
  | some search =>
    if search.isEmpty then "" else " |= \"" ++ String.ofList (escapeQuotes search.toList) ++ "\""
  | none => ""

/-- `LogService.queryLogs`, up to the text that is sent to the store. -/
def queryLogs (deviceId : String) (level search : Option String) : String :=
  "\x7bjob=\"edgeguardian\",device_id=\"" ++ deviceId ++ "\"\x7d" ++ levelFilter level ++
    searchFilter search

/-! ### The query that is meant -/

/-- What the text that is not empty is searched for in a line. -/
def contains (text : String) (value : List Char) : List LineFilter :=
  if text.isEmpty then [] else [⟨.equal, utf8 value⟩]

/-- One stream selector, with the job and the id of the device, and a line filter for each of the
texts that are given. -/
def deviceQuery (deviceId : String) (level search : Option String) : Query where
  matchers := [⟨"job".toList, .equal, utf8 "edgeguardian".toList⟩,
    ⟨"device_id".toList, .equal, utf8 deviceId.toList⟩]
  filters := (level.elim [] fun level => contains level ("level=".toList ++ level.toList)) ++
    search.elim [] fun search => contains search search.toList

/-- There are no quotes, backslashes and line breaks in the id and the level, and no backslashes and
line breaks in the text that is searched for. -/
def Splices (deviceId : String) (level search : Option String) : Prop :=
  Verbatim deviceId.toList ∧ (∀ l ∈ level, Verbatim l.toList) ∧
    ∀ s ∈ search, '\\' ∉ s.toList ∧ '\n' ∉ s.toList

/-! ### Literals with a text between quotes -/

variable {cs tail : List Char} {ts : List Token}

/-- A literal that goes on into this text ends with a space. -/
def RunsToBlank (tail : List Char) : Prop :=
  ∀ w rest, scan .plain tail = some (w, rest) → ∃ before, w = before ++ [32]

theorem lex_literal_iff (htail : RunsToBlank tail) :
    lex ('"' :: (cs ++ '"' :: tail)) = some (.string (utf8 cs) :: ts) ↔
      Verbatim cs ∧ lex tail = some ts := by
  rw [lex_quote_iff]
  constructor
  · rintro ⟨v, rest, hscan, hv, hlex⟩
    cases hv
    obtain ⟨hverbatim, rfl⟩ | ⟨before, out, w, rfl, hrunOn, hout⟩ := scan_eq_utf8 hscan
    · exact ⟨hverbatim, hlex⟩
    · -- the text ends with a backslash, but what is read of it with a space
      obtain ⟨before', rfl⟩ := htail w rest hrunOn
      rw [utf8_append, ← List.cons_append, ← List.append_assoc] at hout
      have hlast : utf8 ['\\'] = [32] := List.append_inj_right' hout rfl
      cases hlast
  · rintro ⟨hverbatim, hlex⟩
    exact ⟨utf8 cs, tail, scan_of_verbatim hverbatim, rfl, hlex⟩

theorem lex_escaped_literal_iff :
    lex ('"' :: (escapeQuotes cs ++ ['"'])) = some [.string (utf8 cs)] ↔
      '\\' ∉ cs ∧ '\n' ∉ cs := by
  rw [lex_quote_iff]
  constructor
  · rintro ⟨v, rest, hscan, hv, hlex⟩
    cases hv
    exact scan_escapeQuotes_eq_utf8 hscan
  · rintro ⟨hslash, hline⟩
    exact ⟨utf8 cs, [], scan_escapeQuotes hslash hline, rfl, rfl⟩

/-! ### The pieces of the text -/

theorem runsToBlank_nil : RunsToBlank [] := by
  intro w rest h
  cases h

theorem runsToBlank_pipe (cs : List Char) : RunsToBlank (" |= \"".toList ++ cs) := by
  intro w rest h
  have hverbatim : Verbatim " |= ".toList := by decide
  have hscan : scan .plain (" |= \"".toList ++ cs) = some (utf8 " |= ".toList, cs) :=
    scan_of_verbatim hverbatim
  rw [hscan] at h
  cases h
  exact ⟨utf8 " |=".toList, rfl⟩

theorem RunsToBlank.brace (h : RunsToBlank cs) : RunsToBlank ('\x7d' :: cs) := by
  intro w rest hscan
  obtain ⟨-, hbrace, -, -⟩ | ⟨mid, out, w', hstep, hscan', rfl⟩ := scan_cons.mp hscan
  · cases hbrace
  · cases hstep
    obtain ⟨before, rfl⟩ := h w' rest hscan'
    exact ⟨125 :: before, rfl⟩

theorem lex_pipe : lex (" |= \"".toList ++ cs) = (lex ('"' :: cs)).map (.pipe false :: ·) := by
  have hnext : nextToken (skipBlank (" |= \"".toList ++ cs)) =
      some (.pipe false, ' ' :: '"' :: cs) := rfl
  rw [lex_of_nextToken hnext, lex_blank rfl]

theorem lex_closeBrace : lex ('\x7d' :: cs) = (lex cs).map (.closeBrace :: ·) := by
  have hnext : nextToken (skipBlank ('\x7d' :: cs)) = some (.closeBrace, cs) := rfl
  exact lex_of_nextToken hnext

/-- The tokens up to the id of the device. -/
theorem lex_selector :
    lex ("\x7bjob=\"edgeguardian\",device_id=\"".toList ++ cs) = (lex ('"' :: cs)).map fun ts =>
      .openBrace :: .identifier "job".toList :: .eq false :: .string (utf8 "edgeguardian".toList) ::
        .comma :: .identifier "device_id".toList :: .eq false :: ts := by
  have h1 : nextToken (skipBlank ("\x7bjob=\"edgeguardian\",device_id=\"".toList ++ cs)) =
      some (.openBrace, "job=\"edgeguardian\",device_id=\"".toList ++ cs) := rfl
  have h2 : nextToken (skipBlank ("job=\"edgeguardian\",device_id=\"".toList ++ cs)) =
      some (.identifier "job".toList, "=\"edgeguardian\",device_id=\"".toList ++ cs) := rfl
  have h3 : nextToken (skipBlank ("=\"edgeguardian\",device_id=\"".toList ++ cs)) =
      some (.eq false, "\"edgeguardian\",device_id=\"".toList ++ cs) := rfl
  have h4 : nextToken (skipBlank ("\"edgeguardian\",device_id=\"".toList ++ cs)) =
      some (.string (utf8 "edgeguardian".toList), ",device_id=\"".toList ++ cs) := rfl
  have h5 : nextToken (skipBlank (",device_id=\"".toList ++ cs)) =
      some (.comma, "device_id=\"".toList ++ cs) := rfl
  have h6 : nextToken (skipBlank ("device_id=\"".toList ++ cs)) =
      some (.identifier "device_id".toList, "=\"".toList ++ cs) := rfl
  have h7 : nextToken (skipBlank ("=\"".toList ++ cs)) = some (.eq false, '"' :: cs) := rfl
  rw [lex_of_nextToken h1, lex_of_nextToken h2, lex_of_nextToken h3, lex_of_nextToken h4,
    lex_of_nextToken h5, lex_of_nextToken h6, lex_of_nextToken h7]
  simp only [Option.map_map, Function.comp_def]

theorem runsToBlank_searchFilter (search : Option String) :
    RunsToBlank (searchFilter search).toList := by
  unfold searchFilter
  split
  · split_ifs
    · exact runsToBlank_nil
    · rw [String.toList_append, String.toList_append, List.append_assoc]
      exact runsToBlank_pipe _
  · exact runsToBlank_nil

theorem RunsToBlank.levelFilter (h : RunsToBlank tail) (level : Option String) :
    RunsToBlank ((levelFilter level).toList ++ tail) := by
  unfold Controller.levelFilter
  split
  · split_ifs
    · exact h
    · rw [String.toList_append, String.toList_append, List.append_assoc, List.append_assoc]
      exact runsToBlank_pipe ("level=".toList ++ _)
  · exact h

theorem lex_searchFilter_iff {search : Option String} :
    lex (searchFilter search).toList =
        some ((search.elim [] fun s => contains s s.toList).flatMap LineFilter.tokens) ↔
      ∀ s ∈ search, '\\' ∉ s.toList ∧ '\n' ∉ s.toList := by
  rcases search with _ | s
  · exact iff_of_true rfl fun s hs => by simp at hs
  simp only [Option.mem_some_iff, forall_eq', searchFilter, Option.elim_some, contains]
  by_cases hempty : s.isEmpty
  · have hs : s = "" := String.isEmpty_iff.mp hempty
    subst hs
    exact iff_of_true rfl ⟨List.not_mem_nil, List.not_mem_nil⟩
  · have hquote : "\"".toList = ['"'] := rfl
    have hescaped : (String.ofList (escapeQuotes s.toList)).toList = escapeQuotes s.toList :=
      String.toList_ofList
    rw [if_neg hempty, if_neg hempty, String.toList_append, String.toList_append, hescaped,
      List.append_assoc, hquote, lex_pipe, ← lex_escaped_literal_iff]
    exact (Option.map_injective (List.cons_injective)).eq_iff' rfl

theorem lex_levelFilter_iff {level : Option String} (htail : RunsToBlank tail) :
    lex ((levelFilter level).toList ++ tail) =
        some ((level.elim [] fun l => contains l ("level=".toList ++ l.toList)).flatMap
          LineFilter.tokens ++ ts) ↔
      (∀ l ∈ level, Verbatim l.toList) ∧ lex tail = some ts := by
  rcases level with _ | l
  · refine (and_iff_right fun l hl => ?_).symm
    simp at hl
  simp only [Option.mem_some_iff, forall_eq', levelFilter, Option.elim_some, contains]
  by_cases hempty : l.isEmpty
  · have hl : l = "" := String.isEmpty_iff.mp hempty
    subst hl
    exact (and_iff_right ⟨List.not_mem_nil, List.not_mem_nil, List.not_mem_nil⟩).symm
  · have hprefix : " |= \"level=".toList = " |= \"".toList ++ "level=".toList := rfl
    have hquote : "\"".toList = ['"'] := rfl
    have hverbatim : Verbatim ("level=".toList ++ l.toList) ↔ Verbatim l.toList := by
      simp [Verbatim]
    rw [if_neg hempty, if_neg hempty, String.toList_append, String.toList_append, hprefix, hquote,
      List.append_assoc, List.append_assoc, List.append_assoc, lex_pipe, ← hverbatim,
      ← lex_literal_iff htail, List.append_assoc]
    exact (Option.map_injective (List.cons_injective)).eq_iff' rfl

/-! ### What a query is read as -/

theorem toList_queryLogs (deviceId : String) (level search : Option String) :
    (queryLogs deviceId level search).toList =
      "\x7bjob=\"edgeguardian\",device_id=\"".toList ++ (deviceId.toList ++ '"' :: '\x7d' ::
        ((levelFilter level).toList ++ (searchFilter search).toList)) := by
  have happend : ∀ a b c d e : String, (a ++ b ++ c ++ d ++ e).toList =
      a.toList ++ (b.toList ++ (c.toList ++ (d.toList ++ e.toList))) := by
    intro a b c d e
    simp only [String.toList_append, List.append_assoc]
  exact happend _ deviceId _ _ _

/-- **A query for the logs of a device** is read as the query that it is meant to be if and only if
nothing in the texts that are put into it ends a literal or is read as an escape. -/
theorem parse_queryLogs_iff (deviceId : String) (level search : Option String) :
    LogQl.parse (queryLogs deviceId level search) = some (deviceQuery deviceId level search) ↔
      Splices deviceId level search := by
  have htail : RunsToBlank ((levelFilter level).toList ++ (searchFilter search).toList) :=
    (runsToBlank_searchFilter search).levelFilter level
  have hne : (deviceQuery deviceId level search).matchers ≠ [] := List.cons_ne_nil _ _
  have hbrace : ∀ cs ts, lex ('\x7d' :: cs) = some (.closeBrace :: ts) ↔ lex cs = some ts := by
    intro cs ts
    rw [lex_closeBrace]
    exact (Option.map_injective List.cons_injective).eq_iff' rfl
  rw [parse_eq_some_iff hne, toList_queryLogs, lex_selector, Splices, ← lex_searchFilter_iff,
    ← lex_levelFilter_iff (runsToBlank_searchFilter search), ← List.flatMap_append, ← hbrace,
    ← lex_literal_iff htail.brace]
  refine (Option.map_injective fun ts ts' h => ?_).eq_iff' rfl
  simpa using h

/-- With an id that the enrolment accepts, a device has the logs of another one read. -/
theorem parse_queryLogs_escapes :
    isBlank "d2\"\x7d #" = false ∧
      LogQl.parse (queryLogs "d2\"\x7d #" none none) = some (deviceQuery "d2" none none) ∧
      LogQl.parse (queryLogs "d2\"\x7d #" none none) ≠
        some (deviceQuery "d2\"\x7d #" none none) := by
  decide +kernel

end EdgeGuardian.Controller
