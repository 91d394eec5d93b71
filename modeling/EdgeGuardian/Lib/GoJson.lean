import EdgeGuardian.Json
import Mathlib.Algebra.Ring.Int.Defs
import Mathlib.Data.List.Forall2

/-!
# Decoding JSON into Go values

What Go's `json.Unmarshal` does with a value, for the types that a struct of texts, truth values,
numbers, times, lists, maps and structs is made of. Whether a value is accepted depends on the type
alone. What it leaves behind depends also on what was there before: `null` leaves a text, a number
or a struct as it is and resets a list, a map or a pointer; the members of an object are stored one
after the other, so that several may go to one field; and the elements of a list are decoded over
those that the list had, also over those that it had before it was cut.

A member goes to the field with its name, or, if there is none, to the one whose name it is up to
case.

## Main definitions

* `parsesTime`: the texts that `time.Time` decodes.
* `GoType`, `GoType.accepts`: types, and the values that can be decoded into them.
* `targets`: the field to which a member goes.
* `GoSlice`, `storeString`, `storeBool`, `storeInt`, `storeSlice`, `storeMap`, `storePointer`,
  `storeField`: what decoding leaves behind.
* `Settles`: the value that decoding leaves, whether it finds the zero value or that value itself.

## Main results

* `settles_slice`, `storeField_eq`: a list has the elements, and a field the value, that all the
  members agree on that go to it.
-/

namespace GoJson

open EdgeGuardian (Json)

/-! ### Field names -/

/-- The folding of a letter of a name: the two letters outside of ASCII that fold into it are the
long s and the Kelvin sign. -/
def foldChar (c : Char) : Char :=
  if c = 'ſ' then 'S' else if c.toNat = 0x212A then 'K' else c.toUpper

/-- `foldName`, as far as names in ASCII are concerned. -/
def foldName (name : String) : List Char := name.toList.map foldChar

/-- A member with this key goes to the field with this name, of a struct with these names. -/
def targets (names : List String) (key name : String) : Bool :=
  key = name || (key ∉ names && foldName key = foldName name)

/-! ### Times -/

/-- `getnum`: the number that two digits make, or one digit where two are not demanded. -/
def getnum (fixed : Bool) : List Char → Option (ℕ × List Char)
  | a :: b :: rest =>
    if !a.isDigit then none
    else if b.isDigit then some (10 * (a.toNat - 48) + (b.toNat - 48), rest)
    else if fixed then none
    else some (a.toNat - 48, b :: rest)
  | [a] => if a.isDigit && !fixed then some (a.toNat - 48, []) else none
  | [] => none

/-- A number between the bounds. -/
def getnumWithin (fixed : Bool) (low high : ℕ) (s : List Char) : Option (ℕ × List Char) :=
  (getnum fixed s).filter fun r => low ≤ r.1 ∧ r.1 ≤ high

/-- The four digits of a year. -/
def getYear : List Char → Option (ℕ × List Char)
  | a :: b :: c :: d :: rest => do
    let (century, _) ← getnum true [a, b]
    let (year, _) ← getnum true [c, d]
    return (100 * century + year, rest)
  | _ => none

/-- `skip` of one letter. -/
def skip (c : Char) : List Char → Option (List Char)
  | d :: rest => if d = c then some rest else none
  | [] => none

/-- `daysIn`. -/
def daysIn (month year : ℕ) : ℕ :=
  if month = 2 then if year % 4 = 0 ∧ (year % 100 ≠ 0 ∨ year % 400 = 0) then 29 else 28
  else if month ∈ [4, 6, 9, 11] then 30
  else 31

/-- What follows a fraction of a second, if there is one. -/
def skipFraction : List Char → List Char
  | c :: d :: rest => if (c = '.' ∨ c = ',') ∧ d.isDigit then rest.dropWhile Char.isDigit
      else c :: d :: rest
  | rest => rest

/-- The time zone, at the end. -/
def zone (s : List Char) : Option Unit :=
  if s = ['Z'] then some ()
  else do
    let sign ← s.head?
    guard (sign = '+' ∨ sign = '-')
    let (_, s) ← getnumWithin true 0 24 s.tail
    let s ← skip ':' s
    let (_, s) ← getnumWithin true 0 60 s
    guard (s = [])

/-- `time.Parse` with the layout `time.RFC3339` returns no error. -/
def parsesTime (s : String) : Bool :=
  Option.isSome do
    let (year, s) ← getYear s.toList
    let s ← skip '-' s
    let (month, s) ← getnumWithin true 1 12 s
    let s ← skip '-' s
    let (_, s) ← getnumWithin true 1 (daysIn month year) s
    let s ← skip 'T' s
    let (_, s) ← getnumWithin false 0 23 s
    let s ← skip ':' s
    let (_, s) ← getnumWithin true 0 59 s
    let s ← skip ':' s
    let (_, s) ← getnumWithin true 0 59 s
    zone (skipFraction s)

/-! ### Types -/

/-- The types of fields. -/
inductive GoType
  | string
  | bool
  /-- A signed integer with this many bits. -/
  | int (bits : ℕ)
  /-- A `time.Time`. -/
  | time
  | slice (element : GoType)
  /-- A map with texts as keys. -/
  | map (value : GoType)
  | pointer (target : GoType)
  | struct (fields : List (String × GoType))

/-- The integers with this many bits. -/
def inRange (bits : ℕ) (n : ℤ) : Bool := -2 ^ (bits - 1) ≤ n ∧ n < 2 ^ (bits - 1)

namespace GoType

mutual

/-- `json.Unmarshal` into the type returns no error. -/
def accepts : GoType → Json → Bool
  | _, .null => true
  | .string, .str _ => true
  | .bool, .bool _ => true
  | .int bits, .num n 0 => inRange bits n
  | .time, .str s => parsesTime s
  | .slice t, .arr elements => elements.all (accepts t)
  | .map t, .obj members => members.all fun m => accepts t m.2
  | .pointer t, json => accepts t json
  | .struct fields, .obj members => acceptsFields (fields.map Prod.fst) fields members
  | _, _ => false

/-- Every member that goes to one of the fields can be decoded into it. -/
def acceptsFields (names : List String) : List (String × GoType) → List (String × Json) → Bool
  | [], _ => true
  | (name, t) :: fields, members =>
    (members.all fun m => !targets names m.1 name || accepts t m.2) &&
      acceptsFields names fields members

end

end GoType

/-! ### Values -/

/-- A slice: its memory, of which the first `len` elements are its own. -/
structure GoSlice (α : Type*) where
  mem : List α
  len : ℕ
deriving DecidableEq, Repr

/-- The slice without elements. -/
def GoSlice.empty {α : Type*} : GoSlice α := ⟨[], 0⟩

/-- The slice with these elements and no others in its memory. -/
def GoSlice.ofList {α : Type*} (xs : List α) : GoSlice α := ⟨xs, xs.length⟩

/-- The elements of a slice. -/
def GoSlice.toList {α : Type*} (s : GoSlice α) : List α := s.mem.take s.len

variable {α : Type*}

/-- A text. -/
def storeString : Json → String → String
  | .str s, _ => s
  | _, old => old

/-- A truth value. -/
def storeBool : Json → Bool → Bool
  | .bool b, _ => b
  | _, old => old

/-- An integer. -/
def storeInt : Json → ℤ → ℤ
  | .num n 0, _ => n
  | _, old => old

/-- The elements of a list, each decoded over what the memory has in its place. -/
def storeElements (zero : α) (store : Json → α → α) : List Json → List α → List α
  | [], mem => mem
  | element :: elements, [] => store element zero :: storeElements zero store elements []
  | element :: elements, old :: mem => store element old :: storeElements zero store elements mem

/-- A list. -/
def storeSlice (zero : α) (store : Json → α → α) : Json → GoSlice α → GoSlice α
  | .null, _ | .arr [], _ => GoSlice.empty
  | .arr elements, old => ⟨storeElements zero store elements old.mem, elements.length⟩
  | _, old => old

/-- A map, as its entries; the value of a key replaces an earlier one. -/
def storeMap (zero : α) (store : Json → α → α) : Json → List (String × α) → List (String × α)
  | .null, _ => []
  | .obj members, old =>
    members.foldl (fun map m => map.filter (fun e => e.1 ≠ m.1) ++ [(m.1, store m.2 zero)]) old
  | _, old => old

/-- A pointer. -/
def storePointer (zero : α) (store : Json → α → α) : Json → Option α → Option α
  | .null, _ => none
  | json, old => some (store json (old.getD zero))

/-- The members of a struct. -/
def membersOf : Json → List (String × Json)
  | .obj members => members
  | _ => []

/-- A field of a struct with these names: the members that go to it, one after the other. -/
def storeField (names : List String) (name : String) (store : Json → α → α)
    (members : List (String × Json)) (old : α) : α :=
  members.foldl (fun x m => if targets names m.1 name then store m.2 x else x) old

/-! ### Values that settle -/

section Settles

variable {store : Json → α → α} {zero x : α}

/-- Decoding the value leaves `x` behind, over the zero value and over `x` itself. -/
def Settles (store : Json → α → α) (zero : α) (json : Json) (x : α) : Prop :=
  ∀ old, old = zero ∨ old = x → store json old = x

theorem settles_string (s : String) : Settles storeString "" (.str s) s := by
  intro old _
  rfl

/-- `null` leaves the empty text where there was none before. -/
theorem settles_string_null : Settles storeString "" .null "" := by
  rintro old (rfl | rfl) <;> rfl

theorem storeElements_eq {elements : List Json} {xs mem : List α}
    (h : List.Forall₂ (Settles store zero) elements xs) (hmem : mem = [] ∨ mem = xs) :
    storeElements zero store elements mem = xs := by
  induction h generalizing mem with
  | nil =>
    rcases hmem with rfl | rfl <;> rfl
  | cons hx _ ih =>
    rcases hmem with rfl | rfl
    · rw [storeElements, hx _ (Or.inl rfl), ih (Or.inl rfl)]
    · rw [storeElements, hx _ (Or.inr rfl), ih (Or.inr rfl)]

/-- A list settles where its elements do. -/
theorem settles_slice {elements : List Json} {xs : List α}
    (h : List.Forall₂ (Settles store zero) elements xs) :
    Settles (storeSlice zero store) GoSlice.empty (.arr elements) (GoSlice.ofList xs) := by
  intro old hold
  have hmem : old.mem = [] ∨ old.mem = xs := by
    rcases hold with rfl | rfl
    · exact Or.inl rfl
    · exact Or.inr rfl
  have hlength : elements.length = xs.length := List.Forall₂.length_eq h
  cases h with
  | nil => rfl
  | cons hx hrest =>
    rw [storeSlice, storeElements_eq (.cons hx hrest) hmem, hlength]
    · rfl
    · simp

theorem settles_slice_null :
    Settles (storeSlice zero store) GoSlice.empty .null (GoSlice.ofList []) := by
  intro old _
  rfl

section Field

variable {names : List String} {name : String} {members : List (String × Json)} {old : α}

theorem storeField_cons (m : String × Json) :
    storeField names name store (m :: members) old =
      storeField names name store members (if targets names m.1 name then store m.2 old else old) :=
  rfl

theorem storeField_self
    (hgiven : ∀ m ∈ members, targets names m.1 name → Settles store zero m.2 x) :
    storeField names name store members x = x := by
  induction members with
  | nil => rfl
  | cons m members ih =>
    have hhead : (if targets names m.1 name then store m.2 x else x) = x := by
      split_ifs with htargets
      · exact hgiven m List.mem_cons_self htargets x (Or.inr rfl)
      · rfl
    rw [storeField_cons, hhead]
    exact ih fun m' hm' => hgiven m' (List.mem_cons_of_mem m hm')

/-- **A field settles.** If every member that goes to it settles to `x`, and `x` is the zero value
where there is none, the field has the value `x`. -/
theorem storeField_eq (hold : old = zero ∨ old = x)
    (hgiven : ∀ m ∈ members, targets names m.1 name → Settles store zero m.2 x)
    (hnone : (∀ m ∈ members, targets names m.1 name = false) → x = zero) :
    storeField names name store members old = x := by
  induction members with
  | nil =>
    have hx : x = zero := hnone fun m hm => nomatch hm
    rcases hold with rfl | rfl
    · exact hx.symm
    · rfl
  | cons m members ih =>
    have hgiven' : ∀ m' ∈ members, targets names m'.1 name → Settles store zero m'.2 x :=
      fun m' hm' => hgiven m' (List.mem_cons_of_mem m hm')
    rw [storeField_cons]
    by_cases htargets : targets names m.1 name
    · -- from here on the field has its value, which the other members keep
      rw [if_pos htargets, hgiven m List.mem_cons_self htargets old hold]
      exact storeField_self hgiven'
    · rw [if_neg htargets]
      refine ih hgiven' fun hrest => hnone fun m' hm' => ?_
      rcases List.mem_cons.mp hm' with rfl | hm'
      · exact Bool.eq_false_iff.mpr htargets
      · exact hrest m' hm'

end Field

end Settles

end GoJson
