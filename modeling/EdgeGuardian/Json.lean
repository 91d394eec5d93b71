import Mathlib.Data.Int.Notation
import Mathlib.Data.Nat.Notation

/-!
# JSON values

The bodies of messages, as values. The model of a codec works on these and leaves the text aside.

## Main definitions

* `Json`, `Json.member`, `Json.texts`: values, the member of an object, and the strings inside.
-/

namespace EdgeGuardian

/-- A JSON value; a number is a decimal. -/
inductive Json
  | null
  | bool (b : Bool)
  | num (mantissa : ℤ) (exponent : ℕ)
  | str (s : String)
  | arr (elements : List Json)
  | obj (members : List (String × Json))
deriving Repr

namespace Json

mutual

/-- Equality of values, as a test. -/
def beq : Json → Json → Bool
  | null, null => true
  | bool a, bool b => a == b
  | num m e, num m' e' => m == m' && e == e'
  | str a, str b => a == b
  | arr as, arr bs => beqElements as bs
  | obj as, obj bs => beqMembers as bs
  | _, _ => false

/-- Equality of lists of values. -/
def beqElements : List Json → List Json → Bool
  | [], [] => true
  | a :: as, b :: bs => beq a b && beqElements as bs
  | _, _ => false

/-- Equality of lists of members. -/
def beqMembers : List (String × Json) → List (String × Json) → Bool
  | [], [] => true
  | (k, a) :: as, (l, b) :: bs => k == l && beq a b && beqMembers as bs
  | _, _ => false

end

mutual

theorem beq_iff (a b : Json) : beq a b = true ↔ a = b := by
  cases a <;> cases b <;> simp [beq]
  case arr.arr as bs => exact beqElements_iff as bs
  case obj.obj as bs => exact beqMembers_iff as bs

theorem beqElements_iff (as bs : List Json) : beqElements as bs = true ↔ as = bs := by
  cases as <;> cases bs <;> simp [beqElements]
  case cons.cons a as b bs => rw [beq_iff a b, beqElements_iff as bs]

theorem beqMembers_iff (as bs : List (String × Json)) : beqMembers as bs = true ↔ as = bs := by
  match as, bs with
  | [], [] => simp [beqMembers]
  | [], _ :: _ => simp [beqMembers]
  | _ :: _, [] => simp [beqMembers]
  | (k, a) :: as, (l, b) :: bs =>
    simp only [beqMembers, Bool.and_eq_true, beq_iff_eq, List.cons.injEq, Prod.mk.injEq]
    rw [beq_iff a b, beqMembers_iff as bs]

end

instance : DecidableEq Json := fun a b => decidable_of_iff _ (beq_iff a b)

mutual

/-- The strings of a value, and the names of its members. -/
def texts : Json → List String
  | str s => [s]
  | arr elements => elementTexts elements
  | obj members => memberTexts members
  | _ => []

/-- The strings of a list of values. -/
def elementTexts : List Json → List String
  | [] => []
  | a :: as => texts a ++ elementTexts as

/-- The strings of a list of members. -/
def memberTexts : List (String × Json) → List String
  | [] => []
  | (k, a) :: as => k :: texts a ++ memberTexts as

end

/-- The member of an object; the last one counts. -/
def member (name : String) : Json → Option Json
  | obj members => (members.reverse.find? fun m => m.1 == name).map Prod.snd
  | _ => none

end Json

end EdgeGuardian
