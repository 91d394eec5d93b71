import Mathlib.Data.List.Basic
import Mathlib.Order.Nat
import Mathlib.Tactic.SplitIfs

/-!
# IP addresses as texts

`net.ParseIP` of Go, with the two parsers of `net/netip` that it chooses from. The first dot, colon
or percent sign of a text says whether it is read as an IPv4 or an IPv6 address. In both of them,
what is read is checked in one pass over the text.

## Main definitions

* `GoNetip.parseIPv4`, `GoNetip.parseIPv6`, `GoNetip.parseAddr`: the parsers.
* `GoNetip.parseIP`: an address without a zone, as sixteen bytes.
* `GoNetip.IsOctet`: a number up to 255 in decimal digits, without a zero in front of it.

## Main results

* `GoNetip.isSome_parseIPv4_iff`: the texts that are read as IPv4 addresses are those with four such
  numbers between dots.
-/

namespace GoNetip

/-! ### IPv4 -/

/-- The value of a decimal digit. -/
def digit (c : Char) : ℕ := c.toNat - '0'.toNat

/-- The loop of `parseIPv4Fields`, with the value of the octet so far and its number of digits, and
whether there is no digit right before. -/
def ipv4Loop (val digLen : ℕ) (boundary : Bool) (fields : List UInt8) :
    List Char → Option (List UInt8)
  | [] => if fields.length < 3 then none else some (fields ++ [UInt8.ofNat val])
  | c :: cs =>
    if c.isDigit then
      if digLen = 1 ∧ val = 0 then none
      else if 255 < val * 10 + digit c then none
      else ipv4Loop (val * 10 + digit c) (digLen + 1) false fields cs
    else if c = '.' then
      if boundary ∨ cs = [] then none
      else if fields.length = 3 then none
      else ipv4Loop 0 0 true (fields ++ [UInt8.ofNat val]) cs
    else none

/-- `parseIPv4`: the four octets. -/
def parseIPv4 (s : List Char) : Option (List UInt8) := ipv4Loop 0 0 true [] s

/-! ### IPv6 -/

/-- The value of a hexadecimal digit. -/
def hexDigit (c : Char) : Option ℕ :=
  if '0' ≤ c ∧ c ≤ '9' then some (c.toNat - '0'.toNat)
  else if 'a' ≤ c ∧ c ≤ 'f' then some (c.toNat - 'a'.toNat + 10)
  else if 'A' ≤ c ∧ c ≤ 'F' then some (c.toNat - 'A'.toNat + 10)
  else none

/-- The two bytes of a group of hexadecimal digits. -/
def groupBytes (digits : List Char) : List UInt8 :=
  let value := digits.foldl (fun acc c => acc * 16 + (hexDigit c).getD 0) 0
  [UInt8.ofNat (value / 256), UInt8.ofNat value]

/-- The loop of `parseIPv6`, for the groups for which there is still room: the bytes, the place of
the ellipsis and what has not been read. -/
def ipv6Loop : ℕ → List UInt8 → Option ℕ → List Char →
    Option (List UInt8 × Option ℕ × List Char)
  | 0, ip, ellipsis, s => some (ip, ellipsis, s)
  | room + 1, ip, ellipsis, s =>
    let digits := s.takeWhile fun c => (hexDigit c).isSome
    let next := ip ++ groupBytes digits
    if digits = [] ∨ 4 < digits.length then none
    else
      match s.drop digits.length with
      | [] => some (next, ellipsis, [])
      | '.' :: _ =>
        -- the rest of the text has to be an IPv4 address, in place of the last two groups
        if (ellipsis = none ∧ ip.length ≠ 12) ∨ 16 < ip.length + 4 then none
        else (parseIPv4 s).map fun fields => (ip ++ fields, ellipsis, [])
      | ':' :: ':' :: s =>
        if ellipsis.isSome then none
        else if s = [] then some (next, some next.length, [])
        else ipv6Loop room next (some next.length) s
      | ':' :: c :: s => ipv6Loop room next ellipsis (c :: s)
      | _ => none

/-- What `parseIPv6` does behind its loop: an ellipsis stands for at least one group. -/
def expandEllipsis : List UInt8 × Option ℕ × List Char → Option (List UInt8)
  | (ip, ellipsis, rest) =>
    if rest ≠ [] then none
    else
      match ellipsis with
      | none => if ip.length < 16 then none else some ip
      | some e =>
        if ip.length < 16 then
          some (ip.take e ++ List.replicate (16 - ip.length) 0 ++ ip.drop e)
        else none

/-- `parseIPv6`, for a text without a zone. -/
def parseIPv6 : List Char → Option (List UInt8)
  | [':', ':'] => some (List.replicate 16 0)
  | ':' :: ':' :: s => (ipv6Loop 8 [] (some 0) s).bind expandEllipsis
  | s => (ipv6Loop 8 [] none s).bind expandEllipsis

/-! ### Addresses -/

/-- `netip.Addr`. -/
inductive Addr
  | v4 (fields : List UInt8)
  | v6 (ip : List UInt8) (zone : List Char)
deriving DecidableEq, Repr

/-- `netip.ParseAddr`. -/
def parseAddr (s : List Char) : Option Addr :=
  match s.find? fun c => c = '.' ∨ c = ':' ∨ c = '%' with
  | some '.' => (parseIPv4 s).map .v4
  | some ':' =>
    let address := s.takeWhile (· ≠ '%')
    let zone := s.drop (address.length + 1)
    if '%' ∈ s ∧ zone = [] then none else (parseIPv6 address).map fun ip => .v6 ip zone
  | _ => none

/-- `net.ParseIP`. -/
def parseIP (s : List Char) : Option (List UInt8) :=
  match parseAddr s with
  | some (.v4 fields) => some (List.replicate 10 0 ++ [255, 255] ++ fields)
  | some (.v6 ip []) => some ip
  | _ => none

/-! ### The texts of IPv4 addresses -/

/-- The number that decimal digits stand for, behind a number. -/
def decimalFrom (val : ℕ) (p : List Char) : ℕ := p.foldl (fun v c => v * 10 + digit c) val

/-- A number up to 255 in decimal digits, without a zero in front of it. -/
def IsOctet (p : List Char) : Prop :=
  p ≠ [] ∧ (∀ c ∈ p, c.isDigit) ∧ (p.head? = some '0' → p = ['0']) ∧ decimalFrom 0 p ≤ 255

/-- What the loop checks of the rest of an octet. -/
def CompletesOctet : ℕ → ℕ → List Char → Prop
  | _, digLen, [] => digLen ≠ 0
  | val, digLen, c :: p =>
    c.isDigit ∧ ¬ (digLen = 1 ∧ val = 0) ∧ val * 10 + digit c ≤ 255 ∧
      CompletesOctet (val * 10 + digit c) (digLen + 1) p

variable {val digLen : ℕ} {boundary : Bool} {fields : List UInt8} {cs p : List Char}

theorem le_decimalFrom : val ≤ decimalFrom val p := by
  induction p generalizing val with
  | nil => exact le_rfl
  | cons c p ih =>
    have hle : val ≤ val * 10 + digit c := by omega
    exact hle.trans ih

theorem completesOctet_of_two_le (hlen : 2 ≤ digLen) (hval : val ≤ 255) :
    CompletesOctet val digLen p ↔ (∀ c ∈ p, c.isDigit) ∧ decimalFrom val p ≤ 255 := by
  induction p generalizing val digLen with
  | nil => simp [CompletesOctet, decimalFrom, hval, show digLen ≠ 0 by omega]
  | cons c p ih =>
    have hone : ¬ (digLen = 1 ∧ val = 0) := by omega
    have hfold : decimalFrom val (c :: p) = decimalFrom (val * 10 + digit c) p := rfl
    simp only [CompletesOctet, hone, not_false_eq_true, true_and, List.forall_mem_cons, hfold]
    constructor
    · rintro ⟨hc, hle, hrest⟩
      obtain ⟨hall, hdec⟩ := (ih (by omega) hle).mp hrest
      exact ⟨⟨hc, hall⟩, hdec⟩
    · rintro ⟨⟨hc, hall⟩, hdec⟩
      have hle : val * 10 + digit c ≤ 255 := le_decimalFrom.trans hdec
      exact ⟨hc, hle, (ih (by omega) hle).mpr ⟨hall, hdec⟩⟩

/-- Behind the first digit, there is another one only if the first is not a zero. -/
theorem completesOctet_one (hval : val ≤ 255) :
    CompletesOctet val 1 p ↔
      (∀ c ∈ p, c.isDigit) ∧ (val = 0 → p = []) ∧ decimalFrom val p ≤ 255 := by
  rcases p with _ | ⟨c, p⟩
  · simp [CompletesOctet, decimalFrom, hval]
  · have hfold : decimalFrom val (c :: p) = decimalFrom (val * 10 + digit c) p := rfl
    simp only [CompletesOctet, true_and, List.forall_mem_cons, hfold, reduceCtorEq, imp_false]
    constructor
    · rintro ⟨hc, hval', hle, hrest⟩
      obtain ⟨hall, hdec⟩ := (completesOctet_of_two_le le_rfl hle).mp hrest
      exact ⟨⟨hc, hall⟩, hval', hdec⟩
    · rintro ⟨⟨hc, hall⟩, hval', hdec⟩
      have hle : val * 10 + digit c ≤ 255 := le_decimalFrom.trans hdec
      exact ⟨hc, hval', hle, (completesOctet_of_two_le le_rfl hle).mpr ⟨hall, hdec⟩⟩

theorem digit_eq_zero_iff {c : Char} (hc : c.isDigit) : digit c = 0 ↔ c = '0' := by
  have hle : '0'.toNat ≤ c.toNat := (Char.isDigit_iff_toNat.mp hc).1
  rw [digit, ← Char.toNat_inj]
  omega

theorem completesOctet_zero_iff : CompletesOctet 0 0 p ↔ IsOctet p := by
  rcases p with _ | ⟨c, p⟩
  · simp [CompletesOctet, IsOctet]
  · have hfold : decimalFrom 0 (c :: p) = decimalFrom (0 * 10 + digit c) p := rfl
    have hhead : ((c :: p).head? = some '0' → c :: p = ['0']) ↔ (c = '0' → p = []) := by
      simp only [List.head?_cons, Option.some_inj, List.cons.injEq]
      exact ⟨fun h hc => (h hc).2, fun h hc => ⟨hc, h hc⟩⟩
    simp only [CompletesOctet, IsOctet, hhead, hfold, List.forall_mem_cons, Nat.zero_ne_one,
      false_and, not_false_eq_true, true_and, ne_eq, reduceCtorEq, Nat.zero_mul, Nat.zero_add]
    constructor
    · rintro ⟨hc, hle, hrest⟩
      obtain ⟨hall, hzero, hdec⟩ := (completesOctet_one hle).mp hrest
      exact ⟨⟨hc, hall⟩, fun h => hzero ((digit_eq_zero_iff hc).mpr h), hdec⟩
    · rintro ⟨⟨hc, hall⟩, hzero, hdec⟩
      have hle : digit c ≤ 255 := le_decimalFrom.trans hdec
      exact ⟨hc, hle, (completesOctet_one hle).mpr
        ⟨hall, fun h => hzero ((digit_eq_zero_iff hc).mp h), hdec⟩⟩

/-- What the loop checks of the pieces between the dots, behind `n` octets. -/
def CompletesFields (val digLen n : ℕ) : List (List Char) → Prop
  | [] => False
  | p :: ps => CompletesOctet val digLen p ∧ n + ps.length = 3 ∧ ∀ q ∈ ps, CompletesOctet 0 0 q

theorem completesFields_cons_of_ne {n : ℕ} {c : Char} (hdot : c ≠ '.') :
    CompletesFields val digLen n ((c :: cs).splitOn '.') ↔
      c.isDigit ∧ ¬ (digLen = 1 ∧ val = 0) ∧ val * 10 + digit c ≤ 255 ∧
        CompletesFields (val * 10 + digit c) (digLen + 1) n (cs.splitOn '.') := by
  obtain ⟨p, ps, hpieces⟩ := List.exists_cons_of_ne_nil (List.splitOn_ne_nil '.' cs)
  have hne : (c == '.') = false := beq_eq_false_iff_ne.mpr hdot
  rw [List.splitOn_cons_eq_if_modifyHead, hne, if_neg Bool.false_ne_true, hpieces,
    List.modifyHead_cons]
  simp only [CompletesFields, CompletesOctet, and_assoc]

theorem completesFields_cons_dot {n : ℕ} :
    CompletesFields val digLen n (('.' :: cs).splitOn '.') ↔
      digLen ≠ 0 ∧ CompletesFields 0 0 (n + 1) (cs.splitOn '.') := by
  obtain ⟨p, ps, hpieces⟩ := List.exists_cons_of_ne_nil (List.splitOn_ne_nil '.' cs)
  rw [List.splitOn_cons_eq_if_modifyHead, if_pos (beq_self_eq_true _), hpieces]
  simp only [CompletesFields, CompletesOctet, List.length_cons, List.forall_mem_cons]
  constructor
  · rintro ⟨hstart, hlen, hp, hps⟩
    exact ⟨hstart, hp, by omega, hps⟩
  · rintro ⟨hstart, hp, hlen, hps⟩
    exact ⟨hstart, by omega, hp, hps⟩

theorem CompletesFields.le {n : ℕ} {ps : List (List Char)}
    (h : CompletesFields val digLen n ps) : n ≤ 3 := by
  rcases ps with _ | ⟨p, ps⟩
  · cases h
  · have hlen := h.2.1
    omega

/-- What the loop accepts: the rest of an octet, and as many octets as there are missing. The last
condition is what the loop has checked at a dot. -/
theorem isSome_ipv4Loop_iff (hboundary : boundary = true ↔ digLen = 0) (hfields : fields.length ≤ 3)
    (hend : digLen = 0 → fields.length = 3 → cs ≠ []) :
    (ipv4Loop val digLen boundary fields cs).isSome ↔
      CompletesFields val digLen fields.length (cs.splitOn '.') := by
  induction cs generalizing val digLen boundary fields with
  | nil =>
    have hpieces : ([] : List Char).splitOn '.' = [[]] := rfl
    rw [ipv4Loop, hpieces]
    by_cases hlt : fields.length < 3
    · simp [CompletesFields, hlt, Nat.ne_of_lt hlt]
    · have hthree : fields.length = 3 := by omega
      have hlen : digLen ≠ 0 := fun hzero => hend hzero hthree rfl
      simp [CompletesFields, CompletesOctet, hthree, hlen]
  | cons c cs ih =>
    rw [ipv4Loop]
    by_cases hdot : c = '.'
    · subst hdot
      rw [if_neg (by decide), if_pos rfl, completesFields_cons_dot, ne_eq, ← hboundary]
      by_cases hstop : boundary = true ∨ cs = []
      · rw [if_pos hstop]
        rcases hstop with hstart | rfl
        · simp [hstart]
        · simp [CompletesFields, CompletesOctet, List.splitOn_nil]
      obtain ⟨hstart, hnil⟩ := not_or.mp hstop
      rw [if_neg hstop]
      by_cases hthree : fields.length = 3
      · have hfull : ¬ CompletesFields 0 0 (fields.length + 1) (cs.splitOn '.') :=
          fun h => absurd h.le (by omega)
        simp only [if_pos hthree, hfull, and_false, Option.isSome_none, Bool.false_eq_true]
      have hlen : (fields ++ [UInt8.ofNat val]).length = fields.length + 1 := by simp
      rw [if_neg hthree, ih (by simp) (by omega) (fun _ _ => hnil), hlen, and_iff_right hstart]
    · rw [completesFields_cons_of_ne hdot]
      by_cases hdigit : c.isDigit
      · by_cases hzero : digLen = 1 ∧ val = 0
        · simp [hdigit, hzero]
        by_cases hlt : 255 < val * 10 + digit c
        · simp [hdigit, hzero, hlt, Nat.not_le.mpr hlt]
        · rw [if_pos hdigit, if_neg hzero, if_neg hlt, ih (by simp) hfields (by simp)]
          simp [hdigit, hzero, Nat.le_of_not_lt hlt]
      · simp [hdigit, hdot]

/-- **The texts of IPv4 addresses** are those with four octets between dots. -/
theorem isSome_parseIPv4_iff : (parseIPv4 cs).isSome ↔
    (cs.splitOn '.').length = 4 ∧ ∀ p ∈ cs.splitOn '.', IsOctet p := by
  obtain ⟨p, ps, hpieces⟩ := List.exists_cons_of_ne_nil (List.splitOn_ne_nil '.' cs)
  rw [parseIPv4, isSome_ipv4Loop_iff (by simp) (by simp) (by simp), hpieces, CompletesFields]
  simp only [completesOctet_zero_iff, List.forall_mem_cons, List.length_cons, List.length_nil]
  constructor
  · rintro ⟨hp, hlen, hps⟩
    exact ⟨by omega, hp, hps⟩
  · rintro ⟨hlen, hp, hps⟩
    exact ⟨hp, by omega, hps⟩

/-! ### Which parser is used -/

theorem isSome_parseIP_iff : (parseIP cs).isSome ↔
    (∃ fields, parseAddr cs = some (.v4 fields)) ∨ ∃ ip, parseAddr cs = some (.v6 ip []) := by
  unfold parseIP
  split
  · simp [*]
  · simp [*]
  · rename_i hv4 hv6
    simp only [Option.isSome_none, Bool.false_eq_true, false_iff, not_or, not_exists]
    exact ⟨hv4, hv6⟩

theorem isSome_parseIPv4_of_parseAddr (h : parseAddr cs = some (.v4 fields)) :
    (parseIPv4 cs).isSome := by
  unfold parseAddr at h
  split at h
  · obtain ⟨_, hparse, -⟩ := Option.map_eq_some_iff.mp h
    rw [hparse]
    rfl
  · simp only at h
    split_ifs at h
    obtain ⟨_, -, heq⟩ := Option.map_eq_some_iff.mp h
    cases heq
  · cases h

/-- A text of dots and digits is read as an IPv4 address. -/
theorem parseAddr_of_dots (hdot : '.' ∈ cs) (hchars : ∀ c ∈ cs, c = '.' ∨ c.isDigit) :
    parseAddr cs = (parseIPv4 cs).map .v4 := by
  have hfind : cs.find? (fun c => c = '.' ∨ c = ':' ∨ c = '%') = some '.' := by
    rcases hsome : cs.find? (fun c => c = '.' ∨ c = ':' ∨ c = '%') with _ | c
    · have hnone := List.find?_eq_none.mp hsome '.' hdot
      simp at hnone
    · rcases hchars c (List.mem_of_find?_eq_some hsome) with rfl | hdigit
      · rfl
      · have hspecial := List.find?_some hsome
        rw [decide_eq_true_eq] at hspecial
        rcases hspecial with rfl | rfl | rfl <;> cases hdigit
  rw [parseAddr, hfind]
  rfl

/-- A character of a text is the separator or in one of the pieces. -/
theorem mem_pieces {sep c : Char} (hc : c ∈ cs) : c = sep ∨ ∃ p ∈ cs.splitOn sep, c ∈ p := by
  induction cs with
  | nil => cases hc
  | cons d cs ih =>
    obtain ⟨p, ps, hpieces⟩ := List.exists_cons_of_ne_nil (List.splitOn_ne_nil sep cs)
    rw [List.splitOn_cons_eq_if_modifyHead]
    by_cases hsep : d == sep
    · rw [if_pos hsep]
      rcases List.mem_cons.mp hc with rfl | hc
      · exact .inl (beq_iff_eq.mp hsep)
      · refine (ih hc).imp_right fun ⟨q, hq, hcq⟩ => ⟨q, List.mem_cons_of_mem _ hq, hcq⟩
    · rw [if_neg hsep, hpieces, List.modifyHead_cons]
      rcases List.mem_cons.mp hc with rfl | hc
      · exact .inr ⟨c :: p, List.mem_cons_self, List.mem_cons_self⟩
      · refine (ih hc).imp_right fun ⟨q, hq, hcq⟩ => ?_
        rw [hpieces] at hq
        rcases List.mem_cons.mp hq with rfl | hq
        · exact ⟨d :: q, List.mem_cons_self, List.mem_cons_of_mem _ hcq⟩
        · exact ⟨q, List.mem_cons_of_mem _ hq, hcq⟩

end GoNetip
