import EdgeGuardian.Lib.GoString

/-!
# Searching in UTF-8

A text occurs in another one, character by character, if and only if its bytes occur in the bytes of
the other: no character is the beginning of another one, and a byte within a character is never the
first byte of one.

## Main results

* `GoString.utf8_isPrefix_iff`, `GoString.utf8_isInfix_iff`: beginnings and occurrences.
* `GoString.utf8_injective`: a text is known by its bytes.
-/

namespace GoString

variable {c d : Char} {cs ds : List Char} {a b : List UInt8}

/-- No character is the beginning of another one. -/
theorem eq_of_utf8EncodeChar_append
    (h : String.utf8EncodeChar c ++ a = String.utf8EncodeChar d ++ b) : c = d := by
  have hbytes := congrArg List.toByteArray h
  rw [List.toByteArray_append, List.toByteArray_append] at hbytes
  have hdecode := congrArg (fun bytes => ByteArray.utf8DecodeChar? bytes 0) hbytes
  simpa only [ByteArray.utf8DecodeChar?_utf8EncodeChar_append, Option.some_inj] using hdecode

/-- A text begins another one if and only if its bytes do. -/
theorem utf8_isPrefix_iff : utf8 cs <+: utf8 ds ↔ cs <+: ds := by
  constructor
  · intro h
    induction cs generalizing ds with
    | nil => exact List.nil_prefix
    | cons c cs ih =>
      obtain ⟨tail, htail⟩ := h
      cases ds with
      | nil =>
        have hne : String.utf8EncodeChar c ≠ [] := String.utf8EncodeChar_ne_nil
        simp [hne] at htail
      | cons d ds =>
        rw [utf8_cons, utf8_cons, List.append_assoc] at htail
        obtain rfl := eq_of_utf8EncodeChar_append htail
        exact List.cons_prefix_cons.mpr ⟨rfl, ih ⟨tail, List.append_cancel_left htail⟩⟩
  · rintro ⟨tail, rfl⟩
    exact ⟨utf8 tail, utf8_append.symm⟩

theorem utf8_injective : Function.Injective utf8 := by
  intro cs ds h
  have hle : cs <+: ds := utf8_isPrefix_iff.mp (h ▸ List.prefix_rfl)
  have hge : ds <+: cs := utf8_isPrefix_iff.mp (h ▸ List.prefix_rfl)
  exact hle.eq_of_length_le hge.length_le

/-- The first byte of a text is the first byte of a character. -/
theorem exists_first_byte (h : cs ≠ []) :
    ∃ byte rest, utf8 cs = byte :: rest ∧ byte.IsUTF8FirstByte := by
  obtain ⟨c, cs, rfl⟩ := List.exists_cons_of_ne_nil h
  obtain ⟨byte, rest, hbytes⟩ :=
    List.exists_cons_of_ne_nil (String.utf8EncodeChar_ne_nil (c := c))
  refine ⟨byte, rest ++ utf8 cs, by rw [utf8_cons, hbytes, List.cons_append], ?_⟩
  have hfirst := UInt8.isUTF8FirstByte_getElem_zero_utf8EncodeChar (c := c)
  simpa only [hbytes, List.getElem_cons_zero] using hfirst

/-- A text that occurs in a character and what follows it occurs at the beginning or in what follows
it. -/
theorem isInfix_of_utf8EncodeChar_append (hne : cs ≠ [])
    (h : utf8 cs <:+: String.utf8EncodeChar c ++ b) :
    utf8 cs <+: String.utf8EncodeChar c ++ b ∨ utf8 cs <:+: b := by
  obtain ⟨byte, rest, hbytes, hfirst⟩ := exists_first_byte hne
  obtain ⟨before, after, heq⟩ := h
  rw [List.append_assoc] at heq
  obtain ⟨within, hc, hb⟩ | ⟨beyond, hbefore, hb⟩ := List.append_eq_append_iff.mp heq
  · cases before with
    | nil => exact .inl ⟨after, heq⟩
    | cons x before =>
      cases within with
      | nil =>
        right
        exact ⟨[], after, by simpa using hb⟩
      | cons y within =>
        -- it would begin within the character
        have hy : byte = y := by
          rw [hbytes] at hb
          exact (List.cons.inj hb).1
        have hlt : (x :: before).length < (String.utf8EncodeChar c).length := by
          rw [hc, List.length_append, List.length_cons (a := y)]
          omega
        have hget : (String.utf8EncodeChar c)[(x :: before).length] = byte := by
          simp only [hc, hy, List.getElem_append_right le_rfl, Nat.sub_self,
            List.getElem_cons_zero]
        rw [← hget, UInt8.isUTF8FirstByte_getElem_utf8EncodeChar] at hfirst
        cases hfirst
  · right
    exact ⟨beyond, after, by rw [hb, List.append_assoc]⟩

/-- **A text occurs in another one** if and only if its bytes do. -/
theorem utf8_isInfix_iff : utf8 cs <:+: utf8 ds ↔ cs <:+: ds := by
  constructor
  · intro h
    rcases eq_or_ne cs [] with rfl | hne
    · exact List.nil_infix
    induction ds with
    | nil =>
      have hnil : utf8 cs = [] := List.infix_nil.mp h
      obtain ⟨byte, rest, hbytes, -⟩ := exists_first_byte hne
      rw [hnil] at hbytes
      cases hbytes
    | cons d ds ih =>
      rw [List.infix_cons_iff]
      rw [utf8_cons] at h
      rcases isInfix_of_utf8EncodeChar_append hne h with hbegin | hlater
      · exact .inl (utf8_isPrefix_iff.mp hbegin)
      · exact .inr (ih hlater)
  · rintro ⟨before, after, rfl⟩
    exact ⟨utf8 before, utf8 after, by rw [utf8_append, utf8_append]⟩

end GoString
