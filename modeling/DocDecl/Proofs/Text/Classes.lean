import DocDecl.Text.Blank
import DocDecl.Text.Letter
import DocDecl.Text.Word

/-!
# Classes of characters that do not meet

Numbers and identifiers are made of the same few kinds of characters. A blank is none of them, in
all of Unicode. Few characters have a lower case.

## Main definitions

* `isAtomChar` : the characters of numbers and identifiers.
* `capitals` : the characters with a lower case.

## Main results

* `span_append` : the characters of one class at the beginning of a text.
* `isAtomChar_of_isBlank` : blanks are none of them.
* `lowerAscii_eq_self_or_mem` : all but the capitals are their own lower case.
-/

namespace DocDecl

/-- A class that no character of a text is in. -/
theorem eq_false_of_any {p : Char → Bool} {t : Text} (h : t.any p = false) :
    ∀ c ∈ t, p c = false := by
  simpa using h

/-- The characters of one class in front of a text that begins with none of them. -/
theorem span_append {p : Char → Bool} {w t : Text} (hw : w.all p = true)
    (ht : ∀ c ∈ t.head?, p c = false) :
    (w ++ t).takeWhile p = w ∧ (w ++ t).dropWhile p = t := by
  rw [List.takeWhile_append_of_pos (List.all_eq_true.1 hw),
    List.dropWhile_append_of_pos (List.all_eq_true.1 hw)]
  cases t with
  | nil => simp
  | cons c t =>
    have hc : ¬p c = true := by simp [ht c rfl]
    rw [List.takeWhile_cons_of_neg hc, List.dropWhile_cons_of_neg hc, List.append_nil]
    exact ⟨rfl, rfl⟩

/-- The code points of the blanks. -/
def blankCodes : List Nat :=
  [9, 10, 11, 12, 13, 28, 29, 30, 31, 32, 0x85, 0xa0, 0x1680, 0x2000, 0x2001, 0x2002, 0x2003,
    0x2004, 0x2005, 0x2006, 0x2007, 0x2008, 0x2009, 0x200a, 0x2028, 0x2029, 0x202f, 0x205f, 0x3000]

theorem toNat_mem_blankCodes {c : Char} (h : isBlank c = true) : c.toNat ∈ blankCodes := by
  simp only [isBlank, Bool.or_eq_true, Bool.and_eq_true, decide_eq_true_eq, beq_iff_eq] at h
  simp only [blankCodes, List.mem_cons, List.not_mem_nil, or_false]
  omega

/-- What holds of the blanks one by one holds of every blank. -/
theorem eq_false_of_isBlank {p : Char → Bool} (hp : ∀ n ∈ blankCodes, p (Char.ofNat n) = false)
    {c : Char} (h : isBlank c = true) : p c = false := by
  have hc := hp c.toNat (toNat_mem_blankCodes h)
  rwa [Char.ofNat_toNat] at hc

/-- The class of characters of numbers and identifiers. -/
def isAtomChar (c : Char) : Bool := isNameChar c || isDecimal c || ['-', '+', '.'].contains c

theorem isAtomChar_of_isNameChar {c : Char} (h : isNameChar c = true) : isAtomChar c = true := by
  simp [isAtomChar, h]

theorem isAtomChar_of_isDecimal {c : Char} (h : isDecimal c = true) : isAtomChar c = true := by
  simp [isAtomChar, h]

theorem isAtomChar_of_isAlphanum {c : Char} (h : c.isAlphanum = true) : isAtomChar c = true :=
  isAtomChar_of_isNameChar (by simp [isNameChar, isWordChar_of_isAlphanum h])

theorem isAtomChar_of_isBlank {c : Char} (h : isBlank c = true) : isAtomChar c = false :=
  eq_false_of_isBlank (by decide +kernel) h

theorem isNameChar_of_isBlank {c : Char} (hc : isBlank c = true) : isNameChar c = false := by
  have hatom := isAtomChar_of_isBlank hc
  rw [Bool.eq_false_iff]
  intro h
  simp [isAtomChar_of_isNameChar h] at hatom

theorem isBlank_eq_false_of_isNameChar {c : Char} (hc : isNameChar c = true) :
    isBlank c = false := by
  rw [Bool.eq_false_iff]
  intro h
  simp [isNameChar_of_isBlank h] at hc

/-! ### Capitals -/

/-- The characters that have a lower case. -/
def capitals : Text := "ABCDEFGHIJKLMNOPQRSTUVWXYZ\u212a"

theorem lowerAscii_eq_self_or_mem (c : Char) : lowerAscii c = c ∨ c ∈ capitals := by
  by_cases hupper : 'A'.val ≤ c.val ∧ c.val ≤ 'Z'.val
  · have hcodes : ∀ n < 91, 65 ≤ n → Char.ofNat n ∈ capitals := by decide
    have hc := hcodes c.toNat (Nat.lt_succ_of_le (UInt32.le_iff_toNat_le.1 hupper.2))
      (UInt32.le_iff_toNat_le.1 hupper.1)
    rw [Char.ofNat_toNat] at hc
    exact .inr hc
  · by_cases hkelvin : c = '\u212a'
    · subst hkelvin
      exact .inr (by decide)
    · exact .inl ((lowerAscii_of_ne_kelvin hkelvin).trans (dif_neg hupper))

end DocDecl
