import DocDecl.Text.Basic

/-!
# Blanks

A blank is a character of white space: the ASCII ones with the four information separators, the
next-line control, and the space and line separators of Unicode. The zero-width characters are not
blanks. This file holds trimming and the division into words.

## Main definitions

* `isBlank` : the class of blanks.
* `Text.trim`, `Text.trimLeft`, `Text.trimRight` : the text without blanks at its ends.
* `Text.words` : the runs of other characters.

## Main results

* `Text.trimRight_append_blanks` : blanks at the end do not matter to `Text.trimRight`.
-/

namespace DocDecl

/-- The class of blanks. -/
def isBlank (c : Char) : Bool :=
  let n := c.toNat
  (9 ≤ n && n ≤ 13) || (28 ≤ n && n ≤ 32) || n == 0x85 || n == 0xa0 || n == 0x1680 ||
    (0x2000 ≤ n && n ≤ 0x200a) || n == 0x2028 || n == 0x2029 || n == 0x202f || n == 0x205f ||
    n == 0x3000

namespace Text

/-! ### Trimming -/

/-- The text without the blanks that it begins with. -/
def trimLeft (t : Text) : Text := t.dropWhile isBlank

/-- The text without the blanks that it ends with. -/
def trimRight : Text → Text
  | [] => []
  | c :: t =>
    match trimRight t with
    | [] => if isBlank c then [] else [c]
    | r => c :: r

/-- The text without the blanks at both ends. -/
def trim (t : Text) : Text := trimRight (trimLeft t)

/-- Whether nothing but blanks is there. -/
def isBlankText (t : Text) : Bool := t.all isBlank

theorem trimRight_eq_nil_iff {t : Text} : trimRight t = [] ↔ t.all isBlank = true := by
  induction t with
  | nil => simp [trimRight]
  | cons c t ih =>
    cases h : trimRight t with
    | nil => simp [trimRight, h, ih.1 h]
    | cons d r =>
      have : t.all isBlank = false := by
        rw [Bool.eq_false_iff]
        exact fun hall => by simp [ih.2 hall] at h
      simp [trimRight, h, this]

theorem trimRight_append_blanks {s t : Text} (h : s.all isBlank = true) :
    trimRight (t ++ s) = trimRight t := by
  induction t with
  | nil => simpa [trimRight] using trimRight_eq_nil_iff.2 h
  | cons c t ih => simp only [List.cons_append, trimRight, ih]

theorem length_trimRight_le (t : Text) : (trimRight t).length ≤ t.length := by
  induction t with
  | nil => simp [trimRight]
  | cons c t ih =>
    rw [trimRight]
    split
    · split <;> simp
    · simp only [List.length_cons]
      omega

theorem length_trimLeft_le (t : Text) : (trimLeft t).length ≤ t.length :=
  (List.dropWhile_suffix isBlank).length_le

theorem length_trim_le (t : Text) : (trim t).length ≤ t.length :=
  Nat.le_trans (length_trimRight_le _) (length_trimLeft_le t)

/-! ### Words -/

/-- Cuts a text at its blanks. The pieces may be empty. -/
def splitAtBlanks : Text → List Text
  | [] => [[]]
  | c :: t =>
    if isBlank c then [] :: splitAtBlanks t
    else
      match splitAtBlanks t with
      | [] => [[c]]
      | p :: ps => (c :: p) :: ps

/-- The runs of characters between blanks. -/
def words (t : Text) : List Text := (splitAtBlanks t).filter fun w => !w.isEmpty

/-- The first word, or the empty text. -/
def firstWord (t : Text) : Text := (words t).headD []

end Text

end DocDecl
