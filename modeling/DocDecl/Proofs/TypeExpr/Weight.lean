import DocDecl.Proofs.Text.Classes
import DocDecl.Proofs.TypeExpr.Congruence

/-!
# A count that the form of a type keeps

One count goes through all the rules that bring types into their form. Stars and the letter `y`
count one, the letter `f` counts minus two, and nothing else counts. So `*` and `any` are the same,
and so are `array` and `any[]`, and what a link puts in counts nothing.

## Main definitions

* `typeWeight` : the count.

## Main results

* `isFormCongruence_typeWeight` : the rules on names keep the count.
* `typeWeight_declaredType` : the form of a type has the count of the type.
-/

namespace DocDecl

open Text

variable {c : Char} {t : Text}

/-! ### The count -/

/-- What a character counts, whatever its case. -/
def charWeight (c : Char) : Int :=
  if lowerAscii c = 'f' then -2 else if lowerAscii c = 'y' ∨ lowerAscii c = '*' then 1 else 0

/-- What the characters of a text count together. -/
def typeWeight : Text → Int
  | [] => 0
  | c :: t => charWeight c + typeWeight t

@[simp] theorem typeWeight_nil : typeWeight [] = 0 := rfl

@[simp] theorem typeWeight_cons (c : Char) (t : Text) :
    typeWeight (c :: t) = charWeight c + typeWeight t := rfl

@[simp] theorem typeWeight_append (s t : Text) :
    typeWeight (s ++ t) = typeWeight s + typeWeight t := by
  induction s with
  | nil => simp
  | cons c s ih => rw [List.cons_append, typeWeight_cons, ih, typeWeight_cons, Int.add_assoc]

theorem lowerAscii_lowerAscii (c : Char) : lowerAscii (lowerAscii c) = lowerAscii c := by
  rcases lowerAscii_eq_self_or_mem c with h | h
  · rw [h, h]
  · have hcapitals : (capitals.all fun c => lowerAscii (lowerAscii c) == lowerAscii c) = true := by
      decide
    exact eq_of_beq (List.all_eq_true.1 hcapitals c h)

theorem charWeight_lowerAscii (c : Char) : charWeight (lowerAscii c) = charWeight c := by
  rw [charWeight, lowerAscii_lowerAscii, charWeight]

/-! ### Blanks -/

theorem charWeight_of_isBlank (h : isBlank c = true) : charWeight c = 0 := by
  have hzero := eq_false_of_isBlank (p := fun c => decide (charWeight c ≠ 0)) (by decide +kernel) h
  simpa using hzero

theorem typeWeight_blanks (h : t.all isBlank = true) : typeWeight t = 0 := by
  induction t with
  | nil => rfl
  | cons c t ih =>
    rw [List.all_cons, Bool.and_eq_true] at h
    rw [typeWeight_cons, charWeight_of_isBlank h.1, ih h.2, Int.zero_add]

theorem typeWeight_filter_blanks (t : Text) :
    typeWeight (t.filter fun c => !isBlank c) = typeWeight t := by
  induction t with
  | nil => rfl
  | cons c t ih =>
    by_cases hc : isBlank c = true
    · rw [List.filter_cons_of_neg (by simp [hc]), ih, typeWeight_cons, charWeight_of_isBlank hc,
        Int.zero_add]
    · rw [List.filter_cons_of_pos (by simp [hc]), typeWeight_cons, ih, typeWeight_cons]

/-! ### The form of a type -/

/-- The rules on names keep the count. -/
theorem isFormCongruence_typeWeight : IsFormCongruence fun s t => typeWeight s = typeWeight t where
  equivalence := ⟨fun _ => rfl, Eq.symm, Eq.trans⟩
  append hs ht := by rw [typeWeight_append, typeWeight_append, hs, ht]
  lower_char c := by rw [typeWeight_cons, typeWeight_cons, charWeight_lowerAscii]
  blank hc := by rw [typeWeight_cons, charWeight_of_isBlank hc, typeWeight_nil, Int.add_zero]
  bar := by decide
  dots := by decide
  external := by decide
  module := by decide
  tilde := by decide
  hash := by decide
  link owner m := by
    have hlink : typeWeight "typeof " + typeWeight ".prototype." = typeWeight "#" := by decide
    simp only [typeWeight_append]
    omega
  array := by decide
  star := by decide

@[simp] theorem typeWeight_trim (t : Text) : typeWeight (trim t) = typeWeight t :=
  isFormCongruence_typeWeight.trim t

/-- **The form of a type has the count of the type.** -/
theorem typeWeight_declaredType (t : Text) : typeWeight (declaredType t) = typeWeight t := by
  have hround : typeWeight "(" = 0 ∧ typeWeight ")" = 0 := by decide
  refine isFormCongruence_typeWeight.declaredType (fun t => ?_) (by decide) t
  rw [typeWeight_append, typeWeight_append, hround.1, hround.2, Int.zero_add, Int.add_zero]

end DocDecl
