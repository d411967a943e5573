import DocDecl.Proofs.Parameter.Alignment
import DocDecl.Proofs.Parameter.Line
import DocDecl.Proofs.TypeExpr.Alternatives

/-!
# Rest parameters

A rest parameter is documented by dots in front of its name or of its type, or by a rest argument of
the definition. Each time brackets come behind its type, but only dots in front of the type put
brackets around a union: the others make an array of its last alternative alone.

## Main definitions

* `restField` : the field of a rest parameter.
* `IsArrayOf` : the array of a type.
* `DeclaresRest` : how a rest parameter is declared.

## Main results

* `declaresRest` : the ways to document a rest parameter.
-/

namespace DocDecl

open LiteralGrammar Text

variable {b : Bool} {f : Field} {e T : Text}

/-! ### Arrays -/

/-- The array of a type: brackets stand around a type that has a bar outside brackets and strings,
and may stand around any other. -/
def IsArrayOf (e t : Text) : Prop :=
  t = "(" ++ e ++ ")[]" ∨ t = e ++ "[]" ∧ IsPiece '|' 0 e

instance (e t : Text) : Decidable (IsArrayOf e t) := inferInstanceAs (Decidable (_ ∨ _))

theorem isArrayOf_brackets_iff : IsArrayOf e (e ++ "[]") ↔ IsPiece '|' 0 e := by
  constructor
  · rintro (h | ⟨-, h⟩)
    · have hlen := congrArg List.length h
      simp at hlen
    · exact h
  · exact fun h => .inr ⟨rfl, h⟩

theorem isArrayOf_restType_iff :
    IsArrayOf e (restType e) ↔ IsPiece '|' 0 e ∨ e.head? ≠ some '(' := by
  rw [restType]
  split_ifs with h
  · exact iff_of_true (.inl rfl) (.inr h.2)
  · rw [isArrayOf_brackets_iff, iff_self_or]
    intro hhead
    exact isPiece_of_not_mem fun hbar => h ⟨hbar, hhead⟩

/-! ### Unions and rest types -/

theorem isPiece_dots (h : IsPiece '|' 0 T) : IsPiece '|' 0 ("..." ++ T) := by
  have hdot {t : Text} (h : IsPiece '|' 0 t) : IsPiece '|' 0 ('.' :: t) :=
    h.prepend (w := ['.']) (piecesAt_plain (.inl (by decide)) (by decide) t)
  exact hdot (hdot (hdot h))

theorem trim_dots (ht : trim T = T) : trim ("..." ++ T) = "..." ++ T := by
  have hdots : trim "...".toList = "...".toList := by decide +kernel
  rw [trim_append_of_eq hdots (by simp), (trim_eq_self_iff.1 ht).2]

/-- Dots in front of a type in which no bar separates make it an array. -/
theorem declaredType_dots (ht : trim T = T) (h : IsPiece '|' 0 T) :
    declaredType ("..." ++ T) = restType (declaredType T) := by
  have hparen : isParenthesised ("..." ++ T) = false := rfl
  refine declaredType_rest (trim_dots ht) ?_
  rw [alternatives_of_not_isParenthesised hparen]
  exact Nat.not_lt.2 (length_splitTopLevel_le (isPiece_dots h))

/-- Dots in front of a union in brackets make it an array in brackets. -/
theorem declaredType_dots_union (hT : Balanced b T) (ht : trim T = T)
    (h : 1 < (splitTopLevel (some '|') T).length) :
    declaredType ("..." ++ '(' :: (T ++ [')'])) = "(" ++ declaredType T ++ ")[]" := by
  have hunion : declaredType ('(' :: (T ++ [')'])) = "(" ++ declaredType T ++ ")" := by
    rw [declaredType_parenthesised hT.groupBody h, declaredType_union ht hT h]
  rw [declaredType_dots (trim_parenthesised T) (isPiece_parenthesised hT (Int.le_refl 0)), hunion,
    restType, if_neg fun hbar => hbar.2 rfl, List.append_assoc]
  rfl

/-! ### Rest arguments -/

/-- A documented parameter is found by its name. -/
theorem find?_reverse_of_mem {fs : List Field} (h : (fs.map Field.name).Nodup) (hf : f ∈ fs) :
    (fs.reverse.find? fun g => g.name = f.name) = some f := by
  cases hg : fs.reverse.find? fun g => g.name = f.name with
  | none => simpa using List.find?_eq_none.1 hg f (List.mem_reverse.2 hf)
  | some g =>
    have hmem := List.mem_reverse.1 (List.mem_of_find?_eq_some hg)
    rw [List.inj_on_of_nodup_map h hmem hf (name_of_find? hg)]

/-- The field of a rest parameter. -/
def restField (type : Text) (n : Identifier) : Field := { type, name := n.text, rest := true }

/-- A rest argument makes the documented parameter of its name a rest parameter. -/
theorem getElem?_align_rest {documented : List Field} {as : List Argument} {i : Nat}
    (h : (documented.map Field.name).Nodup) (hf : f ∈ documented) (hrest : f.rest = false)
    (hi : as[i]? = some (.rest f.name)) (deprecated : Bool) (subject : Text) :
    (align (some as) documented deprecated subject).value[i]? =
      some { f with type := f.type ++ "[]", rest := true } := by
  rw [value_align, getElem?_alignFrom, hi, Option.map_some, alignOne, find?_reverse_of_mem h hf]
  simp only [hrest]
  rfl

/-- How a rest parameter is declared, by the way it is documented. Nothing else in the comment is
about it. -/
structure DeclaresRest (T : Text) (n : Identifier) : Prop where
  /-- Dots in front of the name put brackets behind the type. -/
  dottedName {comment : Text}
    (h : IsOnlyBlock comment "param" n.text (typedLine T ("..." ++ n.text))) :
    restField (declaredType T ++ "[]") n ∈ parameters comment
  /-- So does a rest argument of the definition. -/
  restArgument {comment : Text} (h : IsOnlyBlock comment "param" n.text (typedLine T n.text))
    {as : List Argument} {i : Nat} (hi : as[i]? = some (.rest n.text)) (deprecated : Bool)
    (subject : Text) :
    (align (some as) (parameters comment) deprecated subject).value[i]? =
      some (restField (declaredType T ++ "[]") n)
  /-- Dots in front of a type in which no bar separates make an array of it. -/
  dottedType (hT : IsPiece '|' 0 T) {comment : Text}
    (h : IsOnlyBlock comment "param" n.text (typedLine ("..." ++ T) n.text)) :
    restField (restType (declaredType T)) n ∈ parameters comment
  /-- Dots in front of a union in brackets make an array of the union. -/
  dottedUnion {b : Bool} (hT : Balanced b T) (hunion : 1 < (splitTopLevel (some '|') T).length)
    {comment : Text}
    (h : IsOnlyBlock comment "param" n.text
      (typedLine ("..." ++ '(' :: (T ++ [')'])) n.text)) :
    restField ("(" ++ declaredType T ++ ")[]") n ∈ parameters comment
  /-- Brackets behind a type make an array of it where no bar separates in it, and only there. -/
  isArrayOf_iff :
    IsArrayOf (declaredType T) (declaredType T ++ "[]") ↔ IsPiece '|' 0 (declaredType T)
  /-- Dots in front of a type make an array of it unless a bar separates behind brackets. -/
  isArrayOf_restType_iff :
    IsArrayOf (declaredType T) (restType (declaredType T)) ↔
      IsPiece '|' 0 (declaredType T) ∨ (declaredType T).head? ≠ some '('

/-- **How rest parameters are declared.** -/
theorem declaresRest (n : Identifier) (hT : GroupBody T) (ht : trim T = T) (hne : T ≠ [])
    (hdots : ("..." : Text).isPrefixOf T = false) : DeclaresRest T n where
  dottedName h :=
    mem_documentedFields (Field.ofBlock?_rest n hT ht hne hdots) (n.not_mem (by decide)) h
  restArgument h _ _ hi deprecated subject :=
    getElem?_align_rest (nodup_name_documentedFields _ "param")
      (mem_documentedFields (Field.ofBlock?_named n hT ht hne hdots) (n.not_mem (by decide)) h)
      rfl hi deprecated subject
  dottedType hpiece _ h := by
    have hfield := Field.ofBlock?_restType n hT (trim_dots ht)
    rw [declaredType_dots ht hpiece] at hfield
    exact mem_documentedFields hfield (n.not_mem (by decide)) h
  dottedUnion hbalanced hunion _ h := by
    have hparen : GroupBody ('(' :: (T ++ [')'])) := .group rfl hT .nil
    have hfield := Field.ofBlock?_restType n hparen (trim_dots (trim_parenthesised T))
    rw [declaredType_dots_union hbalanced ht hunion] at hfield
    exact mem_documentedFields hfield (n.not_mem (by decide)) h
  isArrayOf_iff := isArrayOf_brackets_iff
  isArrayOf_restType_iff := isArrayOf_restType_iff

/-- A single type in each of the three ways, and a union in brackets. -/
theorem declaresRest_of_number_and_union :
    { type := "number[]", name := "values", rest := true } ∈
        parameters "/**\n * @param {number} ...values\n */" ∧
      (align (some [.name "key", .rest "values"])
        (parameters "/**\n * @param {number} values\n */") false "f").value[1]? =
          some { type := "number[]", name := "values", rest := true } ∧
      { type := "number[]", name := "values", rest := true } ∈
        parameters "/**\n * @param {...number} values\n */" ∧
      { type := "(string|number)[]", name := "values", rest := true } ∈
        parameters "/**\n * @param {...(string|number)} values\n */" := by
  have hplain {w : Text} (hw : (w.all fun c => !isMark c) = true) : Balanced true w := by
    simpa using Balanced.plain_append hw (fun _ => rfl) .nil
  have honly (comment : Text) {block : Text} (h : tagBlocks comment "param" = [block]) :
      IsOnlyBlock comment "param" "values" block := ⟨[], [], h, by simp⟩
  have hnumber := declaresRest (T := "number") ⟨"values", by decide, List.all_eq_true.1 (by decide)⟩
    (hplain (by decide +kernel)).groupBody (by decide +kernel) (by decide) (by decide)
  have hunion := declaresRest (T := "string|number")
    ⟨"values", by decide, List.all_eq_true.1 (by decide)⟩
    (hplain (by decide +kernel)).groupBody (by decide +kernel) (by decide) (by decide)
  have hform : declaredType "number" = "number".toList ∧
      declaredType "string|number" = "string|number".toList ∧
      restType "number" = "number[]".toList := by
    decide +kernel
  have hname := @hnumber.dottedName
  have hargument := @hnumber.restArgument
  have htype := @hnumber.dottedType
  have hbrackets := @hunion.dottedUnion
  rw [hform.1] at hname hargument htype
  rw [hform.2.1] at hbrackets
  rw [hform.2.2] at htype
  refine ⟨hname (honly _ ?_), hargument (honly _ ?_) rfl false "f", htype ?_ (honly _ ?_),
    hbrackets (hplain ?_) ?_ (honly _ ?_)⟩
  all_goals decide +kernel

/-- Brackets stand around a union only with dots in front of the type. -/
theorem not_isArrayOf_union :
    { type := "string|number[]", name := "values", rest := true } ∈
        parameters "/**\n * @param {string|number} ...values\n */" ∧
      (align (some [.rest "values"])
        (parameters "/**\n * @param {string|number} values\n */") false "f").value =
          [{ type := "string|number[]", name := "values", rest := true }] ∧
      ¬IsArrayOf (declaredType "string|number") "string|number[]" ∧
      { type := "(string|number)[]", name := "values", rest := true } ∈
        parameters "/**\n * @param {...(string|number)} values\n */" ∧
      IsArrayOf (declaredType "string|number") "(string|number)[]" := by
  decide +kernel

end DocDecl
