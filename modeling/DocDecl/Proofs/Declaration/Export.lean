import DocDecl.Declaration.Module
import DocDecl.Proofs.Parameter.Line

/-!
# Typed exports

The type of an export goes up to the first closing brace, while that of any other tag goes up to the
brace that closes it. The two are the same where no closing brace stands in the type. Where one
does, something else than one name follows the first of them, and the export is taken over word for
word.

## Main definitions

* `bracedName` : a type in braces and a name.
* `typedStatement` : the statement for a type and a name.
* `ReadsExport` : how exports of one name are read.

## Main results

* `ParamParts.ofLine_bracedName_iff` : which types other tags read.
* `readsExport` : exports are read exactly if their types have no closing brace.
* `not_typed_of_object` : a type that other tags read.
-/

namespace DocDecl

open LiteralGrammar Text

variable {T p t : Text} {n : Identifier}

/-- A type in braces and a name. -/
def bracedName (type name : Text) : Text := '{' :: (type ++ '}' :: ' ' :: name)

/-- The statement for a type and a name: a function or a constant of the type. -/
def typedStatement (type name : Text) : Text :=
  if type = "Function".toList then "export function " ++ name ++ "(): void"
  else "export const " ++ name ++ ": " ++ type

/-! ### Other tags -/

/-- Only one text stands in braces in front of a name. -/
theorem eq_of_trim_eq {s r : Text} (hs : trim s = T)
    (h : s ++ '}' :: r = T ++ '}' :: ' ' :: n.text) : s = T := by
  rw [List.append_eq_append_iff] at h
  rcases h with ⟨a, ha, -⟩ | ⟨a, ha, hr⟩
  · -- a part of the type is not longer than the type
    have hle := length_trim_le s
    rw [hs, ha, List.length_append] at hle
    have hnil : a = [] := List.length_eq_zero_iff.1 (by omega)
    rw [ha, hnil, List.append_nil]
  · cases a with
    | nil => rw [ha, List.append_nil]
    | cons c a =>
      rw [List.cons_append, List.cons.injEq] at hr
      have hmem : '}' ∈ ' ' :: n.text := by simp [hr.2]
      rw [List.mem_cons] at hmem
      exact absurd (hmem.resolve_left (by decide)) (n.not_mem (by decide))

/-- Other tags read the type and the name exactly if all brackets in the type are closed. -/
theorem ParamParts.ofLine_bracedName_iff (hp : '{' ∉ p) (ht : trim T = T) :
    (ofLine (p ++ bracedName T n.text)).type? = some T ∧
        (ofLine (p ++ bracedName T n.text)).name? = some n.text ↔ GroupBody T := by
  constructor
  · rintro ⟨htype, -⟩
    rw [type?_ofLine, bracedType?, bracedName, dropWhile_ne_brace hp,
      Option.map_eq_some_iff] at htype
    obtain ⟨⟨g, r⟩, hgroup, hg⟩ := htype
    obtain ⟨hafter, hline⟩ := group?_eq_some_iff.1 hgroup
    obtain ⟨g', hg', hline'⟩ := afterGroup?_eq_some_iff.1 hafter
    obtain rfl : g = g' := List.append_cancel_right (hline.symm.trans hline')
    cases hg' with
    | @intro o k s hk hs =>
      simp only [insideGroup_append] at hg
      obtain ⟨rfl, hbody⟩ : '{' = o ∧ T ++ '}' :: ' ' :: n.text = s ++ k :: r := by
        simpa using hline
      obtain rfl : '}' = k := Option.some.inj hk
      exact eq_of_trim_eq hg hbody.symm ▸ hs
  · intro hT
    rw [bracedName, ofLine_braced hp hT, ht,
      behindType_path T n.ne_nil fun _ => n.isPathChar_of_mem]
    exact ⟨rfl, rfl⟩

/-! ### Exports -/

theorem mem_dropWhile_of_neg {f : Char → Bool} {c : Char} (hc : c ∈ t) (hf : f c = false) :
    c ∈ t.dropWhile f := by
  rw [← List.takeWhile_append_dropWhile (p := f) (l := t), List.mem_append] at hc
  refine hc.resolve_left fun h => ?_
  rw [List.mem_takeWhile_imp h] at hf
  exact Bool.noConfusion hf

theorem typedExport?_of_notMem (h : '}' ∉ T) (n : Identifier) :
    typedExport? (bracedName T n.text) = some (T, n.text) := by
  have hne : ∀ c ∈ T, decide (c ≠ '}') = true := fun c hc =>
    decide_eq_true (ne_of_mem_of_not_mem hc h)
  have hdrop : (T ++ '}' :: ' ' :: n.text).dropWhile (· ≠ '}') = '}' :: ' ' :: n.text :=
    (List.dropWhile_append_of_pos hne).trans rfl
  have htake : (T ++ '}' :: ' ' :: n.text).takeWhile (· ≠ '}') = T := by
    rw [List.takeWhile_append_of_pos hne]
    simp
  have htrim : trimLeft (' ' :: n.text) = n.text :=
    ParamParts.trimLeft_blank_path fun _ => n.isPathChar_of_mem
  have hname : n.text.takeWhile isNameChar = n.text ∧ n.text.dropWhile isNameChar = [] :=
    ⟨List.takeWhile_eq_self_iff.2 n.isNameChar_of_mem,
      List.dropWhile_eq_nil_iff.2 n.isNameChar_of_mem⟩
  simp only [typedExport?, bracedName, hdrop, htake, htrim, hname.1, hname.2]
  exact if_pos ⟨n.ne_nil, rfl⟩

theorem typedExport?_of_mem (h : '}' ∈ T) (n : Identifier) :
    typedExport? (bracedName T n.text) = none := by
  obtain ⟨u, v, rfl, hu⟩ := List.eq_append_cons_of_mem h
  have hdrop : (u ++ '}' :: v ++ '}' :: ' ' :: n.text).dropWhile (· ≠ '}') =
      '}' :: (v ++ '}' :: ' ' :: n.text) := by
    rw [List.append_assoc]
    refine (List.dropWhile_append_of_pos fun c hc => ?_).trans rfl
    exact decide_eq_true (ne_of_mem_of_not_mem hc hu)
  -- the last brace is neither a blank nor a character of a name
  have hlast : '}' ∈ (trimLeft (v ++ '}' :: ' ' :: n.text)).dropWhile isNameChar :=
    mem_dropWhile_of_neg
      (mem_dropWhile_of_neg (List.mem_append_right v List.mem_cons_self) (by decide))
      (by decide +kernel)
  simp only [typedExport?, bracedName, hdrop]
  refine if_neg fun hblank => ?_
  exact absurd (List.all_eq_true.1 hblank.2 _ hlast) (by decide)

theorem exportStatement_of_notMem (h : '}' ∉ T) (n : Identifier) :
    exportStatement (bracedName T n.text) = typedStatement (declaredType T) n.text := by
  rw [exportStatement, typedExport?_of_notMem h]
  rfl

theorem exportStatement_of_mem (h : '}' ∈ T) (n : Identifier) :
    exportStatement (bracedName T n.text) = "export " ++ bracedName T n.text := by
  rw [exportStatement, typedExport?_of_mem h]

/-- A statement has a keyword where the text that is taken over has a brace. -/
theorem verbatim_ne_typedStatement (T t type name : Text) :
    "export " ++ bracedName T t ≠ typedStatement type name := by
  rw [typedStatement]
  split_ifs <;> simp [bracedName]

/-- How the exports of a name are read. -/
structure ReadsExport (n : Identifier) : Prop where
  /-- Other tags read a type and the name exactly if all brackets in the type are closed. -/
  other_tags_iff : ∀ p T, '{' ∉ p → trim T = T →
    ((ParamParts.ofLine (p ++ bracedName T n.text)).type? = some T ∧
      (ParamParts.ofLine (p ++ bracedName T n.text)).name? = some n.text ↔ GroupBody T)
  /-- An export of a type is stated exactly if the type has no closing brace. -/
  export_iff : ∀ T,
    exportStatement (bracedName T n.text) = typedStatement (declaredType T) n.text ↔ '}' ∉ T
  /-- Any other export is taken over word for word. -/
  verbatim : ∀ T, '}' ∈ T → exportStatement (bracedName T n.text) = "export " ++ bracedName T n.text

/-- Exports are read as other tags are where no closing brace stands in their types. -/
theorem readsExport (n : Identifier) : ReadsExport n where
  other_tags_iff _ _ hp ht := ParamParts.ofLine_bracedName_iff hp ht
  export_iff T := by
    refine ⟨fun h hmem => ?_, fun h => exportStatement_of_notMem h n⟩
    rw [exportStatement_of_mem hmem] at h
    exact verbatim_ne_typedStatement T n.text _ _ h
  verbatim _ h := exportStatement_of_mem h n

/-- An object type, which other tags read. -/
theorem not_typed_of_object :
    ParamParts.ofLine "@x \x7b\x7ba: number\x7d\x7d n" =
        { type? := some "\x7ba: number\x7d", name? := some "n" } ∧
      declaredType "\x7ba: number\x7d" = "\x7ba: number\x7d" ∧
      exportStatement "\x7b\x7ba: number\x7d\x7d n" = "export \x7b\x7ba: number\x7d\x7d n" ∧
      exportStatement "\x7b\x7ba: number\x7d\x7d n" ≠ "export const n: \x7ba: number\x7d" := by
  decide +kernel

end DocDecl
