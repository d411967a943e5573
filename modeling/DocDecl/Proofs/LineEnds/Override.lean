import DocDecl.Comment.Extraction
import DocDecl.Proofs.LineEnds.Text

/-!
# Overrides and line ends

The override tag is read only with a line feed directly behind it. Where all lines end with carriage
returns it stands nowhere, so no block gives its declaration word for word, and all of it stays in
the comment.

## Main results

* `override_of_mem_areas` : without the override tag no area has an override.
* `contains_overrideTag_dosLines` : the override tag stands nowhere in front of a carriage return.
-/

namespace DocDecl

open Text

/-- The tag of an override, with the margin of the line behind it. -/
def overrideTag : Text := "@tsdeclaration\n * "

variable {t : Text}

theorem contains_eq_false_of_isInfix {p s : Text} (h : s <:+: t)
    (ht : Text.contains p t = false) : Text.contains p s = false := by
  rw [Bool.eq_false_iff, ne_eq, contains_iff_isInfix] at ht ⊢
  exact fun hs => ht (hs.trans h)

theorem cut?_eq_none {p : Text} (h : Text.contains p t = false) : cut? p t = none := by
  rw [cut?, Option.map_eq_none_iff]
  simpa [Text.contains] using h

/-- Without the tag there is no override. -/
theorem overrideOf_eq_nil (h : Text.contains overrideTag t = false) : overrideOf t = [] := by
  rw [overrideOf]
  generalize hcut : cut? _ t = o
  obtain rfl : o = none := hcut.symm.trans (cut?_eq_none h)
  rfl

/-- Without the tag nothing is cut out. -/
theorem withoutOverride_eq_self (h : Text.contains overrideTag t = false) :
    withoutOverride t = t := by
  have hlong : Text.contains (" * " ++ overrideTag) t = false := by
    rw [Bool.eq_false_iff, ne_eq, contains_iff_isInfix] at h ⊢
    exact fun hl => h ((List.suffix_append _ overrideTag).isInfix.trans hl)
  have htag : " * @tsdeclaration\n * ".toList = " * " ++ overrideTag := rfl
  rw [withoutOverride]
  generalize hcut : cut? _ t = o
  obtain rfl : o = none := by rw [← hcut, htag, cut?_eq_none hlong]
  rfl

/-- No line feed follows the name of the tag where all lines end with carriage returns. -/
theorem contains_overrideTag_dosLines (t : Text) :
    Text.contains overrideTag (dosLines t) = false := by
  rw [Bool.eq_false_iff, ne_eq, contains_iff_isInfix]
  have hfeed : ['n', '\n'] <:+: overrideTag := ⟨"@tsdeclaratio", " * ", rfl⟩
  exact fun h => not_infix_dosLines (by decide) (hfeed.trans h)

theorem override_of_mem_areas {marker : Text} {kind : AreaKind}
    (h : Text.contains overrideTag t = false) {a : Area} (ha : a ∈ areas t marker kind) :
    a.override = [] := by
  obtain ⟨o, -, rfl⟩ := List.mem_map.1 ha
  cases o with
  | loose pos => rfl
  | inBlock pos start stop =>
    refine overrideOf_eq_nil (contains_eq_false_of_isInfix ?_ h)
    exact (List.drop_suffix _ _).isInfix.trans (List.take_prefix _ _).isInfix

end DocDecl
