import DocDecl.Proofs.Parameter.Line

/-!
# Lines of optional parameters

An optional parameter is documented by its name in square brackets, with its default behind an equal
sign. The brackets are not matched: the default ends at the first closing bracket, so a default that
holds one is cut there, and the rest of it is taken for the beginning of the description.

## Main definitions

* `optionalLine` : the line of an optional parameter.
* `ReadsOptional` : what is read from it.

## Main results

* `readsOptional` : when the line is read as it is written.
* `not_read_of_array_default` : a default that is cut.
-/

namespace DocDecl

open Text

variable {d D S T r w : Text}

/-- The line of an optional parameter with a default and a description. -/
def optionalLine (type name default description : Text) : Text :=
  "@param " ++ '{' :: (type ++
    '}' :: ' ' :: '[' :: (name ++ '=' :: (default ++ ("] - " ++ description))))

namespace ParamParts

/-! ### The name and the default in brackets -/

theorem trimLeft_path_append (hne : w ≠ []) (hw : ∀ c ∈ w, isPathChar c = true) (r : Text) :
    trimLeft (w ++ r) = w ++ r := by
  obtain ⟨c, w, rfl⟩ := List.exists_cons_of_ne_nil hne
  have hc := isBlank_eq_false_of_isPathChar (hw c List.mem_cons_self)
  exact List.dropWhile_cons_of_neg (by simp [hc])

/-- The default ends at the first closing bracket. -/
theorem optionalName?_default (hne : w ≠ []) (hw : ∀ c ∈ w, isPathChar c = true) (hd : ']' ∉ d)
    (r : Text) :
    optionalName? (' ' :: '[' :: (w ++ '=' :: (d ++ ']' :: r))) = some (w, trim d, r) := by
  have hopen (t : Text) : trimLeft (' ' :: '[' :: t) = '[' :: t := rfl
  have hequal (t : Text) : trimLeft ('=' :: t) = '=' :: t := rfl
  have hplain : ∀ c ∈ d, decide (c ≠ ']') = true := fun c hc =>
    decide_eq_true (ne_of_mem_of_not_mem hc hd)
  have htake : (d ++ ']' :: r).takeWhile (· ≠ ']') = d := by
    rw [List.takeWhile_append_of_pos hplain]
    exact List.append_nil d
  have hdrop : (d ++ ']' :: r).dropWhile (· ≠ ']') = ']' :: r :=
    List.dropWhile_append_of_pos hplain
  have hname : (w ++ '=' :: (d ++ ']' :: r)).takeWhile isPathChar = w := by
    rw [List.takeWhile_append_of_pos hw, List.takeWhile_cons_of_neg (by decide), List.append_nil]
  have hbehind : (w ++ '=' :: (d ++ ']' :: r)).dropWhile isPathChar = '=' :: (d ++ ']' :: r) := by
    rw [List.dropWhile_append_of_pos hw, List.dropWhile_cons_of_neg (by decide)]
  simp only [optionalName?, hopen, trimLeft_path_append hne hw, hname, hbehind, hequal, if_neg hne,
    htake, hdrop]

/-- The dash in front of a description is left out. -/
theorem descriptionOf_dash (S : Text) : descriptionOf (" - " ++ S) = trim S := by
  have hdash : trimLeft (" - " ++ S) = '-' :: ' ' :: S := rfl
  rw [descriptionOf, hdash]
  exact trim_blanks_append (s := " ") (by decide) S

/-- A line is read up to the first closing bracket behind the name. -/
theorem ofLine_optional (hT : GroupBody T) (ht : trim T = T) (hne : w ≠ [])
    (hw : ∀ c ∈ w, isPathChar c = true) (hd : ']' ∉ d)
    (hcut : D ++ ("] - " ++ S) = d ++ ']' :: r) :
    ofLine (optionalLine T w D S) = ⟨some T, some w, true, trim d, descriptionOf r⟩ := by
  have hline := ofLine_braced (p := "@param ") (by decide) hT
    (' ' :: '[' :: (w ++ '=' :: (D ++ ("] - " ++ S))))
  have hbehind : behindType T (' ' :: '[' :: (w ++ '=' :: (D ++ ("] - " ++ S)))) =
      ⟨some T, some w, true, trim d, descriptionOf r⟩ := by
    rw [hcut]
    simp only [behindType, optionalName?_default hne hw hd]
  rw [ht, hbehind] at hline
  exact hline

end ParamParts

/-! ### What is read -/

/-- What is read from the line of an optional parameter. -/
structure ReadsOptional (type name default description : Text) : Prop where
  /-- The type and the name are read, and that the parameter is optional. -/
  declared : let parts := ParamParts.ofLine (optionalLine type name default description)
    parts.type? = some type ∧ parts.name? = some name ∧ parts.optional = true
  /-- A default that holds a closing bracket is cut at the first one, and the description begins
  with the rest of it. -/
  cut {d r : Text} (hcut : default = d ++ ']' :: r) (hd : ']' ∉ d) :
    ParamParts.ofLine (optionalLine type name default description) =
      ⟨some type, some name, true, trim d, ParamParts.descriptionOf (r ++ ("] - " ++ description))⟩
  /-- Everything is read as it is written exactly if no closing bracket stands in the default. -/
  reads_iff : ParamParts.ofLine (optionalLine type name default description) =
    ⟨some type, some name, true, default, description⟩ ↔ ']' ∉ default

/-- **Optional parameters.** -/
theorem readsOptional (hT : GroupBody T) (ht : trim T = T) (hne : w ≠ [])
    (hw : ∀ c ∈ w, ParamParts.isPathChar c = true) (hD : trim D = D) (hS : trim S = S) :
    ReadsOptional T w D S := by
  have hcut {d r : Text} (hD : D = d ++ ']' :: r) (hd : ']' ∉ d) :
      ParamParts.ofLine (optionalLine T w D S) =
        ⟨some T, some w, true, trim d, ParamParts.descriptionOf (r ++ ("] - " ++ S))⟩ :=
    ParamParts.ofLine_optional hT ht hne hw hd (by simp [hD])
  have hwhole (hmem : ']' ∉ D) :
      ParamParts.ofLine (optionalLine T w D S) = ⟨some T, some w, true, D, S⟩ := by
    rw [ParamParts.ofLine_optional hT ht hne hw hmem (r := " - " ++ S) rfl, hD,
      ParamParts.descriptionOf_dash, hS]
  refine ⟨?_, hcut, fun h hmem => ?_, hwhole⟩
  · by_cases hmem : ']' ∈ D
    · obtain ⟨d, r, hDeq, hd⟩ := List.eq_append_cons_of_mem hmem
      rw [hcut hDeq hd]
      exact ⟨rfl, rfl, rfl⟩
    · rw [hwhole hmem]
      exact ⟨rfl, rfl, rfl⟩
  · obtain ⟨d, r, hDeq, hd⟩ := List.eq_append_cons_of_mem hmem
    rw [hcut hDeq hd, ParamParts.mk.injEq] at h
    have hlength := congrArg List.length h.2.2.2.1
    have hle := length_trim_le d
    rw [hDeq, List.length_append, List.length_cons] at hlength
    omega

/-- A default with brackets of other kinds. -/
theorem readsOptional_of_object_default :
    ParamParts.ofLine
        "@param \x7bObject<string, number>\x7d [opts.depth=\x7b a: (1) \x7d] - How deep to go" =
      ⟨some "Object<string, number>", some "opts.depth", true, "\x7b a: (1) \x7d",
        "How deep to go"⟩ := by
  have hT : Balanced true "Object<string, number>" :=
    .plain_append (w := "Object<string, number>") (by decide +kernel) (fun _ => rfl) .nil
  have h := readsOptional (T := "Object<string, number>") (w := "opts.depth")
    (D := "\x7b a: (1) \x7d") (S := "How deep to go") hT.groupBody (by decide) (by decide)
    (List.all_eq_true.1 (by decide +kernel)) (by decide) (by decide)
  have hline : optionalLine "Object<string, number>" "opts.depth" "\x7b a: (1) \x7d"
      "How deep to go" =
        "@param \x7bObject<string, number>\x7d [opts.depth=\x7b a: (1) \x7d] - How deep to go" := by
    decide +kernel
  rw [← hline]
  exact h.reads_iff.2 (by decide)

/-- Of a default that is an empty array, the closing bracket goes to the description. -/
theorem not_read_of_array_default :
    GroupBody "number[]" ∧ Balanced true "[]" ∧
      optionalLine "number[]" "values" "[]" "The values" =
        "@param \x7bnumber[]\x7d [values=[]] - The values" ∧
      ParamParts.ofLine "@param \x7bnumber[]\x7d [values=[]] - The values" =
        ⟨some "number[]", some "values", true, "[", "] - The values"⟩ ∧
      ParamParts.ofLine "@param \x7bnumber[]\x7d [values=[]] - The values" ≠
        ⟨some "number[]", some "values", true, "[]", "The values"⟩ := by
  have hbrackets : Balanced true "[]" := .group rfl .nil .nil
  have htype : Balanced true "number[]" :=
    .plain_append (w := "number") (by decide +kernel) (fun _ => rfl) hbrackets
  exact ⟨htype.groupBody, hbrackets, by decide +kernel⟩

end DocDecl
