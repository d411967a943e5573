import DocDecl.Proofs.Pattern.Template
import DocDecl.Settings.OfDocument
import Mathlib.Data.List.TakeWhile

/-!
# Settings that are accepted

A document that is accepted gives settings whose patterns can all be read. Two things are not looked
at. The signs in front of the name of a tag are taken off after it is known not to be empty, so a
text of signs alone gives the empty name. And the templates of rules are read only when a source is
prepared, so a wrong template is accepted, and then it fails for every source.

## Main definitions

* `IsSigns` : an option that is a text of signs alone.
* `AcceptedSettings` : what is known of settings that are accepted.

## Main results

* `applyRules_eq_error_iff` : rules fail on every text or on none.
* `acceptedSettings_ofDocument` : what is known of the settings of every accepted document.
* `acceptedSettings_groupsDocument` : a template that names groups.
* `not_usable_of_sign_and_group` : an empty name, and a template with a group that is not there.
-/

namespace DocDecl

variable {d : Document} {s : Settings} {root : Option Location} {importer : Importer}

/-! ### Names of tags -/

/-- An option is a text that has signs of tags only. -/
def IsSigns (o : Option Document) : Prop :=
  ∃ w, o.bind Document.asName? = some w ∧ ∀ c ∈ w, c = '@'

/-- The name of a tag that an option gives. -/
def tagOption (o : Option Document) (standard : Text) : Text :=
  (o.bind Document.asTag?).getD standard

theorem bind_asTag? (o : Option Document) :
    o.bind Document.asTag? = (o.bind Document.asName?).map (List.dropWhile (· = '@')) := by
  cases o <;> rfl

theorem head?_tagOption (o : Option Document) {standard : Text} (h : standard.head? ≠ some '@') :
    (tagOption o standard).head? ≠ some '@' := by
  rw [tagOption, bind_asTag?]
  cases o.bind Document.asName? with
  | none => exact h
  | some w =>
    intro hsign
    have hhead := List.head?_dropWhile_not (· = '@') w
    rw [show (w.dropWhile (· = '@')).head? = some '@' from hsign] at hhead
    simp at hhead

theorem tagOption_eq_nil_iff (o : Option Document) {standard : Text} (h : standard ≠ []) :
    tagOption o standard = [] ↔ IsSigns o := by
  rw [tagOption, bind_asTag?, IsSigns]
  cases o.bind Document.asName? with
  | none => simpa using h
  | some w => simp [List.dropWhile_eq_nil_iff]

/-! ### Rules -/

/-- Rules fail on every text or on none, and as the first one that is wrong. -/
theorem applyRules_eq_error_iff {rules : List ReplacementRule} {f : RuleFault} (t : Text) :
    Settings.applyRules rules t = .error f ↔
      rules.findSome? ReplacementRule.fault? = some f := by
  induction rules generalizing t with
  | nil => exact iff_of_false (fun h => nomatch h) fun h => nomatch h
  | cons r rules ih =>
    rw [Settings.applyRules, List.foldlM_cons, List.findSome?_cons, bind_eq_error_iff,
      r.apply_eq_error_iff]
    cases hfault : r.fault? with
    | some g =>
      have happly := (r.apply_eq_error_iff t).2 hfault
      simp [happly]
    | none =>
      cases happly : r.apply t with
      | error g =>
        have hsome := (r.apply_eq_error_iff t).1 happly
        rw [hfault] at hsome
        cases hsome
      | ok t' => simpa [Settings.applyRules] using ih t'

/-- Rules are applied to any text exactly if all of them are right. -/
theorem exists_applyRules_iff {rules : List ReplacementRule} (t : Text) :
    (∃ t', Settings.applyRules rules t = .ok t') ↔ ∀ r ∈ rules, r.IsRight := by
  have hright : rules.findSome? ReplacementRule.fault? = none ↔ ∀ r ∈ rules, r.IsRight := by
    simp only [List.findSome?_eq_none_iff, ReplacementRule.fault?_eq_none_iff]
  rw [← hright]
  cases h : Settings.applyRules rules t with
  | error f => simp [(applyRules_eq_error_iff t).1 h]
  | ok t' =>
    cases hfault : rules.findSome? ReplacementRule.fault? with
    | none => simp
    | some f =>
      rw [(applyRules_eq_error_iff t).2 hfault] at h
      cases h

/-! ### Accepted documents -/

/-- What is known of settings that are accepted. -/
structure AcceptedSettings (d : Document) (s : Settings) : Prop where
  /-- No name of a tag begins with a sign. -/
  no_sign : s.importTag.head? ≠ some '@' ∧ s.exportTag.head? ≠ some '@'
  /-- The name of the import tag is empty only where a text of signs is given for it. -/
  importTag_eq_nil_iff : s.importTag = [] ↔ IsSigns (d.get? "import_tag")
  /-- The name of the export tag is empty only where a text of signs is given for it. -/
  exportTag_eq_nil_iff : s.exportTag = [] ↔ IsSigns (d.get? "export_tag")
  /-- The pattern of every rule can be read. -/
  compiles : ∀ r ∈ s.rules, ∃ p, r.compile = .ok p
  /-- A fault of the rules is that of a template, and does not depend on the source. -/
  fails_iff : ∀ t f, Settings.applyRules s.rules t = .error f ↔
    s.rules.findSome? ReplacementRule.fault? = some f
  /-- The rules are applied to a source exactly if every template is right for its pattern. -/
  applies_iff : ∀ t, (∃ t', Settings.applyRules s.rules t = .ok t') ↔ ∀ r ∈ s.rules, r.IsRight

theorem get?_of_isEmpty (h : d.isEmpty = true) (key : Text) : d.get? key = none := by
  cases d with
  | mapping es =>
    rw [Document.isEmpty, List.isEmpty_iff] at h
    rw [h]
    rfl
  | _ => rfl

theorem options_of_ofDocument (h : Settings.ofDocument root d importer = .ok s) :
    s.importTag = tagOption (d.get? "import_tag") "timport" ∧
      s.exportTag = tagOption (d.get? "export_tag") "texport" ∧ rulesOf d = .ok s.rules := by
  rw [Settings.ofDocument.eq_def] at h
  by_cases hempty : d.isEmpty = true
  · rw [if_pos hempty] at h
    obtain rfl := Except.ok.inj h
    rw [rulesOf, get?_of_isEmpty hempty, get?_of_isEmpty hempty, get?_of_isEmpty hempty]
    exact ⟨rfl, rfl, rfl⟩
  · rw [if_neg hempty] at h
    cases d with
    | mapping es =>
      obtain ⟨rules, hrules, h⟩ := bind_eq_ok_iff.1 h
      obtain ⟨_, -, h⟩ := bind_eq_ok_iff.1 h
      obtain ⟨_, -, h⟩ := bind_eq_ok_iff.1 h
      obtain rfl := Except.ok.inj h
      exact ⟨rfl, rfl, hrules⟩
    | _ => cases h

/-- The settings of every accepted document have names of tags without signs, which are empty only
where nothing but signs is given, and rules that all sources are prepared with, unless a template is
wrong. -/
theorem acceptedSettings_ofDocument (h : Settings.ofDocument root d importer = .ok s) :
    AcceptedSettings d s := by
  obtain ⟨himport, hexport, hrules⟩ := options_of_ofDocument h
  exact
    { no_sign := by
        rw [himport, hexport]
        exact ⟨head?_tagOption _ (by decide), head?_tagOption _ (by decide)⟩
      importTag_eq_nil_iff := himport ▸ tagOption_eq_nil_iff _ (by decide)
      exportTag_eq_nil_iff := hexport ▸ tagOption_eq_nil_iff _ (by decide)
      compiles := fun r hr => compile_of_mem_rulesOf hrules hr
      fails_iff := fun t f => applyRules_eq_error_iff t
      applies_iff := fun t => exists_applyRules_iff t }

/-- A document with signs in front of a name, and a template with two groups of its pattern. -/
def groupsDocument : Document :=
  .mapping [(.text "import_tag", .text "@@use"), (.text "replacements", .list [.mapping
    [(.text "pattern", .text "(a)(?P<n>b)"), (.text "replacement", .text "\\g<n>\\1")]])]

theorem acceptedSettings_groupsDocument :
    ∃ s, Settings.ofDocument none groupsDocument = .ok s ∧ s.importTag = "use".toList ∧
      Settings.applyRules s.rules "xab" = .ok "xba".toList ∧ AcceptedSettings groupsDocument s := by
  have haccepted : Settings.ofDocument none groupsDocument = .ok _ := rfl
  exact ⟨_, haccepted, by decide +kernel, by decide +kernel,
    acceptedSettings_ofDocument haccepted⟩

/-- A text of one sign, and the number of a group that the pattern has not. -/
theorem not_usable_of_sign_and_group :
    (∃ s, Settings.ofDocument none (.mapping [(.text "import_tag", .text "@")]) = .ok s ∧
      s.importTag = []) ∧
    ∃ s, Settings.ofDocument none (.mapping [(.text "replacements", .list [.mapping
        [(.text "pattern", .text "a"), (.text "replacement", .text "\\9")]])]) = .ok s ∧
      ∀ t, Settings.applyRules s.rules t = .error .badTemplate := by
  refine ⟨⟨_, rfl, rfl⟩, _, rfl, fun t => (applyRules_eq_error_iff t).2 ?_⟩
  decide +kernel

end DocDecl
