import DocDecl.Document.Basic
import DocDecl.Settings.Basic
import DocDecl.Settings.Hook
import DocDecl.Text.Blank
import DocDecl.Text.Letter

/-!
# Settings from a document

A settings document is a mapping. Options that it does not give keep their defaults, and so do those
whose values are of no use. Rules and hooks have to be right: a pattern that cannot be read and a
reference that leads nowhere are refused.

## Main definitions

* `SettingsFault`, `SettingsFault.message` : why settings are refused.
* `Document.asTag?`, `Document.asFlag?` : the values of options.
* `rulesOf` : the rules of a document.
* `Settings.ofDocument` : the settings of a document.

## Main results

* `compile_of_mem_rulesOf` : the pattern of every rule can be read.
-/

namespace DocDecl

/-! ### Faults -/

/-- Why settings are refused. -/
inductive SettingsFault where
  /-- The document cannot be read. -/
  | unreadable (file : Text)
  /-- The document is no mapping. -/
  | noMapping
  /-- The rules are no list. -/
  | noRuleList
  /-- A rule has no pattern. -/
  | noPattern
  /-- The pattern of a rule cannot be read. -/
  | badPattern (pattern : Text)
  /-- A hook leads nowhere. -/
  | hook (f : HookFault)
  /-- There are no options of these names. -/
  | unknownOptions (names : List Text)
  deriving DecidableEq, Repr

/-- The name of the file that settings are kept in. -/
def settingsFileName : Text := ".tsdecgen.yml"

/-- The wording of a fault. -/
def SettingsFault.message : SettingsFault → Text
  | unreadable file => "Failed to parse " ++ file
  | noMapping => settingsFileName ++ " must contain a mapping at the root"
  | noRuleList => "replacements must be a list of \x7bpattern, replacement\x7d mappings"
  | noPattern => "Each replacement needs at least a pattern"
  | badPattern pattern => "Invalid replacement pattern " ++ Text.quoted pattern
  | hook f => f.message
  | unknownOptions names => "Unknown configuration options: " ++ Text.join ", " names

/-! ### Options -/

/-- A text or a number as text. -/
def Document.asText? : Document → Option Text
  | text t => some t
  | int n => some (intText n)
  | fraction shown => some shown
  | _ => none

/-- A text or a number as text, if that is not empty. -/
def Document.asName? (d : Document) : Option Text := d.asText?.filter (· ≠ [])

/-- The name of a tag, without the signs in front of it. -/
def Document.asTag? (d : Document) : Option Text := d.asName?.map (List.dropWhile (· = '@'))

/-- A truth value, or a text that means one. -/
def Document.asFlag? : Document → Option Bool
  | bool b => some b
  | text t =>
    let w := Text.lower (Text.trim t)
    if w ∈ (["true", "yes", "1"] : List Text) then some true
    else if w ∈ (["false", "no", "0"] : List Text) then some false
    else none
  | _ => none

/-! ### Rules -/

/-- The rule of an item. A replacement that is missing or counts as empty is the empty text. -/
def ruleOf (d : Document) : Except SettingsFault ReplacementRule :=
  match d.get? "pattern" with
  | none => .error .noPattern
  | some p =>
    let template := ((d.get? "replacement").filter fun r => !r.isEmpty).map Document.shown
    let rule : ReplacementRule := ⟨p.shown, template.getD []⟩
    match rule.compile with
    | .ok _ => .ok rule
    | .error _ => .error (.badPattern p.shown)

/-- The rules of a document. -/
def rulesOf (d : Document) : Except SettingsFault (List ReplacementRule) :=
  match (d.get? "replacements").getD .null with
  | .null => .ok []
  | .list items => items.mapM ruleOf
  | _ => .error .noRuleList

theorem compile_of_ruleOf {d : Document} {r : ReplacementRule} (h : ruleOf d = .ok r) :
    ∃ p, r.compile = .ok p := by
  unfold ruleOf at h
  split at h
  · simp at h
  · dsimp only at h
    split at h
    · next p hp =>
      simp only [Except.ok.injEq] at h
      exact ⟨p, h ▸ hp⟩
    · simp at h

theorem compile_of_mem_mapM_ruleOf {items : List Document} {rs : List ReplacementRule}
    (h : items.mapM ruleOf = .ok rs) {r : ReplacementRule} (hr : r ∈ rs) :
    ∃ p, r.compile = .ok p := by
  induction items generalizing rs with
  | nil =>
    simp only [List.mapM_nil, pure, Except.pure, Except.ok.injEq] at h
    simp [← h] at hr
  | cons d items ih =>
    rw [List.mapM_cons] at h
    cases hd : ruleOf d with
    | error e => simp [hd, bind, Except.bind] at h
    | ok r' =>
      cases hi : items.mapM ruleOf with
      | error e => simp [hd, hi, bind, Except.bind] at h
      | ok rs' =>
        simp only [hd, hi, bind, Except.bind, pure, Except.pure, Except.ok.injEq] at h
        rw [← h, List.mem_cons] at hr
        rcases hr with rfl | hr
        · exact compile_of_ruleOf hd
        · exact ih hi hr

theorem compile_of_mem_rulesOf {d : Document} {rs : List ReplacementRule} (h : rulesOf d = .ok rs)
    {r : ReplacementRule} (hr : r ∈ rs) : ∃ p, r.compile = .ok p := by
  unfold rulesOf at h
  split at h
  · simp only [Except.ok.injEq] at h
    simp [← h] at hr
  · exact compile_of_mem_mapM_ruleOf h hr
  · simp at h

/-! ### Settings -/

/-- The hook of an option, if the document gives one. -/
def hookOf (importer : Importer) (d : Document) (option : Text) :
    Except SettingsFault (Option Hook) :=
  match (d.get? option).bind Document.asName? with
  | none => .ok none
  | some reference =>
    match importer.resolve reference with
    | .ok hook => .ok (some hook)
    | .error f => .error (.hook f)

/-- The plain options of a document. -/
def Options.ofDocument (d : Document) : Options :=
  let defaults : Options := {}
  { importTag := ((d.get? "import_tag").bind Document.asTag?).getD defaults.importTag
    exportTag := ((d.get? "export_tag").bind Document.asTag?).getD defaults.exportTag
    includePrivate :=
      ((d.get? "include_private").bind Document.asFlag?).getD defaults.includePrivate
    expandDefaults :=
      ((d.get? "expand_property_declaration_based_on_default").bind Document.asFlag?).getD
        defaults.expandDefaults }

/-- The settings of a document, given how the modules of its hooks are imported. A document that
counts as empty gives the defaults. -/
def Settings.ofDocument (root : Option Location) (d : Document)
    (importer : Importer := standardImporter) : Except SettingsFault Settings :=
  if d.isEmpty then .ok { root := root }
  else
    match d with
    | .mapping _ => do
      let rules ← rulesOf d
      let preprocessing ← hookOf importer d "preprocessing"
      let postprocessing ← hookOf importer d "postprocessing"
      return {
        toOptions := Options.ofDocument d
        rules := rules
        preprocessing := preprocessing.map Hook.onSource
        postprocessing := postprocessing.map Hook.onOutput
        root := root }
    | _ => .error .noMapping

end DocDecl
