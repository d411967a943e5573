import DocDecl.Settings.OfDocument

/-!
# Overriding settings

Single options of given settings can be overridden. Only the names of the options are checked; a
null value overrides nothing.

## Main definitions

* `OptionName` : the names of the options.
* `StoredOptions` : options by name, with values of any kind.
* `Settings.stored` : settings as stored options.
* `StoredOptions.override` : options with others in their place.
* `Overrides`, `Settings.withOverrides` : the same for values of the right kind.
-/

namespace DocDecl

/-! ### Options by name -/

/-- The names of the options. -/
inductive OptionName where
  | importTag
  | exportTag
  | preprocessing
  | postprocessing
  | includePrivate
  | expandDefaults
  | rules
  | root
  deriving DecidableEq, Repr

namespace OptionName

/-- The word for an option. -/
def word : OptionName → Text
  | importTag => "import_tag_name"
  | exportTag => "export_tag_name"
  | preprocessing => "preprocessing"
  | postprocessing => "postprocessing"
  | includePrivate => "include_private"
  | expandDefaults => "expand_property_declaration_based_on_default"
  | rules => "replacements"
  | root => "root"

/-- All options. -/
def all : List OptionName :=
  [importTag, exportTag, preprocessing, postprocessing, includePrivate, expandDefaults, rules, root]

/-- The option that a word names. -/
def ofWord? (w : Text) : Option OptionName := all.find? fun o => o.word = w

theorem ofWord?_word (o : OptionName) : ofWord? o.word = some o := by
  cases o <;> decide

end OptionName

/-! ### Stored options -/

/-- Options by name, with values of any kind. -/
structure StoredOptions where
  /-- The value of an option. -/
  value : OptionName → Document

/-- A rule as a pair of texts. -/
def ReplacementRule.stored (r : ReplacementRule) : Document :=
  .list [.text r.pattern, .text r.template]

/-- Settings as stored options. Of a hook it is told whether there is one. -/
def Settings.stored (s : Settings) : StoredOptions where
  value
    | .importTag => .text s.importTag
    | .exportTag => .text s.exportTag
    | .preprocessing => .bool s.preprocessing.isSome
    | .postprocessing => .bool s.postprocessing.isSome
    | .includePrivate => .bool s.includePrivate
    | .expandDefaults => .bool s.expandDefaults
    | .rules => .list (s.rules.map ReplacementRule.stored)
    | .root =>
      match s.root with
      | some l => .text l.text
      | none => .null

/-- What is stored when an option is given a value. -/
def OptionName.storedValue (d : Document) : OptionName → Document
  | preprocessing => .bool true
  | postprocessing => .bool true
  | rules =>
    match d with
    | .list items =>
      .list (items.map fun i =>
        match i.get? "pattern" with
        | some p => .list [p, (i.get? "replacement").getD (.text [])]
        | none => i)
    | d => d
  | _ => d

/-- The names that are no options, each once, in the order of their code points. -/
def unknownNames (overrides : List (Text × Document)) : List Text :=
  let names := (overrides.map Prod.fst).filter fun w => (OptionName.ofWord? w).isNone
  (names.eraseDups).mergeSort fun v w => !w.lex v

/-- Options with others in their place. -/
def StoredOptions.override (s : StoredOptions) (overrides : List (Text × Document)) :
    Except SettingsFault StoredOptions :=
  match unknownNames overrides with
  | [] =>
    .ok ⟨fun o =>
      match overrides.lookup o.word with
      | none => s.value o
      | some .null => s.value o
      | some d => o.storedValue d⟩
  | names => .error (.unknownOptions names)

/-! ### Values of the right kind -/

/-- Values for single options. -/
structure Overrides where
  /-- The tag whose values are the imports of a module. -/
  importTag : Option Text := none
  /-- The tag whose values are the exports of a module. -/
  exportTag : Option Text := none
  /-- Whether private classes and members are declared. -/
  includePrivate : Option Bool := none
  /-- Whether the type of a property is read off its default. -/
  expandDefaults : Option Bool := none
  deriving DecidableEq, Repr

/-- Settings with single options overridden. -/
def Settings.withOverrides (s : Settings) (o : Overrides) : Settings :=
  { s with
    importTag := o.importTag.getD s.importTag
    exportTag := o.exportTag.getD s.exportTag
    includePrivate := o.includePrivate.getD s.includePrivate
    expandDefaults := o.expandDefaults.getD s.expandDefaults }

end DocDecl
