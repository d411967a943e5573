import DocDecl.Declaration.Family
import DocDecl.Grouping.Classes
import DocDecl.Grouping.Modules
import DocDecl.Grouping.Namespaces
import DocDecl.Grouping.Types
import DocDecl.Layout.NormalForm
import DocDecl.Settings.Basic

/-!
# Generation

The declarations of a source: its areas are collected, every family of declarations is made from
them, the declarations are printed and put into their classes, namespaces and module, and the text
is brought into its normal form. The rules and hooks of the settings come before and after.

## Main definitions

* `Declared`, `declareAll` : the declarations of a source, by family.
* `Declared.layout` : the text of declarations.
* `declarationsOf` : the text of the declarations of a source.
* `generate` : the same, between the rules and hooks of the settings.

## Main results

* `value_generate_of_plain` : without rules and hooks the declarations are those of the source.
* `value_generate` : the outcome does not depend on what was reported before.
-/

namespace DocDecl

/-! ### Faults -/

/-- Why there are no declarations for a source. -/
inductive GenerationFault where
  /-- A rule of the settings cannot be applied. -/
  | rule (f : RuleFault)
  /-- A declaration cannot be printed. -/
  | declaration (f : Fault)
  deriving Repr

/-- The wording of a fault. -/
def GenerationFault.message : GenerationFault → Text
  | rule f => f.message
  | declaration f => f.message

/-- Work that notes reports and may fail. -/
abbrev Generating (α : Type) := ExceptT GenerationFault Noted α

/-- Work that cannot fail, as a part of work that may. -/
def Generating.ofNoted {α : Type} (x : Noted α) : Generating α := ExceptT.lift x

/-- Printing as a part of generation. -/
def Generating.ofWork {α : Type} (x : Work α) : Generating α :=
  ExceptT.adapt .declaration x

/-- A step that notes nothing, as a part of generation. -/
def Generating.ofExcept {α : Type} (x : Except Fault α) : Generating α :=
  ExceptT.mk (return x.mapError .declaration)

/-! ### The declarations of a source -/

/-- The declarations of a source, by family. Classes and functions are together, in their order in
the source. -/
structure Declared where
  /-- Methods and fields. -/
  members : List Declaration
  /-- Constructors. -/
  constructors : List Declaration
  /-- Namespaces. -/
  namespaces : List Declaration
  /-- Classes and functions. -/
  named : List Declaration
  /-- Types. -/
  typedefs : List Declaration
  /-- Callbacks. -/
  callbacks : List Declaration
  /-- Modules. -/
  modules : List Declaration
  deriving Repr

/-- Where the area of a declaration starts. One without an area is in front. -/
def Declaration.position (d : Declaration) : Nat := (d.area.map Area.start).getD 0

/-- Declarations in their order in the source; those of one place stay as they are. -/
def inSourceOrder (ds : List Declaration) : List Declaration :=
  ds.mergeSort fun d e => d.position ≤ e.position

theorem perm_inSourceOrder (ds : List Declaration) : (inSourceOrder ds).Perm ds :=
  List.mergeSort_perm ds _

/-- How many declarations there are of every family. -/
def Declared.counts (d : Declared) : Text :=
  "Resolved " ++ Text.ofNat d.members.length ++ " members, " ++
    Text.ofNat d.constructors.length ++ " constructors, " ++
    Text.ofNat d.namespaces.length ++ " namespaces, " ++
    Text.ofNat d.named.length ++ " classes/functions, " ++
    Text.ofNat d.typedefs.length ++ " typedefs, " ++
    Text.ofNat d.callbacks.length ++ " callbacks, " ++
    Text.ofNat d.modules.length ++ " modules"

/-- The declarations that collected areas make up. -/
def declareAll (options : Options) (c : Collected) : Noted Declared := do
  let declare (f : Family) := f.declare options (f.areas c)
  let members ← declare .members
  let constructors ← declare .constructors
  let namespaces ← declare .namespaces
  let classes ← declare .classes
  let functions ← declare .functions
  let typedefs ← declare .typedefs
  let callbacks ← declare .callbacks
  let modules ← declare .modules
  let d : Declared :=
    ⟨members, constructors, namespaces, inSourceOrder (classes ++ functions), typedefs, callbacks,
      modules⟩
  Noted.debug "generator" d.counts
  return d

/-- The text of declarations. -/
def Declared.layout (includePrivate : Bool) (d : Declared) : Generating Text := do
  let classes ← .ofWork (intoClasses includePrivate d.named (d.constructors ++ d.members))
  let typedefs ← .ofExcept (intoTypedefs d.typedefs)
  let callbacks ← .ofExcept (intoCallbacks d.callbacks)
  let statics ← .ofExcept (renderStatics d.members)
  let fragments := typedefs ++ callbacks ++ classes ++ statics
  let fragments ← .ofWork (intoNamespaces d.namespaces fragments)
  let fragments ← .ofExcept (intoModules d.modules fragments)
  return normalForm (Text.join "\n" (fragments.map Fragment.code))

/-- The text of the declarations of a source. -/
def declarationsOf (options : Options) (source : Text) : Generating Text := do
  let c ← .ofNoted (collect source)
  let d ← .ofNoted (declareAll options c)
  d.layout options.includePrivate

/-! ### Generation with settings -/

/-- The declarations of a source that was prepared, not yet finished. -/
def generateRaw (s : Settings) (source : Text) : Noted (Except GenerationFault Text) :=
  match s.prepare source with
  | .ok prepared => (declarationsOf s.toOptions prepared).run
  | .error f => return .error (.rule f)

/-- The declarations of a source. The log tells how many reports there are at the end, with the
`earlier` ones. -/
def generate (s : Settings) (earlier : Nat) (source : Text) :
    Noted (Except GenerationFault Text) := do
  let raw := generateRaw s source
  match ← raw with
  | .error f => return .error f
  | .ok output =>
    Noted.debug "generator"
      ("Generated " ++ Text.ofNat output.length ++ " characters with " ++
        Text.ofNat (earlier + raw.reports.length) ++ " reports")
    return .ok (s.finish output source)

theorem value_generate (s : Settings) (earlier : Nat) (source : Text) :
    (generate s earlier source).value =
      (generateRaw s source).value.map fun output => s.finish output source := by
  simp only [generate, Noted.value_bind]
  split <;> simp_all [Except.map]

theorem value_generate_of_plain {s : Settings} (hr : s.rules = []) (hp : s.preprocessing = none)
    (hq : s.postprocessing = none) (earlier : Nat) (source : Text) :
    (generate s earlier source).value = (declarationsOf s.toOptions source).run.value := by
  rw [value_generate, generateRaw, Settings.prepare_of_plain hr hp]
  simp only [Settings.finish_of_plain hq]
  cases (declarationsOf s.toOptions source).run.value <;> rfl

theorem reports_generate (s : Settings) (earlier : Nat) (source : Text) :
    (generate s earlier source).reports = (generateRaw s source).reports := by
  simp only [generate, Noted.reports, Noted.entries_bind, reportsOf_append]
  split <;> simp [Noted.debug, Noted.note, reportsOf, Entry.report?]

end DocDecl
