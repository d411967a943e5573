import DocDecl.Comment.Extraction
import DocDecl.Head.Name
import DocDecl.Report.Journal

/-!
# What blocks document

The blocks of a source are collected by their tags into names, types, members and modules. A block
with a name tag documents a function, or a namespace together with a class. A member gets its
visibility, and is static unless something marks it as belonging to an instance. Tags outside of
blocks and blocks without any recognised tag are reported.

## Main definitions

* `nameRoles`, `classifyNames` : what the blocks with name tags document.
* `memberRole` : visibility, scope and role of a member.
* `tagsAgree` : whether the tags of a block fit its role.
* `Collected`, `collect` : the areas of a source in groups.

## Main results

* `start_injOn_firstOfEachStart` : a block is classified once.
* `value_wellFormed` : loose places are left out.
-/

namespace DocDecl

/-! ### Tags -/

/-- Tags that only fit a class. -/
def classTags : List Text := ["class", "constructor", "namespace"]

/-- Tags that do not fit a class. -/
def otherTags : List Text :=
  ["callback", "memberof", "memberOf", "static", "type", "typedef", "function", "instance"]

/-- The markers of the tags that blocks are collected by, and of two more that are known. -/
def knownMarkers : List Text :=
  ["* @name ", "* @alias ", "* @typedef ", "* @callback ", "* @memberof ", "* @memberOf ",
    "* @external ", "* @property ", "* @function ", "* @module"]

/-- The conflicting tags of a block that documents a class, or of one that documents something
else. -/
def conflictingTags (a : Area) (isClass : Bool) : List Text :=
  (if isClass then otherTags else classTags).filter a.hasTag

/-- Whether the tags of a block fit its role; the ones that do not are reported. -/
def tagsAgree (a : Area) (isClass : Bool) : Noted Bool := do
  match conflictingTags a isClass with
  | [] => return true
  | tags =>
    Noted.error (.area a) "Mutually Exclusive Tags"
      (a.value ++ " is documented as " ++ (if isClass then "a class" else "a non-class entity") ++
        " but carries " ++ Text.join ", " (tags.map ('@' :: ·)))
    return false

/-! ### Names -/

/-- The first area of each start, in order. -/
def firstOfEachStart : List Area → List Area
  | [] => []
  | a :: as => a :: (firstOfEachStart as).filter fun b => b.start ≠ a.start

theorem start_injOn_firstOfEachStart (as : List Area) :
    (firstOfEachStart as).Pairwise fun a b => a.start ≠ b.start := by
  induction as with
  | nil => exact List.Pairwise.nil
  | cons a as ih =>
    refine List.Pairwise.cons ?_ (ih.sublist List.filter_sublist)
    intro b hb
    simp only [List.mem_filter, decide_eq_true_eq] at hb
    exact Ne.symm hb.2

/-- The roles of a block with a name tag: none for an alias that is no class, a function where the
block says so or has a name without a class tag, and else a namespace of statics together with a
class. -/
def nameRoles (a : Area) : List Role :=
  if a.hasTag "alias" ∧ ¬a.hasTag "class" then []
  else if a.hasTag "function" ∨ (a.hasTag "name" ∧ ¬classTags.any a.hasTag) then [.function]
  else [.nameSpace, .classBody]

/-- The areas of blocks with name tags, each with its roles. -/
def classifyNames (as : List Area) : List Area :=
  (firstOfEachStart as).flatMap fun a =>
    (nameRoles a).map fun r => { a with role := some r, modifiers := [] }

/-! ### Members -/

/-- Whether a head begins with the keyword `static`. -/
def isStaticHead (head : Text) : Bool :=
  match Text.after? "static" (Text.trimLeft head) with
  | some (c :: _) => isBlank c
  | _ => false

/-- Whether a member belongs to its namespace and not to the instances of a class. -/
def isStaticMember (a : Area) : Bool :=
  isStaticHead a.definition ||
    (!Text.contains ".prototype." a.definition && !Text.contains ".prototype" a.value &&
      !Text.contains "#" a.value && !a.hasTag "instance" && !isMethodHead a.definition)

/-- The visibility that a block gives. -/
def visibility (a : Area) : Text :=
  if a.hasTag "private" then "private" else if a.hasTag "protected" then "protected" else "public"

/-- Whether a line has a pair of brackets. -/
def hasBrackets (head : Text) : Bool :=
  (Text.lines head).any fun l => decide (')' ∈ l.dropWhile (· ≠ '('))

/-- A member with its visibility, scope and role. -/
def memberRole (a : Area) : Area :=
  { a with
    modifiers := visibility a :: if isStaticMember a then ["static"] else []
    role := some (if !a.hasTag "type" && hasBrackets a.definition then .method else .field) }

/-! ### Collecting -/

/-- The areas whose tag stands in a block; the others are reported. -/
def wellFormed : List Area → Noted (List Area)
  | [] => return []
  | a :: as => do
    if a.malformed then
      Noted.error (.area a) "Malformed Comment"
        ("tag at offset " ++ Text.ofNat a.start ++ " is not enclosed in a /** */ block")
      wellFormed as
    else
      let as ← wellFormed as
      return a :: as

theorem value_wellFormed (as : List Area) :
    (wellFormed as).value = as.filter fun a => !a.malformed := by
  induction as with
  | nil => rfl
  | cons a as ih =>
    rw [wellFormed, List.filter_cons]
    cases h : a.malformed with
    | true => simp [ih]
    | false => simp [ih]

/-- Whether a block is handled by none of the collections and is not private. -/
def isUnclassified (a : Area) : Bool :=
  !a.malformed && !a.hasTag "private" && !knownMarkers.any fun m => Text.contains m a.comment

/-- The areas of a source in groups. -/
structure Collected where
  /-- Namespaces, classes and functions. -/
  names : List Area
  /-- Types and callbacks. -/
  types : List Area
  /-- Members. -/
  members : List Area
  /-- Modules. -/
  modules : List Area
  /-- Blocks that none of the tags fits. -/
  unclassified : List Area

/-- The areas of several markers, one after the other. -/
def areasOfAll (source : Text) (markers : List Text) (kind : AreaKind) : List Area :=
  markers.flatMap fun m => areas source m kind

/-- Reports each block that none of the tags fits. -/
def reportUnclassified : List Area → Noted Unit
  | [] => return ()
  | a :: as => do
    Noted.error (.area a) "Unclassified"
      ("comment at offset " ++ Text.ofNat a.start ++ " carries no recognised classification tag")
    reportUnclassified as

/-- The areas of a source in groups. -/
def collect (source : Text) : Noted Collected := do
  let names ← wellFormed (areasOfAll source ["* @name ", "* @function ", "* @alias "] {})
  let names := classifyNames names
  let types ← wellFormed
    (areas source "* @typedef " { role := some .typedef, withDefinition := false } ++
      areas source "* @callback " { role := some .callback, withDefinition := false })
  let members ← wellFormed (areasOfAll source ["* @memberof ", "* @memberOf "] {})
  let members := members.map memberRole
  let modules ← wellFormed (areas source "* @module" { role := some .moduleBlock })
  let unclassified := (areas source "* @" {}).filter isUnclassified
  reportUnclassified unclassified
  Noted.debug "classifier"
    ("Collected " ++ Text.ofNat names.length ++ " names, " ++ Text.ofNat types.length ++
      " types, " ++ Text.ofNat members.length ++ " members, " ++ Text.ofNat modules.length ++
      " modules, " ++ Text.ofNat unclassified.length ++ " unclassified")
  return ⟨names, types, members, modules, unclassified⟩

end DocDecl
