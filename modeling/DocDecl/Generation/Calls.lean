import DocDecl.Generation.Basic

/-!
# Open calls

Some parts of a generation call themselves: the form of a type calls for those of its alternatives
or of its elements, the type of a field for those of its parts, and the type of a documented default
for those of the defaults in it. How deep these are nested is up to the source, whereas there is
room for a limited number of calls that are open at once. So a generation gives up where a source
needs more room than there is.

Only calls from one nested thing to the next are counted. Literals are nested a hundred deep at
most, and take no part in this.

## Main definitions

* `typeCalls`, `TypeTree.calls`, `documentedCalls` : how many calls are open at once for a type, for
  the parts of a field, and for a documented default.
* `sourceCalls` : the same for a source.
* `generateWithin` : generation where there is limited room.
-/

namespace DocDecl

/-- The greatest of some numbers, or zero. -/
def mostOf (ns : List Nat) : Nat := ns.foldr max 0

theorem le_mostOf {n : Nat} {ns : List Nat} (h : n ∈ ns) : n ≤ mostOf ns := by
  induction ns with
  | nil => exact absurd h List.not_mem_nil
  | cons m ns ih =>
    rcases List.mem_cons.1 h with rfl | h
    · exact Nat.le_max_left _ _
    · exact Nat.le_trans (ih h) (Nat.le_max_right _ _)

theorem mostOf_le {n : Nat} {ns : List Nat} (h : ∀ m ∈ ns, m ≤ n) : mostOf ns ≤ n := by
  induction ns with
  | nil => exact Nat.zero_le n
  | cons m ns ih =>
    rw [List.forall_mem_cons] at h
    exact Nat.max_le.2 ⟨h.1, ih h.2⟩

/-! ### Types -/

/-- How many calls are open at once while a type is brought into its form. For the alternatives of a
union there are those of the list they are collected in as well. -/
def typeCalls (type : Text) : Nat :=
  if h : '|' ∈ Text.trim type ∧ 1 < (alternatives (Text.trim type)).length then
    3 + mostOf ((alternatives (Text.trim type)).attach.map fun a =>
      have := length_lt_of_mem_alternatives a.2 h.2
      typeCalls a.1)
  else
    match _hr : Text.after? "..." (Text.trim type) with
    | some r => 1 + typeCalls r
    | none => 1
termination_by type.length
decreasing_by
  · have := Text.length_trim_le type
    omega
  · have h1 := Text.length_trim_le type
    have h2 := Text.length_of_after? _hr
    have h3 : ("..." : Text).length = 3 := rfl
    omega

namespace TypeTree

mutual

/-- How many calls are open at once while the type of a part is printed. -/
def calls : TypeTree → Nat
  | node _ _ [] => 1
  | node _ _ (c :: cs) => 3 + partsCalls (c :: cs)

/-- The most calls for a part of an object type. -/
def partsCalls : List (Text × TypeTree) → Nat
  | [] => 0
  | (_, node type optional cs) :: rest =>
    max (calls (node type optional cs)) (partsCalls rest)

end

end TypeTree

/-! ### Types in tags -/

/-- The types of the blocks of a tag that describe fields, as they are written. -/
def writtenTypes (comment tag : Text) : List Text :=
  ((tagBlocks comment tag).filter fun b => (Field.ofBlock? b).isSome).filterMap fun b =>
    (ParamParts.ofLine b).type?

/-- The most calls for the type of a field that its parts make up, if it has parts. -/
def withPartsCalls (parts : List Field) (f : Field) : Nat :=
  let own := parts.filterMap (Field.pathBelow? f.name)
  if own = [] then 0 else (TypeTree.ofPaths own).calls

/-- The most calls for the fields that the blocks of a tag document. -/
def fieldsCalls (comment tag : Text) : Nat :=
  let items := blockFields comment tag
  max (mostOf ((writtenTypes comment tag).map typeCalls))
    (mostOf ((ownFields items).map (withPartsCalls (partFields items))))

/-- The most calls for the return type of a block. -/
def returnCalls (comment : Text) : Nat := ((writtenReturn? comment).map typeCalls).getD 0

/-- The most calls for the parameters and the return type of a block. -/
def signatureCalls (a : Area) : Nat :=
  max (fieldsCalls a.comment "param") (returnCalls a.comment)

/-! ### Members -/

/-- The most calls for a member, where `inner` are those for its documented default. -/
def memberCalls (expand : Bool) (inner : Nat) (a : Area) : Nat :=
  if memberName a.definition = [] then 0
  else if a.hasTag "type" then ((writtenFieldType? a.comment).map typeCalls).getD 0
  else
    match if a.role = some .method then arguments? a.definition else none with
    | some _ => signatureCalls a
    | none => if documentsMembers expand a then inner else 0

/-- The most calls for members, where `inner` gives those for their documented defaults. -/
def membersCallsWith (expand : Bool) (as : List Area) (inner : { a // a ∈ as } → Nat) : Nat :=
  mostOf (as.attach.map fun a => if a.1.isMember then memberCalls expand (inner a) a.1 else 0)

/-- How many calls are open at once while the type of a documented default is made up: five from it
to a member in it. -/
def documentedCalls (expand : Bool) (literal : Text) : Nat :=
  5 + membersCallsWith expand (literalMembers literal) fun a =>
    if h : documentsMembers expand a.1 = true then
      have := length_literalMembers_lt a.2 (literal_ne_nil_of_documentsMembers h)
      documentedCalls expand a.1.literal
    else 0
termination_by literal.length

/-- The most calls for the members of class bodies. -/
def membersCalls (expand : Bool) (as : List Area) : Nat :=
  membersCallsWith expand as fun a => documentedCalls expand a.1.literal

/-! ### Sources -/

/-- The most calls for a type definition. -/
def typedefCalls (a : Area) : Nat :=
  let n := TypeName.ofValue a.value
  if n.name.isEmpty then 0
  else
    max (fieldsCalls a.comment "property")
      (if (properties a.comment).isEmpty && n.isAlias then typeCalls n.declared else 0)

/-- The most calls for a callback. -/
def callbackCalls (a : Area) : Nat :=
  if (TypeName.ofValue a.value).name.isEmpty then 0 else signatureCalls a

/-- The most calls for the exports of a module. -/
def moduleCalls (options : Options) (a : Area) : Nat :=
  mostOf ((tagValues a.comment options.exportTag).map fun t =>
    ((typedExport? t).map fun (type, _) => typeCalls type).getD 0)

/-- The most calls for the declarations of a family. -/
def Family.calls (options : Options) (as : List Area) : Family → Nat
  | members => membersCalls options.expandDefaults as
  | constructors =>
    mostOf ((as.filter fun a => a.role = some .classBody && a.hasTag "constructor").map fun a =>
      fieldsCalls a.comment "param")
  | namespaces => 0
  | classes => 0
  | functions => mostOf ((areasWithRole .function as).map signatureCalls)
  | typedefs => mostOf ((areasWithRole .typedef as).map typedefCalls)
  | callbacks => mostOf ((areasWithRole .callback as).map callbackCalls)
  | modules => mostOf (((areasWithRole .moduleBlock as).take 1).map (moduleCalls options))

/-- How many calls are open at once while the declarations of a source are made. -/
def sourceCalls (options : Options) (source : Text) : Nat :=
  let c := (collect source).value
  mostOf (Family.all.map fun f => f.calls options (f.areas c))

/-! ### Limited room -/

/-- How many calls can be open at once. -/
def standardRoom : Nat := 1000

/-- What is said where there is no room for a call. -/
def noRoomMessage : Text := "maximum recursion depth exceeded"

/-- Generation where so many calls can be open at once. It gives up if there is no room. -/
def generateWithin (room : Nat) (s : Settings) (earlier : Nat) (source : Text) :
    Option (Noted (Except GenerationFault Text)) :=
  match s.prepare source with
  | .ok prepared =>
    if sourceCalls s.toOptions prepared ≤ room then some (generate s earlier source) else none
  | .error _ => some (generate s earlier source)

end DocDecl
