import DocDecl.Text.Blank
import DocDecl.Text.Word

/-!
# The name in a head

A member is named by the head of its definition: by a property, an assignment or a method head. The
three shapes are tried in this order.

## Main definitions

* `nameAt?` : the identifier that a text begins with.
* `methodHead?` : the name of a method head and the text behind its opening bracket.
* `memberName` : the name in a head.

## Main results

* `length_nameAt?_lt` : a name is not empty.
-/

namespace DocDecl

/-- The identifier that a text begins with, and what follows it. -/
def nameAt? (t : Text) : Option (Text × Text) :=
  let name := t.takeWhile isNameChar
  if name = [] then none else some (name, t.dropWhile isNameChar)

theorem length_nameAt?_lt {t name r : Text} (h : nameAt? t = some (name, r)) :
    r.length < t.length := by
  simp only [nameAt?] at h
  split at h
  · simp at h
  · next hne =>
    simp only [Option.some.injEq, Prod.mk.injEq] at h
    obtain ⟨_, rfl⟩ := h
    have h1 := congrArg List.length (List.takeWhile_append_dropWhile (p := isNameChar) (l := t))
    have h2 := List.length_pos_iff.2 hne
    simp only [List.length_append] at h1
    omega

/-! ### Method heads -/

/-- The text behind one of the keywords and the blanks that have to follow it. -/
def afterKeyword? (ks : List Text) (t : Text) : Option Text :=
  ks.findSome? fun k => (Text.after? k t).bind fun r =>
    if (r.head?.map isBlank).getD false then some (Text.trimLeft r) else none

/-- Reads a text behind an optional keyword. When that fails, the keyword is taken for the beginning
of what is read. -/
def behindKeyword {α : Type} (ks : List Text) (read : Text → Option α) (t : Text) : Option α :=
  ((afterKeyword? ks t).bind read).or (read t)

/-- The name before an opening bracket, and the text behind the bracket. -/
def calledName? (t : Text) : Option (Text × Text) :=
  (nameAt? t).bind fun (name, r) =>
    match Text.trimLeft r with
    | '(' :: r => some (name, r)
    | _ => none

/-- A name before an opening bracket, with an optional star in front. -/
def starredName? : Text → Option (Text × Text)
  | '*' :: t => calledName? (Text.trimLeft t)
  | t => calledName? t

/-- The name of a method head and the text behind its opening bracket. -/
def methodHead? (t : Text) : Option (Text × Text) :=
  behindKeyword ["static"] (behindKeyword ["async"] (behindKeyword ["get", "set"] starredName?))
    (Text.trimLeft t)

/-- Whether a text is a method head up to the closing bracket of its parameters, on one line. -/
def isMethodHead (t : Text) : Bool :=
  match methodHead? t with
  | some (_, r) =>
    let r := Text.trimRight r
    r.getLast? = some ')' ∧ '\n' ∉ r
  | none => false

/-! ### Properties and assignments -/

/-- The text without one leading quote, single or double. -/
def dropQuote : Text → Text
  | [] => []
  | c :: t => if c = '\'' ∨ c = '"' then t else c :: t

/-- The name before a colon, with or without quotes. -/
def propertyName? (t : Text) : Option Text :=
  (nameAt? (dropQuote (Text.trimLeft t))).bind fun (name, r) =>
    if (Text.trimLeft (dropQuote r)).head? = some ':' then some name else none

/-- The last name of a dotted path that a value is assigned to. A comparison and an arrow are no
assignment. -/
def assignedName? (t : Text) : Option Text :=
  match _h : nameAt? t with
  | none => none
  | some (name, r) =>
    match _hr : Text.trimLeft r with
    | '.' :: r' => assignedName? (Text.trimLeft r')
    | '=' :: r' => if r'.head? = some '=' ∨ r'.head? = some '>' then none else some name
    | _ => none
termination_by t.length
decreasing_by
  have h1 := length_nameAt?_lt _h
  have h2 := Text.length_trimLeft_le r
  have h3 := Text.length_trimLeft_le r'
  rw [_hr, List.length_cons] at h2
  omega

/-- The name that a head assigns to, behind an optional declaring keyword. -/
def assignmentName? (t : Text) : Option Text :=
  behindKeyword ["var", "let", "const"] assignedName? (Text.trimLeft t)

/-- The name in a head: that of a property, an assignment or a method, or the empty text. -/
def memberName (head : Text) : Text :=
  (((propertyName? head).or (assignmentName? head)).or ((methodHead? head).map Prod.fst)).getD []

end DocDecl
