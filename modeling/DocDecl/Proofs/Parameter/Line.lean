import DocDecl.Proofs.Delimiter.Group
import DocDecl.Proofs.Head.ParameterList
import DocDecl.Proofs.Parameter.Documented
import DocDecl.Proofs.Text.Classes
import DocDecl.Proofs.Text.Trim

/-!
# Typed lines

A line with a type in braces and a name behind it is read as these two. Dots in front of the name
make the parameter a rest parameter, and its type the array of the type in braces; so do dots in
front of the type, which are then a part of the type.

## Main definitions

* `taggedLine`, `typedLine` : a line with a type and a name, of any tag and of a parameter.

## Main results

* `ParamParts.ofLine_taggedLine` : the parts of such a line.
* `Field.ofBlock?_named`, `Field.ofBlock?_rest`, `Field.ofBlock?_restType` : the fields.
-/

namespace DocDecl

open LiteralGrammar Text

variable {tag T w : Text}

/-- A line of a tag with a type in braces and a name. -/
def taggedLine (tag type name : Text) : Text :=
  '@' :: (tag ++ ' ' :: '{' :: (type ++ '}' :: ' ' :: name))

/-- A parameter line with a type in braces and a name. -/
def typedLine (type name : Text) : Text := "@param " ++ '{' :: (type ++ '}' :: ' ' :: name)

theorem typedLine_eq (type name : Text) : typedLine type name = taggedLine "param" type name := rfl

namespace ParamParts

theorem isAtomChar_of_isPathChar {c : Char} (h : isPathChar c = true) : isAtomChar c = true := by
  rw [isPathChar, Bool.or_eq_true, beq_iff_eq] at h
  rcases h with h | rfl
  · exact isAtomChar_of_isNameChar h
  · decide

theorem isBlank_eq_false_of_isPathChar {c : Char} (h : isPathChar c = true) :
    isBlank c = false := by
  rw [Bool.eq_false_iff]
  intro hblank
  have hatom := isAtomChar_of_isPathChar h
  rw [isAtomChar_of_isBlank hblank] at hatom
  cases hatom

theorem trimLeft_blank_path (hw : ∀ c ∈ w, isPathChar c = true) : trimLeft (' ' :: w) = w := by
  rw [trimLeft, List.dropWhile_cons_of_pos (by decide), List.dropWhile_eq_self_iff]
  intro hlen
  simp [isBlank_eq_false_of_isPathChar (hw _ (List.getElem_mem hlen))]

theorem optionalName?_path (hw : ∀ c ∈ w, isPathChar c = true) :
    optionalName? (' ' :: w) = none := by
  rw [optionalName?, trimLeft_blank_path hw]
  split
  · next t => exact absurd (hw '[' List.mem_cons_self) (by decide)
  · rfl

theorem plainName?_path (hne : w ≠ []) (hw : ∀ c ∈ w, isPathChar c = true) :
    plainName? (' ' :: w) = some (w, [], []) := by
  have htake : w.takeWhile isPathChar = w := List.takeWhile_eq_self_iff.2 hw
  have hdrop : w.dropWhile isPathChar = [] := List.dropWhile_eq_nil_iff.2 hw
  simp only [plainName?, trimLeft_blank_path hw, htake, hdrop, if_neg hne]

/-- The type of a line is the body of its first group in braces. -/
theorem type?_ofLine (line : Text) : (ofLine line).type? = bracedType? line := by
  rw [ofLine, bracedType?]
  cases group? (line.dropWhile (· ≠ '{')) with
  | none => rfl
  | some q =>
    simp only [Option.map_some]
    split
    · rfl
    · split <;> rfl

/-- The parts of a line with a given type, from what follows the type. -/
def behindType (type r : Text) : ParamParts :=
  match optionalName? r with
  | some (name, default, r) => ⟨some type, some name, true, default, descriptionOf r⟩
  | none =>
    match plainName? r with
    | some (name, default, r) => ⟨some type, some name, false, default, descriptionOf r⟩
    | none => { type? := some type }

theorem dropWhile_ne_brace {p : Text} (hp : '{' ∉ p) (r : Text) :
    (p ++ '{' :: r).dropWhile (· ≠ '{') = '{' :: r := by
  refine (List.dropWhile_append_of_pos fun c hc => decide_eq_true ?_).trans rfl
  exact ne_of_mem_of_not_mem hc hp

/-- The type in braces is read, and the other parts from what follows it. -/
theorem ofLine_braced {p : Text} (hp : '{' ∉ p) (hT : GroupBody T) (r : Text) :
    ofLine (p ++ '{' :: (T ++ '}' :: r)) = behindType (trim T) r := by
  rw [ofLine, dropWhile_ne_brace hp, group?_groupBody rfl hT]
  simp only [insideGroup_append]
  rfl

/-- A name behind the type is the only other part. -/
theorem behindType_path (type : Text) (hne : w ≠ []) (hw : ∀ c ∈ w, isPathChar c = true) :
    behindType type (' ' :: w) = { type? := some type, name? := some w } := by
  simp only [behindType, optionalName?_path hw, plainName?_path hne hw]
  rfl

/-- A line is read as the type and the name that are written in it. -/
theorem ofLine_taggedLine (htag : '{' ∉ tag) (hT : GroupBody T) (ht : trim T = T) (hne : w ≠ [])
    (hw : ∀ c ∈ w, isPathChar c = true) :
    ofLine (taggedLine tag T w) = { type? := some T, name? := some w } := by
  have hline := ofLine_braced (p := '@' :: (tag ++ [' '])) (by simpa using htag) hT (' ' :: w)
  rw [ht, behindType_path T hne hw] at hline
  rw [← hline, taggedLine]
  simp

end ParamParts

theorem Identifier.isPathChar_of_mem (n : Identifier) {c : Char} (h : c ∈ n.text) :
    ParamParts.isPathChar c = true := by
  rw [ParamParts.isPathChar, n.isNameChar_of_mem c h]
  rfl

/-! ### The fields of typed lines -/

namespace Field

variable (n : Identifier)

/-- The field of a line, by its parts. -/
theorem ofBlock?_taggedLine (htag : '{' ∉ tag) (hT : GroupBody T) (ht : trim T = T) (hne : T ≠ [])
    (hw : w ≠ []) (hpath : ∀ c ∈ w, ParamParts.isPathChar c = true) :
    ofBlock? (taggedLine tag T w) = some
      { type := declaredType T ++ Text.onlyIf
          (!("..." : Text).isPrefixOf T && (after? "..." w).isSome) "[]"
        name := (after? "..." w).getD w
        rest := ("..." : Text).isPrefixOf T || (after? "..." w).isSome } := by
  obtain ⟨c, T, rfl⟩ := List.exists_cons_of_ne_nil hne
  obtain ⟨d, w, rfl⟩ := List.exists_cons_of_ne_nil hw
  rw [ofBlock?, ParamParts.ofLine_taggedLine htag hT ht hw hpath]
  have hrest (a b : Bool) : ((a || b) && !a) = (!a && b) := by
    cases a <;> cases b <;> rfl
  simp only [hrest, if_true]

/-- A type and a name. -/
theorem ofBlock?_named (hT : GroupBody T) (ht : trim T = T) (hne : T ≠ [])
    (hdots : ("..." : Text).isPrefixOf T = false) :
    ofBlock? (typedLine T n.text) = some { type := declaredType T, name := n.text } := by
  rw [typedLine_eq, ofBlock?_taggedLine (by decide) hT ht hne n.ne_nil fun _ => n.isPathChar_of_mem,
    hdots, n.after?_dots]
  simp [Text.onlyIf]

/-- A type, and dots in front of the name. -/
theorem ofBlock?_rest (hT : GroupBody T) (ht : trim T = T) (hne : T ≠ [])
    (hdots : ("..." : Text).isPrefixOf T = false) :
    ofBlock? (typedLine T ("..." ++ n.text)) =
      some { type := declaredType T ++ "[]", name := n.text, rest := true } := by
  have hpath : ∀ c ∈ "...".toList ++ n.text, ParamParts.isPathChar c = true := by
    intro c hc
    rcases List.mem_append.1 hc with hc | hc
    · exact List.all_eq_true.1 (by decide) c hc
    · exact n.isPathChar_of_mem hc
  have hafter : after? "..." ("...".toList ++ n.text) = some n.text := after?_eq_some_iff.2 rfl
  rw [typedLine_eq, ofBlock?_taggedLine (by decide) hT ht hne (by simp) hpath, hdots, hafter]
  simp [Text.onlyIf]

/-- Dots in front of the type. -/
theorem ofBlock?_restType (hT : GroupBody T) (ht : trim ("..." ++ T) = "..." ++ T) :
    ofBlock? (typedLine ("..." ++ T) n.text) =
      some { type := declaredType ("..." ++ T), name := n.text, rest := true } := by
  have hbody : GroupBody ("..." ++ T) := .plain rfl (.plain rfl (.plain rfl hT))
  have hdots : ("..." : Text).isPrefixOf ("..." ++ T) = true := by
    rw [List.isPrefixOf_iff_prefix]
    exact List.prefix_append _ _
  rw [typedLine_eq, ofBlock?_taggedLine (by decide) hbody ht (by simp) n.ne_nil
    fun _ => n.isPathChar_of_mem, hdots, n.after?_dots]
  simp [Text.onlyIf]

end Field

end DocDecl
