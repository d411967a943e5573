import DocDecl.Comment.Area
import DocDecl.Comment.Override
import DocDecl.Head.Basic

/-!
# The areas of a source

A marker is the text of a tag with the margin star in front of it. Every place of a marker in the
source is found, from left to right; the search goes on behind the block that holds a place, so that
a block is found once. A place that no block holds is loose.

## Main definitions

* `enclosing?` : the block that holds a place.
* `Occurrence`, `occurrences` : the places of a marker.
* `areas` : the comment areas of a marker.

## Main results

* `length_areas_literal_lt` : the literal behind a block is shorter than the source.
-/

namespace DocDecl

/-! ### Places of a marker -/

/-- The block that holds the place `pos`, where `rest` is the source from there on: where the block
starts, and how far behind the place its closing mark stands. The block starts at the last opening
mark that does not reach beyond the place, and ends with the first closing mark behind it; a closing
mark between the two leaves the place outside. -/
def enclosing? (source : Text) (pos : Nat) (rest : Text) : Option (Nat × Nat) :=
  match Text.rfind? "/**" (source.take (pos + 1)), Text.find? "*/" rest with
  | some start, some n =>
    if Text.contains "*/" ((source.take pos).drop (start + 2)) then none else some (start, n)
  | _, _ => none

/-- A place of a marker. -/
inductive Occurrence where
  /-- A place that no block holds. -/
  | loose (pos : Nat)
  /-- A place in the block from `start` to `stop`. -/
  | inBlock (pos start stop : Nat)
  deriving DecidableEq, Repr

/-- The places of a marker from `pos` on, where `rest` is the source from there on. Of the places in
one block only the first counts. -/
def occurrences (source marker : Text) (pos : Nat) : Text → List Occurrence
  | [] => if marker = [] then [.loose pos] else []
  | c :: t =>
    if marker.isPrefixOf (c :: t) then
      match enclosing? source pos (c :: t) with
      | some (start, n) =>
        .inBlock pos start (pos + n + 2) ::
          occurrences source marker (pos + n + 2) (t.drop (n + 1))
      | none => .loose pos :: occurrences source marker (pos + 1) t
    else occurrences source marker (pos + 1) t
termination_by t => t.length
decreasing_by all_goals simp only [List.length_cons, List.length_drop]; omega

/-! ### Areas -/

/-- The value of a tag: the rest of its line, up to a closing mark. -/
def tagValue (rest : Text) : Text := Text.trim (Text.before "*/" (rest.takeWhile (· ≠ '\n')))

/-- How areas are made: the role that they get, and whether the code behind them is looked at. -/
structure AreaKind where
  /-- The role of the areas. -/
  role : Option Role := none
  /-- Whether the head of the code behind a block is read. -/
  withDefinition : Bool := true

/-- The area of a place. -/
def areaAt (source marker : Text) (kind : AreaKind) : Occurrence → Area
  | .loose pos =>
    { start := pos, stop := pos + marker.length, comment := [],
      value := tagValue (source.drop (pos + marker.length)), role := kind.role, malformed := true }
  | .inBlock pos start stop =>
    let block := (source.take stop).drop start
    let head := if kind.withDefinition then Head.read (source.drop stop) else ⟨[], false, []⟩
    { start := start, stop := stop, comment := withoutOverride block,
      value := tagValue (source.drop (pos + marker.length)), definition := head.text,
      role := kind.role, override := overrideOf block, literal := head.literal }

/-- The comment areas of a marker, in source order. -/
def areas (source marker : Text) (kind : AreaKind) : List Area :=
  (occurrences source marker 0 source).map (areaAt source marker kind)

theorem lt_length_of_inBlock {source marker : Text} {pos : Nat} {rest : Text} {p start stop : Nat}
    (h : Occurrence.inBlock p start stop ∈ occurrences source marker pos rest) : 0 < stop := by
  fun_induction occurrences source marker pos rest with
  | case1 => simp at h
  | case2 => simp at h
  | case3 pos c t _ start' n _ ih =>
    simp only [List.mem_cons, Occurrence.inBlock.injEq] at h
    rcases h with ⟨_, _, rfl⟩ | h
    · omega
    · exact ih h
  | case4 pos c t _ _ ih =>
    simp only [List.mem_cons, reduceCtorEq, false_or] at h
    exact ih h
  | case5 pos c t _ ih => exact ih h

/-- The literal behind a block is shorter than the source. -/
theorem length_areas_literal_lt {source marker : Text} {kind : AreaKind} {a : Area}
    (ha : a ∈ areas source marker kind) (hl : a.literal ≠ []) :
    a.literal.length < source.length := by
  simp only [areas, List.mem_map] at ha
  obtain ⟨o, ho, rfl⟩ := ha
  cases o with
  | loose pos => simp [areaAt] at hl
  | inBlock pos start stop =>
    have hpos := lt_length_of_inBlock ho
    simp only [areaAt] at hl ⊢
    split at hl
    · next hk =>
      have := Head.length_read_literal_le (source.drop stop)
      have := List.length_pos_iff.2 hl
      simp only [hk, if_true, List.length_drop] at *
      omega
    · exact absurd rfl hl

end DocDecl
