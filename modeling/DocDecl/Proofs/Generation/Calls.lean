import DocDecl.Generation.Calls
import DocDecl.Proofs.Declaration.Nesting
import DocDecl.Proofs.Generation.Totality
import DocDecl.Proofs.TypeExpr.Alternatives

/-!
# Generation where there is limited room

A generation without rules and hooks gives up for one reason only: a source nests types, parts of
fields or documented defaults so deep that there is no room for the calls that are open at once. No
room is enough for all types, as every rest type takes one call more than that of its elements.

## Main definitions

* `declaredTypeWithin`, `TypeTree.renderWithin` : the form of a type, and the type that the parts of
  a field make up, where there is limited room.
* `TypeRoom`, `TakesRoom` : what room types take, and what a generation takes.
* `deepParts` : a source with parts of a parameter in one another.

## Main results

* `declaredTypeWithin_eq`, `TypeTree.renderWithin_eq` : the calls are counted that are open at once.
* `typeRoom` : the room for a type goes with its length, and that for parts with their depth.
* `takesRoom` : a generation gives a text exactly if there is room for the calls of its source.
* `generateWithin_deepParts` : a source that the standard room is not enough for.
-/

namespace DocDecl

open Text

/-! ### Lists -/

section Within

variable {α β : Type} {f : α → Option β} {g : α → β} {calls : α → Nat} {room : Nat}

/-- A list is gone through exactly if there is room for the most calls that an item needs. -/
theorem mapM_within {as : List α}
    (h : ∀ a ∈ as, f a = if calls a ≤ room then some (g a) else none) :
    as.mapM f = if mostOf (as.map calls) ≤ room then some (as.map g) else none := by
  induction as with
  | nil => rw [List.map_nil, mostOf, List.foldr_nil, if_pos (Nat.zero_le room)]; rfl
  | cons a as ih =>
    rw [List.forall_mem_cons] at h
    have hmost : mostOf ((a :: as).map calls) = max (calls a) (mostOf (as.map calls)) := rfl
    rw [List.mapM_cons, h.1, ih h.2, hmost, List.map_cons]
    by_cases ha : calls a ≤ room
    · by_cases has : mostOf (as.map calls) ≤ room
      · rw [if_pos ha, if_pos has, if_pos (Nat.max_le.2 ⟨ha, has⟩)]
        rfl
      · rw [if_pos ha, if_neg has, if_neg fun hle => has (Nat.max_le.1 hle).2]
        rfl
    · rw [if_neg ha, if_neg fun hle => ha (Nat.max_le.1 hle).1]
      rfl

end Within

/-! ### Types -/

section Types

variable {t r : Text}

theorem typeCalls_of_union (h : '|' ∈ trim t ∧ 1 < (alternatives (trim t)).length) :
    typeCalls t = 3 + mostOf ((alternatives (trim t)).map typeCalls) := by
  have hmap (ts : List Text) : (ts.attach.map fun a => typeCalls a.1) = ts.map typeCalls :=
    List.attach_map_val
  rw [typeCalls, dif_pos h, hmap]

theorem typeCalls_of_after? (h : ¬('|' ∈ trim t ∧ 1 < (alternatives (trim t)).length))
    (hr : after? "..." (trim t) = some r) : typeCalls t = 1 + typeCalls r := by
  rw [typeCalls, dif_neg h]
  split
  · next r' hr' => rw [Option.some.inj (hr'.symm.trans hr)]
  · next hnone => cases hnone.symm.trans hr

theorem typeCalls_of_plain (h : ¬('|' ∈ trim t ∧ 1 < (alternatives (trim t)).length))
    (hr : after? "..." (trim t) = none) : typeCalls t = 1 := by
  rw [typeCalls, dif_neg h]
  split
  · next r' hr' => cases hr'.symm.trans hr
  · rfl

theorem typeCalls_pos (t : Text) : 0 < typeCalls t := by
  rw [typeCalls]
  split
  · omega
  · split <;> omega

/-- The form of a type, where so many calls can be open at once. The call for the type itself takes
one, and a union two more for the list that the forms of its alternatives are collected in. -/
def declaredTypeWithin (room : Nat) (type : Text) : Option Text :=
  if room = 0 then none
  else if h : '|' ∈ trim type ∧ 1 < (alternatives (trim type)).length then do
    let forms ← (alternatives (trim type)).attach.mapM fun a =>
      have := length_lt_of_mem_alternatives a.2 h.2
      declaredTypeWithin (room - 3) a.1
    return if isParenthesised (trim type) then "(" ++ join "|" forms ++ ")" else join "|" forms
  else
    match _hr : after? "..." (trim type) with
    | some r => (declaredTypeWithin (room - 1) r).map restType
    | none => some (plainType (trim type))
termination_by type.length
decreasing_by
  · have := length_trim_le type
    omega
  · have h1 := length_trim_le type
    have h2 := length_of_after? _hr
    have h3 : ("..." : Text).length = 3 := rfl
    omega

/-- A type has its form exactly if there is room for its calls. -/
theorem declaredTypeWithin_eq (room : Nat) (t : Text) :
    declaredTypeWithin room t = if typeCalls t ≤ room then some (declaredType t) else none := by
  fun_induction declaredTypeWithin room t with
  | case1 t => rw [if_neg (Nat.not_le.2 (typeCalls_pos t))]
  | case2 room t hroom h ih =>
    -- There is an alternative, so that where three calls do not fit, no more do either.
    have hpos : 0 < mostOf ((alternatives (trim t)).map typeCalls) := by
      obtain ⟨a, ha⟩ := List.exists_mem_of_length_pos (Nat.zero_lt_of_lt h.2)
      exact (typeCalls_pos a).trans_le (le_mostOf (List.mem_map_of_mem ha))
    have hforms : ((alternatives (trim t)).attach.mapM fun a =>
        declaredTypeWithin (room - 3) a.1) = _ := mapM_within fun a _ => ih a
    rw [List.attach_map_val, List.attach_map_val] at hforms
    have hle : mostOf ((alternatives (trim t)).map typeCalls) ≤ room - 3 ↔ typeCalls t ≤ room := by
      rw [typeCalls_of_union h]
      omega
    have hmap (ts : List Text) : (ts.attach.map fun a => declaredType a.1) = ts.map declaredType :=
      List.attach_map_val
    rw [hforms, declaredType, dif_pos h, if_congr hle rfl rfl, hmap]
    split_ifs <;> rfl
  | case3 room t hroom h r hr ih =>
    have hle : typeCalls r ≤ room - 1 ↔ typeCalls t ≤ room := by
      rw [typeCalls_of_after? h hr]
      omega
    rw [ih, declaredType_of_after? h hr, if_congr hle rfl rfl]
    split_ifs <;> rfl
  | case4 room t hroom h hr =>
    rw [typeCalls_of_plain h hr, if_pos (Nat.one_le_iff_ne_zero.2 hroom),
      declaredType_of_plain h hr]

/-- The type of lists in lists in lists, `n` times. -/
def restsType (n : Nat) : Text := (List.replicate n "...".toList).flatten ++ "T"

theorem restsType_succ (n : Nat) : restsType (n + 1) = "..." ++ restsType n := by
  rw [restsType, restsType, List.replicate_succ, List.flatten_cons, List.append_assoc]

theorem mem_restsType {n : Nat} {c : Char} (h : c ∈ restsType n) : c = '.' ∨ c = 'T' := by
  induction n with
  | zero => exact Or.inr (List.mem_singleton.1 h)
  | succ n ih =>
    rw [restsType_succ, List.mem_append] at h
    rcases h with h | h
    · exact Or.inl (by simpa using h)
    · exact ih h

theorem trim_restsType (n : Nat) : trim (restsType n) = restsType n := by
  refine trim_eq_self_iff.2 ⟨?_, trimRight_append_singleton rfl _⟩
  cases n with
  | zero => rfl
  | succ n => rw [restsType_succ]; rfl

/-- Every rest type takes one call more than that of its elements. -/
theorem typeCalls_restsType (n : Nat) : typeCalls (restsType n) = n + 1 := by
  have hunion (n : Nat) : ¬('|' ∈ trim (restsType n) ∧
      1 < (alternatives (trim (restsType n))).length) := by
    rw [trim_restsType]
    exact fun h => absurd (mem_restsType h.1) (by decide)
  induction n with
  | zero => exact typeCalls_of_plain (hunion 0) (by decide)
  | succ n ih =>
    have hafter : after? "..." (trim (restsType (n + 1))) = some (restsType n) := by
      rw [trim_restsType]
      exact after?_eq_some_iff.2 (restsType_succ n)
    rw [typeCalls_of_after? (hunion (n + 1)) hafter, ih, Nat.add_comm]

/-- A type takes at most three calls for each of its characters, and one. -/
theorem typeCalls_le (t : Text) : typeCalls t ≤ 3 * t.length + 1 := by
  fun_induction typeCalls t with
  | case1 t h ih =>
    have hpos := (List.length_pos_of_mem h.1).trans_le (length_trim_le t)
    refine (Nat.add_le_add_left (mostOf_le (n := 3 * (t.length - 1) + 1) fun n hn => ?_) 3).trans
      (by omega)
    obtain ⟨a, -, rfl⟩ := List.mem_map.1 hn
    have hlt := (length_lt_of_mem_alternatives a.2 h.2).trans_le (length_trim_le t)
    exact (ih a).trans (by omega)
  | case2 t h r hr ih =>
    have hlength := (length_of_after? hr).symm.trans_le (length_trim_le t)
    have hdots : ("..." : Text).length = 3 := rfl
    omega
  | case3 t h hr => omega

end Types

/-! ### Parts of fields -/

namespace TypeTree

mutual

/-- The type of a part, where so many calls can be open at once. -/
def renderWithin (room : Nat) : TypeTree → Option Text
  | node type _ [] => if room = 0 then none else some type
  | node _ _ (c :: cs) => do
    let parts ← renderPartsWithin (room - 3) (c :: cs)
    return "\x7b" ++ join "," parts ++ "\x7d"

/-- The parts of an object type, where so many calls can be open at once. -/
def renderPartsWithin (room : Nat) : List (Text × TypeTree) → Option (List Text)
  | [] => some []
  | (name, node type optional cs) :: rest => do
    let t ← renderWithin room (node type optional cs)
    let ts ← renderPartsWithin room rest
    return (name ++ onlyIf optional "?" ++ ":" ++ t) :: ts

end

theorem calls_pos (t : TypeTree) : 0 < t.calls := by
  obtain ⟨_, _, cs⟩ := t
  cases cs with
  | nil => exact Nat.one_pos
  | cons c cs => exact Nat.add_pos_left (by decide) _

theorem partsCalls_pos (c : Text × TypeTree) (cs : List (Text × TypeTree)) :
    0 < partsCalls (c :: cs) := by
  obtain ⟨_, type, optional, children⟩ := c
  exact (calls_pos (node type optional children)).trans_le (Nat.le_max_left _ _)

mutual

/-- The parts of a field are printed exactly if there is room for their calls. -/
theorem renderWithin_eq (room : Nat) (t : TypeTree) :
    t.renderWithin room = if t.calls ≤ room then some t.render else none := by
  match t with
  | node type optional [] =>
    rw [renderWithin, calls, render]
    split_ifs <;> first | rfl | omega
  | node type optional (c :: cs) =>
    have hpos := partsCalls_pos c cs
    have hle : partsCalls (c :: cs) ≤ room - 3 ↔ 3 + partsCalls (c :: cs) ≤ room := by omega
    rw [renderWithin, renderPartsWithin_eq, calls, render, if_congr hle rfl rfl]
    split_ifs <;> rfl

theorem renderPartsWithin_eq (room : Nat) (cs : List (Text × TypeTree)) :
    renderPartsWithin room cs =
      if partsCalls cs ≤ room then some (renderParts cs) else none := by
  match cs with
  | [] => rw [renderPartsWithin, partsCalls, renderParts, if_pos (Nat.zero_le room)]
  | (name, node type optional children) :: rest =>
    rw [renderPartsWithin, renderWithin_eq, renderPartsWithin_eq, partsCalls, renderParts]
    by_cases hfirst : (node type optional children).calls ≤ room
    · by_cases hrest : partsCalls rest ≤ room
      · rw [if_pos hfirst, if_pos hrest, if_pos (Nat.max_le.2 ⟨hfirst, hrest⟩)]
        rfl
      · rw [if_pos hfirst, if_neg hrest, if_neg fun hle => hrest (Nat.max_le.1 hle).2]
        rfl
    · rw [if_neg hfirst, if_neg fun hle => hfirst (Nat.max_le.1 hle).1]
      rfl

end

/-- A part takes three calls for each name on its path. -/
theorem calls_describe (type : Text) (optional : Bool) (path : List Text) :
    (describe type optional path unknown).calls = 3 * path.length + 1 := by
  induction path with
  | nil => rfl
  | cons name path ih =>
    have hcalls : (describe type optional (name :: path) unknown).calls =
        3 + (describe type optional path unknown).calls := by
      change (node _ _ [(name, describe type optional path unknown)]).calls = _
      cases describe type optional path unknown with
      | node t o cs => exact congrArg (3 + ·) (Nat.max_zero _)
    rw [hcalls, ih, List.length_cons]
    omega

end TypeTree

/-- What room types take. -/
structure TypeRoom : Prop where
  /-- A type has its form exactly if there is room for its calls. -/
  within_eq : ∀ room t,
    declaredTypeWithin room t = if typeCalls t ≤ room then some (declaredType t) else none
  /-- There is enough room for a type where there are three calls for each of its characters. -/
  calls_le : ∀ t, typeCalls t ≤ 3 * t.length + 1
  /-- No room is enough for all types. -/
  exists_eq_none : ∀ room, ∃ t, declaredTypeWithin room t = none
  /-- The parts of a field make up a type exactly if there is room for their calls. -/
  render_eq : ∀ room (t : TypeTree),
    t.renderWithin room = if t.calls ≤ room then some t.render else none
  /-- A part takes three calls for each name on its path. -/
  calls_describe : ∀ type optional path,
    (TypeTree.describe type optional path TypeTree.unknown).calls = 3 * path.length + 1

/-- The room for a type goes with its length, and that for the parts of a field with how deep they
are in one another. -/
theorem typeRoom : TypeRoom where
  within_eq := declaredTypeWithin_eq
  calls_le := typeCalls_le
  exists_eq_none room :=
    ⟨restsType room, by
      rw [declaredTypeWithin_eq, typeCalls_restsType, if_neg (Nat.not_succ_le_self room)]⟩
  render_eq := TypeTree.renderWithin_eq
  calls_describe := TypeTree.calls_describe

/-! ### Documented defaults -/

section Defaults

variable {expand : Bool} {a : Area} {as nest : List Area} {m n : Nat}

theorem memberCalls_congr (h : documentsMembers expand a = true → m = n) :
    memberCalls expand m a = memberCalls expand n a := by
  rw [memberCalls, memberCalls]
  cases hdocuments : documentsMembers expand a with
  | false => rfl
  | true => rw [h hdocuments]

theorem documentedCalls_eq (expand : Bool) (literal : Text) :
    documentedCalls expand literal = 5 + membersCalls expand (literalMembers literal) := by
  rw [documentedCalls, membersCalls, membersCallsWith, membersCallsWith]
  congr 3
  funext a
  split_ifs with hmember hdocuments
  · rfl
  · exact memberCalls_congr fun h => absurd h hdocuments
  · rfl

theorem memberCalls_of_showsMembers (h : a.showsMembers expand = true) :
    a.isMember = true ∧ memberCalls expand n a = n := by
  rw [Area.showsMembers, Area.namesMember, Area.readsDefault] at h
  simp only [Bool.and_eq_true, Bool.not_eq_true', List.isEmpty_eq_false_iff,
    Option.isNone_iff_eq_none] at h
  obtain ⟨⟨hmember, hname⟩, ⟨htype, harguments⟩, hdocuments⟩ := h
  refine ⟨hmember, ?_⟩
  rw [memberCalls, if_neg hname, htype, harguments]
  simp [hdocuments]

/-- Documented defaults in one another take five calls each. -/
theorem length_le_membersCalls_of_isNest (h : IsNest expand as nest) :
    5 * nest.length ≤ membersCalls expand as := by
  induction h with
  | nil => exact Nat.zero_le _
  | @cons as a nest ha hshows _ ih =>
    obtain ⟨hmember, hcalls⟩ := memberCalls_of_showsMembers hshows
    have hle : documentedCalls expand a.literal ≤ membersCalls expand as := by
      refine le_mostOf (List.mem_map.2 ⟨⟨a, ha⟩, List.mem_attach _ _, ?_⟩)
      rw [if_pos hmember, hcalls]
    rw [documentedCalls_eq] at hle
    rw [List.length_cons]
    omega

end Defaults

/-! ### Generation -/

theorem membersCalls_le_sourceCalls (options : Options) (source : Text) :
    membersCalls options.expandDefaults (collect source).value.members ≤
      sourceCalls options source :=
  le_mostOf (List.mem_map.2 ⟨.members, List.mem_cons_self, rfl⟩)

theorem generateWithin_of_plain {options : Options} {root : Option Location} (room earlier : Nat)
    (source : Text) :
    generateWithin room ⟨options, [], none, none, root⟩ earlier source =
      if sourceCalls options source ≤ room then
        some (generate ⟨options, [], none, none, root⟩ earlier source)
      else none := by
  rw [generateWithin, Settings.prepare_of_plain rfl rfl]

/-- What room a generation takes. -/
structure TakesRoom (options : Options) (root : Option Location) (room earlier : Nat)
    (source : Text) : Prop where
  /-- There is a text exactly if there is room for the calls of the source. -/
  gives_iff : (∃ x output, generateWithin room ⟨options, [], none, none, root⟩ earlier source =
    some x ∧ x.value = .ok output) ↔ sourceCalls options source ≤ room
  /-- It gives up exactly if there is not. -/
  eq_none_iff : generateWithin room ⟨options, [], none, none, root⟩ earlier source = none ↔
    room < sourceCalls options source
  /-- There is none for documented defaults in one another that take too much together. -/
  eq_none_of_isNest : ∀ nest,
    IsNest options.expandDefaults (collect source).value.members nest → room < 5 * nest.length →
      generateWithin room ⟨options, [], none, none, root⟩ earlier source = none

/-- Without rules and hooks a generation gives a text exactly if there is room for the calls of its
source. -/
theorem takesRoom (options : Options) (root : Option Location) (room earlier : Nat)
    (source : Text) : TakesRoom options root room earlier source := by
  have heq_none : generateWithin room ⟨options, [], none, none, root⟩ earlier source = none ↔
      room < sourceCalls options source := by
    rw [generateWithin_of_plain]
    by_cases hroom : sourceCalls options source ≤ room
    · rw [if_pos hroom]
      exact iff_of_false (fun h => nomatch h) (Nat.not_lt.2 hroom)
    · rw [if_neg hroom]
      exact iff_of_true rfl (Nat.lt_of_not_le hroom)
  refine ⟨?_, heq_none, fun nest hnest hroom => heq_none.2 ?_⟩
  · rw [generateWithin_of_plain]
    constructor
    · rintro ⟨x, output, h, -⟩
      by_contra hroom
      rw [if_neg hroom] at h
      cases h
    · intro hroom
      obtain ⟨output, houtput⟩ := exists_value_generate options root earlier source
      exact ⟨_, output, if_pos hroom, houtput⟩
  · exact hroom.trans_le
      ((length_le_membersCalls_of_isNest hnest).trans (membersCalls_le_sourceCalls options source))

/-- A source with `n` parts of a parameter in one another. -/
def deepParts (n : Nat) : Text :=
  "/**\n * @function f\n * @param {Object} o\n * @param {string} o." ++
    join "." (List.replicate n "a") ++ "\n */\nfunction f(o) \x7b\x7d\n"

/-- The standard room is not enough for a parameter with 600 parts in one another. -/
theorem generateWithin_deepParts :
    (generateWithin standardRoom {} 0 (deepParts 600)).isNone = true := by
  decide +kernel

end DocDecl
