import DocDecl.Grouping.Classes
import Mathlib.Data.List.Induction

/-!
# Where members go

What becomes of a member is decided by the declarations and by the members before it: it is promoted
to the namespace, left out because it is private, put into the last declaration that owns its path,
put into an interface that is made up for its path, or lost. The containers hold exactly the members
that this sends to them, in the order of the members, and the reports tell of exactly those that are
left out or lost.

A path is compared as one text, so an interface that was made up for a member also takes the later
members of the same text, even where the last name of their own path is no class name.

## Main definitions

* `Fate`, `fateAfter`, `fates` : what becomes of each member.
* `lastOwner?` : the last declaration that owns a path.
* `declaredContainers`, `madeUpContainers`, `containersOf` : the containers with their members.
* `Fate.entries` : what is noted for a member.

## Main results

* `lastOwner?_eq_some_iff` : no later declaration owns the path.
* `exists_founder_iff`, `nodup_ownerPath_founders` : one interface is made up for a path.
* `placeMember_containersOf` : one member is put where its fate says.
* `placeMembers_eq` : all members are.
* `getElem?_containersOf` : what the last declaration of a path holds.
-/

namespace DocDecl

/-! ### Fates -/

/-- What becomes of a member. -/
inductive Fate where
  /-- It belongs to the namespace. -/
  | promoted
  /-- It is private and left out. -/
  | hidden
  /-- It belongs to the declaration number `i`. -/
  | owned (i : Nat)
  /-- An interface is made up for it. -/
  | founds
  /-- It belongs to the interface that was made up for an earlier member. -/
  | joins
  /-- It has no owner. -/
  | lost
  deriving DecidableEq, Repr

/-- Whether an interface that is made up owns the member. -/
def Fate.isAdopted (f : Fate) : Bool := f = .founds || f = .joins

/-- Whether a declaration owns the members of a path. Functions own none. -/
def Declaration.ownsPath (d : Declaration) (path : Text) : Bool :=
  d.role ≠ some .function && d.fullPath = path

/-- The number of the last declaration that owns the members of a path. -/
def lastOwner? (path : Text) : List Declaration → Option Nat
  | [] => none
  | d :: ds =>
    match lastOwner? path ds with
    | some i => some (i + 1)
    | none => if d.ownsPath path then some 0 else none

/-- Whether a member is neither promoted nor left out. -/
def Declaration.isKept (includePrivate : Bool) (m : Declaration) : Bool :=
  !m.isPromotedStatic && !m.isHidden includePrivate

/-- Whether the last name of the path of a member is a class name. -/
def Declaration.namesClass (m : Declaration) : Bool := isClassName (m.path.getLastD [])

section

variable (includePrivate : Bool) (classes : List Declaration)

/-- Whether a member is one that an interface can be made up for, at a path. -/
def Declaration.canFound (path : Text) (m : Declaration) : Bool :=
  m.isKept includePrivate && m.ownerPath = path && m.namesClass

/-- What becomes of a member behind earlier ones. -/
def fateAfter (earlier : List Declaration) (m : Declaration) : Fate :=
  if m.isPromotedStatic then .promoted
  else if m.isHidden includePrivate then .hidden
  else
    match lastOwner? m.ownerPath classes with
    | some i => .owned i
    | none =>
      if earlier.any (Declaration.canFound includePrivate m.ownerPath) then .joins
      else if m.namesClass then .founds
      else .lost

/-- The members with what becomes of them. -/
def fates (members : List Declaration) : List (Declaration × Fate) :=
  members.mapIdx fun k m => (m, fateAfter includePrivate classes (members.take k) m)

end

/-! ### Containers -/

/-- A member as it is put into the container of a declaration. In an interface it has no
modifiers. -/
def Declaration.asMemberOf (d m : Declaration) : Declaration :=
  if d.isInterface then { m with heads := [m.signature] } else m

/-- The declarations, each with the members that it owns. -/
def declaredContainers (classes : List Declaration) (fs : List (Declaration × Fate)) :
    List Container :=
  classes.mapIdx fun i d =>
    ⟨d, (fs.filter fun f => f.2 = .owned i).map fun f => d.asMemberOf f.1⟩

/-- The members that an interface is made up for. -/
def founders (fs : List (Declaration × Fate)) : List Declaration :=
  (fs.filter fun f => f.2 = .founds).map Prod.fst

/-- The interface that is made up for a member, with all members of its path. -/
def madeUpContainer (fs : List (Declaration × Fate)) (m : Declaration) : Container :=
  ⟨madeUpInterface m.path,
    (fs.filter fun f => f.2.isAdopted && f.1.ownerPath = m.ownerPath).map fun f =>
      (madeUpInterface m.path).asMemberOf f.1⟩

/-- The interfaces that are made up, in the order of their first members. -/
def madeUpContainers (fs : List (Declaration × Fate)) : List Container :=
  (founders fs).map (madeUpContainer fs)

/-- The declarations in order, and behind them the interfaces that are made up. -/
def containersOf (classes : List Declaration) (fs : List (Declaration × Fate)) : List Container :=
  declaredContainers classes fs ++ madeUpContainers fs

/-- What is noted for a member. -/
def Fate.entries (m : Declaration) : Fate → List Entry
  | hidden =>
    [.report ⟨.info, .ofArea? m.area, "Class Member",
      m.ownerPath ++ "." ++ m.name ++ " is private and will not be documented"⟩]
  | founds => [.step ⟨.debug, "merge.classes", "Synthesised interface " ++ m.ownerPath⟩]
  | lost =>
    [.report ⟨.error, .ofArea? m.area, "Class Member",
      "name " ++ m.name ++ " @memberof parameter has undefined object path of \"" ++
        m.ownerPath ++ "\""⟩]
  | _ => []

/-! ### Owners -/

section Owners

variable {path : Text} {ds : List Declaration}

theorem lastOwner?_eq_none_iff :
    lastOwner? path ds = none ↔ ∀ d ∈ ds, d.ownsPath path = false := by
  induction ds with
  | nil => simp [lastOwner?]
  | cons d ds ih =>
    rw [lastOwner?, List.forall_mem_cons]
    cases h : lastOwner? path ds with
    | some i =>
      simp only [reduceCtorEq, false_iff, not_and]
      rintro - hno
      exact absurd (ih.2 hno) (by simp [h])
    | none =>
      cases hd : d.ownsPath path with
      | true => simp
      | false => simpa using ih.1 h

theorem owner_of_lastOwner? {i : Nat} (h : lastOwner? path ds = some i) :
    (∃ d, ds[i]? = some d ∧ d.ownsPath path = true) ∧
      ∀ j d, i < j → ds[j]? = some d → d.ownsPath path = false := by
  induction ds generalizing i with
  | nil => simp [lastOwner?] at h
  | cons d ds ih =>
    rw [lastOwner?] at h
    cases hds : lastOwner? path ds with
    | some k =>
      rw [hds] at h
      obtain rfl := Option.some.inj h
      obtain ⟨hown, hlast⟩ := ih hds
      refine ⟨hown, ?_⟩
      rintro (_ | j) e hj he
      · omega
      · exact hlast j e (Nat.lt_of_succ_lt_succ hj) he
    | none =>
      simp only [hds] at h
      split_ifs at h with hd
      obtain rfl := Option.some.inj h
      refine ⟨⟨d, rfl, hd⟩, ?_⟩
      rintro (_ | j) e hj he
      · omega
      · exact lastOwner?_eq_none_iff.1 hds e (List.mem_of_getElem? he)

/-- The last owner owns the path, and no declaration behind it does. -/
theorem lastOwner?_eq_some_iff {i : Nat} :
    lastOwner? path ds = some i ↔
      (∃ d, ds[i]? = some d ∧ d.ownsPath path = true) ∧
        ∀ j d, i < j → ds[j]? = some d → d.ownsPath path = false := by
  refine ⟨owner_of_lastOwner?, ?_⟩
  rintro ⟨⟨d, hi, hd⟩, hlast⟩
  cases h : lastOwner? path ds with
  | none =>
    have := lastOwner?_eq_none_iff.1 h d (List.mem_of_getElem? hi)
    simp [hd] at this
  | some k =>
    obtain ⟨⟨e, hk, he⟩, hlast'⟩ := owner_of_lastOwner? h
    rcases Nat.lt_trichotomy i k with hik | rfl | hki
    · have := hlast k e hik hk
      simp [he] at this
    · rfl
    · have := hlast' i d hki hi
      simp [hd] at this

theorem addToOwner_eq_modify (m : Declaration) (cs : List Container) :
    addToOwner m cs =
      (lastOwner? m.ownerPath (cs.map Container.declaration)).map fun i =>
        cs.modify i (·.add m) := by
  induction cs with
  | nil => rfl
  | cons c cs ih =>
    rw [addToOwner, ih, List.map_cons, lastOwner?]
    cases lastOwner? m.ownerPath (cs.map Container.declaration) with
    | some i => rfl
    | none =>
      simp only [Option.map_none]
      cases h : c.owns m.ownerPath with
      | true =>
        have hd : c.declaration.ownsPath m.ownerPath = true := h
        simp [hd]
      | false =>
        have hd : c.declaration.ownsPath m.ownerPath = false := h
        simp [hd]

theorem addToOwner_append (m : Declaration) (cs ds : List Container) :
    addToOwner m (cs ++ ds) =
      ((addToOwner m ds).map (cs ++ ·)).or ((addToOwner m cs).map (· ++ ds)) := by
  induction cs with
  | nil =>
    cases h : addToOwner m ds <;> simp [addToOwner, h]
  | cons c cs ih =>
    rw [List.cons_append, addToOwner, ih, addToOwner]
    cases addToOwner m ds with
    | some ds' => rfl
    | none =>
      cases addToOwner m cs with
      | some cs' => rfl
      | none => cases h : c.owns m.ownerPath <;> simp

theorem addToOwner_eq_none_iff {m : Declaration} {cs : List Container} :
    addToOwner m cs = none ↔ ∀ c ∈ cs, c.owns m.ownerPath = false := by
  rw [addToOwner_eq_modify, Option.map_eq_none_iff, lastOwner?_eq_none_iff, List.forall_mem_map]
  rfl

/-- Where no two containers own the path, the member is added to the one that does. -/
theorem addToOwner_of_pairwise {m : Declaration} {cs : List Container}
    (h : cs.Pairwise fun c d => ¬(c.owns m.ownerPath = true ∧ d.owns m.ownerPath = true))
    (hown : ∃ c ∈ cs, c.owns m.ownerPath = true) :
    addToOwner m cs = some (cs.map fun c => if c.owns m.ownerPath then c.add m else c) := by
  induction cs with
  | nil => simp at hown
  | cons c cs ih =>
    obtain ⟨hc, hcs⟩ := List.pairwise_cons.1 h
    rw [addToOwner, List.map_cons]
    by_cases htail : ∃ d ∈ cs, d.owns m.ownerPath = true
    · obtain ⟨d, hd, hdo⟩ := htail
      have hco : ¬c.owns m.ownerPath = true := fun hco => hc d hd ⟨hco, hdo⟩
      rw [ih hcs ⟨d, hd, hdo⟩]
      simp only [if_neg hco]
    · have hno : ∀ d ∈ cs, d.owns m.ownerPath = false := fun d hd =>
        Bool.eq_false_iff.2 fun hdo => htail ⟨d, hd, hdo⟩
      have hself : (cs.map fun c => if c.owns m.ownerPath then c.add m else c) = cs := by
        refine (List.map_congr_left fun d hd => ?_).trans (List.map_id cs)
        rw [if_neg (by simp [hno d hd]), id]
      have hco : c.owns m.ownerPath = true := by
        obtain ⟨d, hd, hdo⟩ := hown
        rcases List.mem_cons.1 hd with rfl | hd
        · exact hdo
        · exact absurd ⟨d, hd, hdo⟩ htail
      rw [addToOwner_eq_none_iff.2 hno, hself]
      simp only [hco, if_true]

end Owners

/-! ### Fates of a run -/

section Run

variable {includePrivate : Bool} {classes : List Declaration}

theorem fates_concat (ms : List Declaration) (m : Declaration) :
    fates includePrivate classes (ms ++ [m]) =
      fates includePrivate classes ms ++ [(m, fateAfter includePrivate classes ms m)] := by
  have htake (k : Nat) (hk : k < ms.length) : (ms ++ [m]).take k = ms.take k :=
    List.take_append_of_le_length (Nat.le_of_lt hk)
  rw [fates, List.mapIdx_concat, List.take_left, fates]
  congr 1
  refine List.ext_getElem (by simp) fun k hk _ => ?_
  have hk : k < ms.length := by simpa using hk
  simp only [List.getElem_mapIdx, htake k hk]

theorem map_fst_fates (ms : List Declaration) :
    (fates includePrivate classes ms).map Prod.fst = ms := by
  exact List.ext_getElem (by simp [fates]) fun k _ _ => by simp [fates]

/-- What the fate of a member says about it. -/
theorem fateAfter_eq_iff {ms : List Declaration} {m : Declaration} {f : Fate} :
    fateAfter includePrivate classes ms m = f ↔
      match f with
      | .promoted => m.isPromotedStatic = true
      | .hidden => m.isPromotedStatic = false ∧ m.isHidden includePrivate = true
      | .owned i =>
        m.isKept includePrivate = true ∧ lastOwner? m.ownerPath classes = some i
      | .founds =>
        m.canFound includePrivate m.ownerPath = true ∧ lastOwner? m.ownerPath classes = none ∧
          ms.any (Declaration.canFound includePrivate m.ownerPath) = false
      | .joins =>
        m.isKept includePrivate = true ∧ lastOwner? m.ownerPath classes = none ∧
          ms.any (Declaration.canFound includePrivate m.ownerPath) = true
      | .lost =>
        m.isKept includePrivate = true ∧ lastOwner? m.ownerPath classes = none ∧
          m.namesClass = false ∧
            ms.any (Declaration.canFound includePrivate m.ownerPath) = false := by
  rw [fateAfter]
  simp only [Declaration.canFound, Declaration.isKept]
  cases hp : m.isPromotedStatic with
  | true => cases f <;> simp
  | false =>
    cases hh : m.isHidden includePrivate with
    | true => cases f <;> simp
    | false =>
      cases ho : lastOwner? m.ownerPath classes with
      | some i => cases f <;> simp
      | none =>
        cases ha : ms.any (Declaration.canFound includePrivate m.ownerPath) with
        | true => cases f <;> simp_all [Declaration.canFound, Declaration.isKept]
        | false =>
          cases hn : m.namesClass with
          | true => cases f <;> simp_all [Declaration.canFound, Declaration.isKept]
          | false => cases f <;> simp_all [Declaration.canFound, Declaration.isKept]

/-! ### Founders -/

theorem founders_concat (fs : List (Declaration × Fate)) (m : Declaration) (f : Fate) :
    founders (fs ++ [(m, f)]) = founders fs ++ if f = .founds then [m] else [] := by
  rw [founders, List.filter_append, List.map_append, ← founders]
  by_cases hf : f = .founds <;> simp [hf]

theorem of_mem_founders {ms : List Declaration} {g : Declaration}
    (hg : g ∈ founders (fates includePrivate classes ms)) :
    g.canFound includePrivate g.ownerPath = true ∧ lastOwner? g.ownerPath classes = none := by
  induction ms using List.reverseRecOn with
  | nil => simp [founders, fates] at hg
  | append_singleton ms m ih =>
    rw [fates_concat, founders_concat] at hg
    rcases List.mem_append.1 hg with hg | hg
    · exact ih hg
    · split_ifs at hg with hf
      · obtain rfl := List.mem_singleton.1 hg
        have hf := fateAfter_eq_iff.1 hf
        exact ⟨hf.1, hf.2.1⟩
      · simp at hg

/-- An interface is made up for a path exactly when no declaration owns it and a member that one can
be made up for has it. -/
theorem exists_founder_iff {ms : List Declaration} {path : Text} :
    (∃ g ∈ founders (fates includePrivate classes ms), g.ownerPath = path) ↔
      lastOwner? path classes = none ∧
        ms.any (Declaration.canFound includePrivate path) = true := by
  induction ms using List.reverseRecOn with
  | nil => simp [founders, fates]
  | append_singleton ms m ih =>
    rw [fates_concat, founders_concat]
    constructor
    · rintro ⟨g, hg, rfl⟩
      rcases List.mem_append.1 hg with hg | hg
      · obtain ⟨hno, hany⟩ := ih.1 ⟨g, hg, rfl⟩
        exact ⟨hno, by rw [List.any_append, hany, Bool.true_or]⟩
      · split_ifs at hg with hf
        · obtain rfl := List.mem_singleton.1 hg
          have hf := fateAfter_eq_iff.1 hf
          exact ⟨hf.2.1, by simp [hf.1]⟩
        · simp at hg
    · rintro ⟨hno, hany⟩
      by_cases hearlier : ms.any (Declaration.canFound includePrivate path) = true
      · obtain ⟨g, hg, hpath⟩ := ih.2 ⟨hno, hearlier⟩
        exact ⟨g, List.mem_append_left _ hg, hpath⟩
      · rw [Bool.not_eq_true] at hearlier
        have hm : m.canFound includePrivate path = true := by
          simpa [List.any_append, hearlier] using hany
        have hpath : m.ownerPath = path := by
          simp only [Declaration.canFound, Bool.and_eq_true, decide_eq_true_eq] at hm
          exact hm.1.2
        subst hpath
        have hf : fateAfter includePrivate classes ms m = .founds :=
          fateAfter_eq_iff.2 ⟨hm, hno, hearlier⟩
        exact ⟨m, by rw [if_pos hf]; exact List.mem_append_right _ List.mem_cons_self, rfl⟩

/-- No two interfaces are made up for one path. -/
theorem nodup_ownerPath_founders (ms : List Declaration) :
    ((founders (fates includePrivate classes ms)).map Declaration.ownerPath).Nodup := by
  induction ms using List.reverseRecOn with
  | nil => simp [founders, fates]
  | append_singleton ms m ih =>
    rw [fates_concat, founders_concat]
    split_ifs with hf
    · have hf := fateAfter_eq_iff.1 hf
      rw [List.map_append, List.map_singleton, List.nodup_append]
      refine ⟨ih, by simp, ?_⟩
      intro path hpath path' hpath' heq
      obtain ⟨g, hg, rfl⟩ := List.mem_map.1 hpath
      have hany := (exists_founder_iff.1 ⟨g, hg, heq.trans (List.mem_singleton.1 hpath')⟩).2
      simp [hf.2.2] at hany
    · rw [List.append_nil]
      exact ih

/-- A member that an interface was made up for, or that belongs to one, has the path of one. -/
theorem exists_founder_of_isAdopted {ms : List Declaration} {m : Declaration} {f : Fate}
    (h : (m, f) ∈ fates includePrivate classes ms) (hf : f.isAdopted = true) :
    ∃ g ∈ founders (fates includePrivate classes ms), g.ownerPath = m.ownerPath := by
  induction ms using List.reverseRecOn with
  | nil => simp [fates] at h
  | append_singleton ms m' ih =>
    rw [fates_concat] at h ⊢
    rw [founders_concat]
    rcases List.mem_append.1 h with h | h
    · obtain ⟨g, hg, hpath⟩ := ih h
      exact ⟨g, List.mem_append_left _ hg, hpath⟩
    · obtain ⟨rfl, rfl⟩ := Prod.mk.inj (List.mem_singleton.1 h)
      simp only [Fate.isAdopted, Bool.or_eq_true, decide_eq_true_eq] at hf
      rcases hf with hf | hf
      · exact ⟨m, by rw [if_pos hf]; exact List.mem_append_right _ List.mem_cons_self, rfl⟩
      · have hf := fateAfter_eq_iff.1 hf
        obtain ⟨g, hg, hpath⟩ := exists_founder_iff.2 hf.2
        exact ⟨g, List.mem_append_left _ hg, hpath⟩

/-! ### Containers of a run -/

theorem fullPath_madeUpInterface {path : List Text} (h : path ≠ []) :
    (madeUpInterface path).fullPath = Text.join "." path := by
  have hlast : path.getLastD [] = path.getLast h := by
    rw [List.getLastD_eq_getLast?, List.getLast?_eq_some_getLast h, Option.getD_some]
  simp only [madeUpInterface, Declaration.fullPath, Text.unsnoc, hlast,
    List.dropLast_concat_getLast]

theorem fullPath_madeUpContainer {fs : List (Declaration × Fate)} {g : Declaration}
    (hg : g.namesClass = true) : (madeUpContainer fs g).declaration.fullPath = g.ownerPath := by
  have hpath : g.path ≠ [] := by
    rintro h
    simp [Declaration.namesClass, h, isClassName] at hg
  exact fullPath_madeUpInterface hpath

theorem owns_madeUpContainer (fs : List (Declaration × Fate)) {g : Declaration}
    (hg : g.namesClass = true) (path : Text) :
    (madeUpContainer fs g).owns path = decide (g.ownerPath = path) := by
  rw [Container.owns, fullPath_madeUpContainer hg]
  simp [madeUpContainer, madeUpInterface]

theorem declaredContainers_concat {fs : List (Declaration × Fate)} {m : Declaration} {f : Fate}
    (h : ∀ i, f ≠ .owned i) :
    declaredContainers classes (fs ++ [(m, f)]) = declaredContainers classes fs := by
  have hno (i : Nat) : ((fs ++ [(m, f)]).filter fun f => f.2 = .owned i) =
      fs.filter fun f => f.2 = .owned i := by
    rw [List.filter_append]
    simp [h i]
  simp only [declaredContainers, hno]

theorem declaredContainers_concat_owned (fs : List (Declaration × Fate)) (m : Declaration)
    (i : Nat) :
    declaredContainers classes (fs ++ [(m, .owned i)]) =
      (declaredContainers classes fs).modify i (·.add m) := by
  refine List.ext_getElem (by simp [declaredContainers]) fun k hk _ => ?_
  rw [List.getElem_modify]
  simp only [declaredContainers, List.getElem_mapIdx, List.filter_append, List.map_append]
  by_cases hik : i = k
  · subst hik
    simp [Container.add, Declaration.asMemberOf]
  · simp [hik]

theorem madeUpContainer_concat {fs : List (Declaration × Fate)} {m g : Declaration} {f : Fate}
    (h : ¬(f.isAdopted = true ∧ m.ownerPath = g.ownerPath)) :
    madeUpContainer (fs ++ [(m, f)]) g = madeUpContainer fs g := by
  have hno : (f.isAdopted && decide (m.ownerPath = g.ownerPath)) = false := by
    simpa using h
  rw [madeUpContainer, madeUpContainer, List.filter_append,
    List.filter_cons_of_neg (by simp [hno]), List.filter_nil, List.append_nil]

theorem madeUpContainer_concat_adopted {fs : List (Declaration × Fate)} {m g : Declaration}
    {f : Fate} (hf : f.isAdopted = true) (h : m.ownerPath = g.ownerPath) :
    madeUpContainer (fs ++ [(m, f)]) g = (madeUpContainer fs g).add m := by
  rw [madeUpContainer, madeUpContainer, List.filter_append,
    List.filter_cons_of_pos (by simp [hf, h]), List.filter_nil, List.map_append]
  simp [Container.add, Declaration.asMemberOf]

theorem madeUpContainers_concat {fs : List (Declaration × Fate)} {m : Declaration} {f : Fate}
    (h : f.isAdopted = false) : madeUpContainers (fs ++ [(m, f)]) = madeUpContainers fs := by
  have hf : f ≠ .founds := by
    rintro rfl
    simp [Fate.isAdopted] at h
  rw [madeUpContainers, founders_concat, if_neg hf, List.append_nil, madeUpContainers]
  exact List.map_congr_left fun g _ => madeUpContainer_concat (by simp [h])

/-- A member that an interface is made up for is its first. -/
theorem madeUpContainers_concat_founds {ms : List Declaration} {m : Declaration}
    (h : fateAfter includePrivate classes ms m = .founds) :
    madeUpContainers (fates includePrivate classes ms ++ [(m, .founds)]) =
      madeUpContainers (fates includePrivate classes ms) ++
        [(⟨madeUpInterface m.path, []⟩ : Container).add m] := by
  obtain ⟨-, hno, hany⟩ := fateAfter_eq_iff.1 h
  have hnew {g : Declaration} (hg : g ∈ founders (fates includePrivate classes ms)) :
      m.ownerPath ≠ g.ownerPath := by
    intro hpath
    have := (exists_founder_iff.1 ⟨g, hg, hpath.symm⟩).2
    simp [hany] at this
  have hempty : ((fates includePrivate classes ms).filter fun f =>
      f.2.isAdopted && f.1.ownerPath = m.ownerPath) = [] := by
    rw [List.filter_eq_nil_iff]
    rintro ⟨m', f⟩ hmem hadopted
    simp only [Bool.and_eq_true, decide_eq_true_eq] at hadopted
    obtain ⟨g, hg, hpath⟩ := exists_founder_of_isAdopted hmem hadopted.1
    exact hnew hg (hpath.trans hadopted.2).symm
  rw [madeUpContainers, founders_concat, if_pos rfl, List.map_append, madeUpContainers]
  congr 1
  · exact List.map_congr_left fun g hg => madeUpContainer_concat fun hpath => hnew hg hpath.2
  · rw [List.map_singleton, madeUpContainer_concat_adopted rfl rfl, madeUpContainer, hempty,
      List.map_nil]

theorem namesClass_of_mem_founders {ms : List Declaration} {g : Declaration}
    (hg : g ∈ founders (fates includePrivate classes ms)) : g.namesClass = true := by
  have hg := (of_mem_founders hg).1
  simp only [Declaration.canFound, Bool.and_eq_true] at hg
  exact hg.2

/-- A member of an interface that is made up is added to that one. -/
theorem madeUpContainers_concat_joins (ms : List Declaration) (m : Declaration) :
    madeUpContainers (fates includePrivate classes ms ++ [(m, .joins)]) =
      (madeUpContainers (fates includePrivate classes ms)).map fun c =>
        if c.owns m.ownerPath then c.add m else c := by
  rw [madeUpContainers, founders_concat, if_neg (by simp), List.append_nil, madeUpContainers,
    List.map_map]
  refine List.map_congr_left fun g hg => ?_
  have howns := owns_madeUpContainer (fates includePrivate classes ms)
    (namesClass_of_mem_founders hg) m.ownerPath
  by_cases hpath : m.ownerPath = g.ownerPath
  · rw [madeUpContainer_concat_adopted rfl hpath, Function.comp_apply, howns,
      if_pos (by simp [hpath])]
  · rw [madeUpContainer_concat fun h => hpath h.2, Function.comp_apply, howns,
      if_neg (by simp [Ne.symm hpath])]

/-! ### Placing one member, and all -/

theorem addToOwner_declaredContainers (m : Declaration) (fs : List (Declaration × Fate)) :
    addToOwner m (declaredContainers classes fs) =
      (lastOwner? m.ownerPath classes).map fun i =>
        (declaredContainers classes fs).modify i (·.add m) := by
  have hdecl : (declaredContainers classes fs).map Container.declaration = classes :=
    List.ext_getElem (by simp [declaredContainers]) fun k _ _ => by simp [declaredContainers]
  rw [addToOwner_eq_modify, hdecl]

theorem addToOwner_madeUpContainers_eq_none {ms : List Declaration} {m : Declaration}
    (h : ∀ g ∈ founders (fates includePrivate classes ms), g.ownerPath ≠ m.ownerPath) :
    addToOwner m (madeUpContainers (fates includePrivate classes ms)) = none := by
  rw [addToOwner_eq_none_iff, madeUpContainers, List.forall_mem_map]
  intro g hg
  rw [owns_madeUpContainer _ (namesClass_of_mem_founders hg)]
  exact decide_eq_false (h g hg)

theorem addToOwner_madeUpContainers {ms : List Declaration} {m g : Declaration}
    (hg : g ∈ founders (fates includePrivate classes ms)) (hpath : g.ownerPath = m.ownerPath) :
    addToOwner m (madeUpContainers (fates includePrivate classes ms)) =
      some (madeUpContainers (fates includePrivate classes ms ++ [(m, .joins)])) := by
  have howns {g : Declaration} (hg : g ∈ founders (fates includePrivate classes ms)) :=
    owns_madeUpContainer (fates includePrivate classes ms)
      (namesClass_of_mem_founders hg) m.ownerPath
  rw [madeUpContainers_concat_joins]
  refine addToOwner_of_pairwise ?_ ⟨_, List.mem_map_of_mem hg, ?_⟩
  · rw [madeUpContainers, List.pairwise_map]
    refine (List.pairwise_map.1 (nodup_ownerPath_founders ms)).imp_of_mem ?_
    intro g₁ g₂ h₁ h₂ hne hboth
    rw [howns h₁, howns h₂, decide_eq_true_eq, decide_eq_true_eq] at hboth
    exact hne (hboth.1.trans hboth.2.symm)
  · rw [howns hg]
    exact decide_eq_true hpath

theorem containersOf_concat {fs : List (Declaration × Fate)} {m : Declaration} {f : Fate}
    (howned : ∀ i, f ≠ .owned i) (hf : f.isAdopted = false) :
    containersOf classes (fs ++ [(m, f)]) = containersOf classes fs := by
  rw [containersOf, declaredContainers_concat howned, madeUpContainers_concat hf, containersOf]

/-- A member with a declared owner is added to that. -/
theorem addToOwner_containersOf_owned {ms : List Declaration} {m : Declaration} {i : Nat}
    (h : fateAfter includePrivate classes ms m = .owned i) :
    addToOwner m (containersOf classes (fates includePrivate classes ms)) =
      some (containersOf classes (fates includePrivate classes (ms ++ [m]))) := by
  have howner := (fateAfter_eq_iff.1 h).2
  have hmade : addToOwner m (madeUpContainers (fates includePrivate classes ms)) = none := by
    refine addToOwner_madeUpContainers_eq_none fun g hg hpath => ?_
    have := (of_mem_founders hg).2
    rw [hpath, howner] at this
    simp at this
  rw [fates_concat, h, containersOf, addToOwner_append, hmade, addToOwner_declaredContainers,
    howner, containersOf, declaredContainers_concat_owned, madeUpContainers_concat rfl]
  rfl

/-- A member of a path that an interface was made up for is added to that. -/
theorem addToOwner_containersOf_joins {ms : List Declaration} {m : Declaration}
    (h : fateAfter includePrivate classes ms m = .joins) :
    addToOwner m (containersOf classes (fates includePrivate classes ms)) =
      some (containersOf classes (fates includePrivate classes (ms ++ [m]))) := by
  obtain ⟨g, hg, hpath⟩ := exists_founder_iff.2 (fateAfter_eq_iff.1 h).2
  rw [fates_concat, h, containersOf, addToOwner_append, addToOwner_madeUpContainers hg hpath,
    containersOf, declaredContainers_concat (by simp)]
  rfl

/-- Any other member has no owner. -/
theorem addToOwner_containersOf_eq_none {ms : List Declaration} {m : Declaration}
    (howner : lastOwner? m.ownerPath classes = none)
    (hno : ms.any (Declaration.canFound includePrivate m.ownerPath) = false) :
    addToOwner m (containersOf classes (fates includePrivate classes ms)) = none := by
  have hmade : addToOwner m (madeUpContainers (fates includePrivate classes ms)) = none := by
    refine addToOwner_madeUpContainers_eq_none fun g hg hpath => ?_
    simp [(exists_founder_iff.1 ⟨g, hg, hpath⟩).2] at hno
  rw [containersOf, addToOwner_append, hmade, addToOwner_declaredContainers, howner]
  rfl

theorem containersOf_founds {ms : List Declaration} {m : Declaration}
    (h : fateAfter includePrivate classes ms m = .founds) :
    containersOf classes (fates includePrivate classes (ms ++ [m])) =
      containersOf classes (fates includePrivate classes ms) ++
        [(⟨madeUpInterface m.path, []⟩ : Container).add m] := by
  rw [fates_concat, h, containersOf, declaredContainers_concat (by simp),
    madeUpContainers_concat_founds h, containersOf, List.append_assoc]

theorem containersOf_nil : containersOf classes [] = classes.map fun d => ⟨d, []⟩ :=
  List.ext_getElem (by simp [containersOf, declaredContainers, madeUpContainers, founders])
    fun k _ _ => by simp [containersOf, declaredContainers, madeUpContainers, founders]

theorem placeMember_kept {cs : List Container} {m : Declaration}
    (h : m.isKept includePrivate = true) :
    placeMember includePrivate cs m =
      match addToOwner m cs with
      | some cs' => ⟨cs', []⟩
      | none =>
        if m.namesClass then
          ⟨cs ++ [(⟨madeUpInterface m.path, []⟩ : Container).add m], Fate.founds.entries m⟩
        else ⟨cs, Fate.lost.entries m⟩ := by
  simp only [Declaration.isKept, Bool.and_eq_true, Bool.not_eq_true'] at h
  rw [placeMember, if_neg (by simp [h.1]), if_neg (by simp [h.2])]
  cases addToOwner m cs with
  | some cs' => rfl
  | none =>
    have hname : isClassName (m.path.getLastD []) = m.namesClass := rfl
    simp only [hname]
    split <;> rfl

/-- One member is put where its fate says, and what is noted is what its fate says. -/
theorem placeMember_containersOf (ms : List Declaration) (m : Declaration) :
    placeMember includePrivate (containersOf classes (fates includePrivate classes ms)) m =
      ⟨containersOf classes (fates includePrivate classes (ms ++ [m])),
        (fateAfter includePrivate classes ms m).entries m⟩ := by
  cases hf : fateAfter includePrivate classes ms m with
  | promoted =>
    have hm := fateAfter_eq_iff.1 hf
    rw [placeMember, if_pos hm, fates_concat, hf, containersOf_concat (by simp) rfl]
    rfl
  | hidden =>
    have hm := fateAfter_eq_iff.1 hf
    rw [placeMember, if_neg (by simp [hm.1]), if_pos hm.2, fates_concat, hf,
      containersOf_concat (by simp) rfl]
    rfl
  | owned i =>
    rw [placeMember_kept (fateAfter_eq_iff.1 hf).1, addToOwner_containersOf_owned hf]
    rfl
  | founds =>
    obtain ⟨hfound, howner, hno⟩ := fateAfter_eq_iff.1 hf
    simp only [Declaration.canFound, Bool.and_eq_true] at hfound
    rw [placeMember_kept hfound.1.1, addToOwner_containersOf_eq_none howner hno,
      containersOf_founds hf]
    simp [hfound.2]
  | joins =>
    rw [placeMember_kept (fateAfter_eq_iff.1 hf).1, addToOwner_containersOf_joins hf]
    rfl
  | lost =>
    obtain ⟨hkept, howner, hname, hno⟩ := fateAfter_eq_iff.1 hf
    rw [placeMember_kept hkept, addToOwner_containersOf_eq_none howner hno, fates_concat, hf,
      containersOf_concat (by simp) rfl]
    simp [hname]

/-- All members are put where their fates say, and what is noted is what their fates say. -/
theorem placeMembers_eq (ms : List Declaration) :
    placeMembers includePrivate (classes.map fun d => ⟨d, []⟩) ms =
      ⟨containersOf classes (fates includePrivate classes ms),
        (fates includePrivate classes ms).flatMap fun f => f.2.entries f.1⟩ := by
  induction ms using List.reverseRecOn with
  | nil =>
    rw [← containersOf_nil]
    rfl
  | append_singleton ms m ih =>
    rw [placeMembers, List.foldlM_append, ← placeMembers, ih, fates_concat, List.flatMap_append,
      List.flatMap_singleton]
    refine Noted.ext' ?_ ?_
    · simp only [List.foldlM_cons, List.foldlM_nil, Noted.value_bind, Noted.value_pure,
        placeMember_containersOf, fates_concat]
    · simp only [List.foldlM_cons, List.foldlM_nil, Noted.entries_bind, Noted.entries_pure,
        placeMember_containersOf, List.append_nil]

/-! ### The last owner of a path -/

theorem map_fst_fates_owned (ms : List Declaration) (i : Nat) :
    (((fates includePrivate classes ms).filter fun f => f.2 = .owned i).map Prod.fst) =
      ms.filter fun m =>
        m.isKept includePrivate && lastOwner? m.ownerPath classes = some i := by
  induction ms using List.reverseRecOn with
  | nil => rfl
  | append_singleton ms m ih =>
    rw [fates_concat, List.filter_append, List.map_append, ih, List.filter_append]
    congr 1
    have hfate : fateAfter includePrivate classes ms m = .owned i ↔
        m.isKept includePrivate = true ∧ lastOwner? m.ownerPath classes = some i :=
      fateAfter_eq_iff
    by_cases hf : fateAfter includePrivate classes ms m = .owned i
    · simp [hf, hfate.1 hf]
    · have hno : ¬(m.isKept includePrivate = true ∧ lastOwner? m.ownerPath classes = some i) :=
        fun h => hf (hfate.2 h)
      simp [hf, hno]

/-- The last declaration of its path holds the members of that path that are kept, and no others. -/
theorem getElem?_containersOf {d : Declaration} {i : Nat} (hi : classes[i]? = some d)
    (hrole : d.role ≠ some .function)
    (hlast : ∀ j e, i < j → classes[j]? = some e → e.ownsPath d.fullPath = false)
    (ms : List Declaration) :
    (containersOf classes (fates includePrivate classes ms))[i]? =
      some ⟨d, (ms.filter fun m =>
        m.isKept includePrivate && m.ownerPath = d.fullPath).map d.asMemberOf⟩ := by
  have howner (path : Text) : lastOwner? path classes = some i ↔ path = d.fullPath := by
    rw [lastOwner?_eq_some_iff]
    constructor
    · rintro ⟨⟨e, he, howns⟩, -⟩
      obtain rfl := Option.some.inj (hi.symm.trans he)
      simp only [Declaration.ownsPath, Bool.and_eq_true, decide_eq_true_eq] at howns
      exact howns.2.symm
    · rintro rfl
      exact ⟨⟨d, hi, by simp [Declaration.ownsPath, hrole]⟩, hlast⟩
  have hlt : i < (declaredContainers classes (fates includePrivate classes ms)).length := by
    rw [declaredContainers, List.length_mapIdx]
    exact (List.getElem?_eq_some_iff.1 hi).1
  have hmembers := @map_fst_fates_owned includePrivate classes ms i
  simp only [howner] at hmembers
  rw [containersOf, List.getElem?_append_left hlt, declaredContainers, List.getElem?_mapIdx, hi,
    Option.map_some, ← hmembers, List.map_map]
  rfl

end Run

end DocDecl
