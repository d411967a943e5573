import DocDecl.Proofs.Delimiter.Nesting
import DocDecl.Proofs.Parameter.Line
import DocDecl.Proofs.TypeExpr.Congruence

/-!
# The brackets of types

The form of a type has the brackets of the type, but for rest types with several alternatives, which
are put into round brackets. The bars between alternatives are looked for with no regard to angle
brackets, so that a rest type may have angle brackets that are not closed in it, and round brackets
around these are not nested. A return type is cut at its first link, and the brackets that are open
there stay open.

## Main definitions

* `OpensAs` : a text has the brackets of another, on a condition.
* `restsInBrackets` : the rest types that are put into round brackets.
* `NestsReturnType` : when the brackets of a return type are nested.

## Main results

* `isFormCongruence_of_unbracketed` : relations that see brackets only.
* `IsNestedCode.isNested_declaredType` : the brackets of code in the form of a type.
* `IsNestedCode.opensAs_declaredType` : all brackets in the form of a type.
* `nestsReturnType` : the brackets of return types.
-/

namespace DocDecl

open Text

variable {angles : Bool} {a r s s' t t' : Text} {P Q : Prop}

/-! ### Relations that see brackets only -/

/-- No rule on names sees a character that is no bracket, and the only brackets that one puts in are
a pair. -/
theorem isFormCongruence_of_unbracketed {R : Text → Text → Prop} (hequiv : Equivalence R)
    (happend : ∀ {s s' t t' : Text}, R s s' → R t t' → R (s ++ t) (s' ++ t'))
    (hplain : ∀ c, isBracketOf true c = false → R [c] []) (hsquare : R "[]" []) :
    IsFormCongruence R := by
  have hnil {t : Text} (ht : t.any (isBracketOf true) = false) : R t [] := by
    induction t with
    | nil => exact hequiv.refl []
    | cons c t ih =>
      rw [List.any_cons, Bool.or_eq_false_iff] at ht
      exact happend (hplain c ht.1) (ih ht.2)
  have hsame {s t : Text} (hs : s.any (isBracketOf true) = false)
      (ht : t.any (isBracketOf true) = false) : R s t :=
    hequiv.trans (hnil hs) (hequiv.symm (hnil ht))
  have hlower (c : Char) : R [lowerAscii c] [c] := by
    rcases lowerAscii_eq_self_or_mem c with hc | hc
    · rw [hc]
      exact hequiv.refl [c]
    · have hcapital : capitals.any (fun c => [lowerAscii c, c].any (isBracketOf true)) = false := by
        decide
      have hboth := eq_false_of_any hcapital c hc
      rw [List.any_cons, Bool.or_eq_false_iff] at hboth
      exact hequiv.trans (hplain _ hboth.1) (hequiv.symm (hnil hboth.2))
  have hlink (owner m : Text) :
      R ("typeof " ++ owner ++ ".prototype." ++ m) (owner ++ "#" ++ m) := by
    have htypeof : R "typeof " [] := hnil (by decide)
    exact happend (happend (happend htypeof (hequiv.refl owner)) (hsame (by decide) (by decide)))
      (hequiv.refl m)
  have hany : R "any" "array" := hsame (by decide) (by decide)
  exact
    { equivalence := hequiv
      append := happend
      lower_char := hlower
      blank := fun hc => hplain _ (eq_false_of_isBlank (by decide +kernel) hc)
      bar := hnil (by decide)
      dots := hnil (by decide)
      external := hequiv.symm (hnil (by decide))
      module := hequiv.symm (hnil (by decide))
      tilde := hsame (by decide) (by decide)
      hash := hequiv.symm (hnil (by decide))
      link := hlink
      array := happend hany hsquare
      star := hsame (by decide) (by decide) }

/-- The rules on names keep what a text does to the open brackets. -/
theorem isFormCongruence_openBehind (angles : Bool) :
    IsFormCongruence fun s t => ∀ ks, openBehind? angles ks s = openBehind? angles ks t :=
  isFormCongruence_of_unbracketed
    ⟨fun _ _ => rfl, fun h ks => (h ks).symm, fun h h' ks => (h ks).trans (h' ks)⟩
    (fun hs ht ks => by simp only [openBehind?_append, hs, ht])
    (fun c hc ks => by
      rw [openBehind?_singleton, bracketStep_of_isBracketOf (isBracketOf_of_true hc)]
      rfl)
    fun ks => by cases angles <;> rfl

/-- The rules on names keep the number of brackets that a text leaves open. -/
theorem isFormCongruence_bracketHeight :
    IsFormCongruence fun s t => bracketHeight s = bracketHeight t :=
  isFormCongruence_of_unbracketed ⟨fun _ => rfl, Eq.symm, Eq.trans⟩
    (fun hs ht => by rw [bracketHeight_append, bracketHeight_append, hs, ht])
    (fun c hc => by
      rw [isBracketOf, Bool.or_eq_false_iff] at hc
      simp [bracketHeight, charHeight, hc.1, hc.2])
    rfl

/-- The form of a type leaves as many brackets open as the type. -/
theorem bracketHeight_declaredType (t : Text) : bracketHeight (declaredType t) = bracketHeight t :=
  isFormCongruence_bracketHeight.declaredType
    (fun t => by
      have hround : bracketHeight "(" + bracketHeight ")" = 0 := rfl
      simp only [bracketHeight_append]
      omega) rfl t

/-! ### Texts with nested brackets -/

theorem IsNested.append (hs : IsNested angles s) (ht : IsNested angles t) :
    IsNested angles (s ++ t) := by
  rw [IsNested, openBehind?_append, hs, Option.bind_some]
  exact ht

theorem isNested_trim_iff : IsNested angles (trim t) ↔ IsNested angles t := by
  rw [IsNested, (isFormCongruence_openBehind angles).trim t []]
  rfl

/-- Round brackets around a text. -/
theorem IsNested.parenthesised (h : IsNested angles t) : IsNested angles ("(" ++ t ++ ")") := by
  have hopen : openBehind? angles [] "(" = some [')'] := by cases angles <;> rfl
  have hclose : openBehind? angles [')'] ")" = some [] := by cases angles <;> rfl
  rw [IsNested, openBehind?_append, openBehind?_append, hopen, Option.bind_some, h.openBehind?_eq,
    Option.bind_some, hclose]

theorem isNested_flatten {ts : List Text} (h : ∀ t ∈ ts, IsNested angles t) :
    IsNested angles ts.flatten := by
  induction ts with
  | nil => rfl
  | cons t ts ih =>
    obtain ⟨ht, hts⟩ := List.forall_mem_cons.1 h
    exact ht.append (ih hts)

theorem isNested_join {ts : List Text} (h : ∀ t ∈ ts, IsNested angles t) :
    IsNested angles (join "|" ts) :=
  ((isFormCongruence_openBehind angles).join ts []).trans (isNested_flatten h)

/-! ### Types in code -/

/-- Code without strings and comments in which the brackets of code are nested. -/
structure IsNestedCode (t : Text) : Prop extends IsPlainCode t where
  nested : IsNested false t

namespace IsNestedCode

theorem trim (h : IsNestedCode t) : IsNestedCode (Text.trim t) :=
  ⟨h.of_isInfix (trim_isInfix t), isNested_trim_iff.2 h.nested⟩

/-- What the brackets around all of a text enclose. -/
theorem inside (h : IsNestedCode t) :
    IsNestedCode (if isParenthesised t then insideGroup t else t) := by
  split_ifs with hparen
  · obtain ⟨s, hs, rfl⟩ := isParenthesised_iff.1 hparen
    rw [insideGroup_append]
    have hplain : IsPlainCode s := h.of_isInfix ⟨['('], [')'], rfl⟩
    exact ⟨hplain, hs.isNested hplain⟩
  · exact h

theorem of_mem_alternatives (h : IsNestedCode t) (ha : a ∈ alternatives t) : IsNestedCode a := by
  have hinside := h.inside
  rw [alternatives] at ha
  generalize (if isParenthesised t then insideGroup t else t) = u at hinside ha
  refine ⟨hinside.of_isInfix (infix_of_mem_splitTopLevel ha), ?_⟩
  obtain ⟨p, ps, hpieces, hp, hps⟩ := exists_piecesAt '|' rfl hinside.toIsPlainCode hinside.nested
  rw [List.length_nil, Int.ofNat_zero] at hpieces
  simp only [splitTopLevel, hpieces, List.mem_filter, List.mem_map] at ha
  obtain ⟨⟨q, hq, rfl⟩, -⟩ := ha
  have hnested : ∀ q ∈ p :: ps, IsNested false q := List.forall_mem_cons.2 ⟨hp, hps⟩
  exact isNested_trim_iff.2 (hnested q hq)

theorem of_after? (h : IsNestedCode t) (hr : after? "..." t = some r) : IsNestedCode r := by
  obtain rfl := after?_eq_some_iff.1 hr
  refine ⟨h.of_isInfix (List.suffix_append _ _).isInfix, ?_⟩
  have hdots := (isFormCongruence_openBehind false).append (isFormCongruence_openBehind false).dots
    ((isFormCongruence_openBehind false).refl r)
  exact (hdots []).symm.trans h.nested

/-- The brackets of code are nested in the form of a type. -/
theorem isNested_declaredType (h : IsNestedCode t) : IsNested false (declaredType t) := by
  have hunion (t : Text) (h : IsNestedCode t)
      (ih : ∀ a : {a // a ∈ alternatives t}, IsNestedCode a.1 → IsNested false (declaredType a.1)) :
      IsNested false (join "|" ((alternatives t).attach.map fun a => declaredType a.1)) := by
    refine isNested_join fun u hu => ?_
    obtain ⟨a, -, rfl⟩ := List.mem_map.1 hu
    exact ih a (h.of_mem_alternatives a.2)
  fun_induction declaredType t with
  | case1 t _ fixed _ ih => exact (hunion _ h.trim ih).parenthesised
  | case2 t _ fixed _ ih => exact hunion _ h.trim ih
  | case3 t _ r hr ih =>
    have hr := ih (h.trim.of_after? hr)
    rw [restType_eq_append]
    refine IsNested.append ?_ rfl
    split_ifs
    · exact hr.parenthesised
    · exact hr
  | case4 t => exact ((isFormCongruence_openBehind false).plainType _ []).trans h.trim.nested

end IsNestedCode

/-! ### Texts that are nested as others -/

/-- One text does to the open brackets what another does, provided that a condition holds. Without
it a bracket of the text is not nested, whatever is open. -/
def OpensAs (P : Prop) (s t : Text) : Prop :=
  ∀ ks ks', openBehind? true ks s = some ks' ↔ P ∧ openBehind? true ks t = some ks'

namespace OpensAs

theorem of_eq (h : ∀ ks, openBehind? true ks s = openBehind? true ks t) (hP : P) : OpensAs P s t :=
  fun ks ks' => by simp [h ks, hP]

theorem congr (h : OpensAs P s t) (hs : ∀ ks, openBehind? true ks s' = openBehind? true ks s)
    (ht : ∀ ks, openBehind? true ks t = openBehind? true ks t') : OpensAs P s' t' :=
  fun ks ks' => by rw [hs ks, h ks ks', ht ks]

theorem append (hs : OpensAs P s s') (ht : OpensAs Q t t') :
    OpensAs (P ∧ Q) (s ++ t) (s' ++ t') := by
  intro ks ks'
  simp only [openBehind?_append, Option.bind_eq_some_iff, hs ks _, ht _ ks']
  constructor
  · rintro ⟨S, ⟨hP, hS⟩, hQ, ht⟩
    exact ⟨⟨hP, hQ⟩, S, hS, ht⟩
  · rintro ⟨⟨hP, hQ⟩, S, hS, ht⟩
    exact ⟨S, ⟨hP, hS⟩, hQ, ht⟩

theorem surround (h : OpensAs P s t) (u v : Text) : OpensAs P (u ++ s ++ v) (u ++ t ++ v) := by
  have happend := ((of_eq (s := u) (fun _ => rfl) trivial).append h).append
    (of_eq (s := v) (fun _ => rfl) trivial)
  rwa [true_and, and_true] at happend

theorem flatten {α : Type} {C : α → Prop} {f g : α → Text} {as : List α}
    (h : ∀ a ∈ as, OpensAs (C a) (f a) (g a)) :
    OpensAs (∀ a ∈ as, C a) (as.map f).flatten (as.map g).flatten := by
  induction as with
  | nil => exact of_eq (fun _ => rfl) (by simp)
  | cons a as ih =>
    obtain ⟨ha, has⟩ := List.forall_mem_cons.1 h
    rw [List.forall_mem_cons]
    exact ha.append (ih has)

end OpensAs

/-! ### Rest types -/

/-- The rest types in a type that are put into round brackets. -/
def restsInBrackets (type : Text) : List Text :=
  if h : '|' ∈ Text.trim type ∧ 1 < (alternatives (Text.trim type)).length then
    (alternatives (Text.trim type)).attach.flatMap fun a =>
      have := length_lt_of_mem_alternatives a.2 h.2
      restsInBrackets a.1
  else
    match _hr : Text.after? "..." (Text.trim type) with
    | some r =>
      (if '|' ∈ declaredType r ∧ (declaredType r).head? ≠ some '(' then [r] else []) ++
        restsInBrackets r
    | none => []
termination_by type.length
decreasing_by
  · have := Text.length_trim_le type
    omega
  · have h1 := Text.length_trim_le type
    have h2 := Text.length_of_after? _hr
    have h3 : ("..." : Text).length = 3 := rfl
    omega

/-- All brackets in the rest types that are put into round brackets are nested. -/
def NestsRests (t : Text) : Prop := ∀ r ∈ restsInBrackets t, IsNested true r

instance (t : Text) : Decidable (NestsRests t) :=
  inferInstanceAs (Decidable (∀ r ∈ restsInBrackets t, IsNested true r))

theorem nestsRests_union (h : '|' ∈ trim t ∧ 1 < (alternatives (trim t)).length) :
    NestsRests t ↔ ∀ a : {a // a ∈ alternatives (trim t)}, NestsRests a.1 := by
  rw [NestsRests, restsInBrackets, dif_pos h]
  simp only [List.mem_flatMap, List.mem_attach, true_and]
  exact ⟨fun h a r hr => h r ⟨a, hr⟩, fun h r ⟨a, hr⟩ => h a r hr⟩

theorem nestsRests_rest (h : ¬('|' ∈ trim t ∧ 1 < (alternatives (trim t)).length))
    (hr : after? "..." (trim t) = some r) :
    NestsRests t ↔
      ('|' ∈ declaredType r ∧ (declaredType r).head? ≠ some '(' → IsNested true r) ∧
        NestsRests r := by
  rw [NestsRests, restsInBrackets, dif_neg h]
  split
  · next r' hr' =>
    obtain rfl := Option.some.inj (hr.symm.trans hr')
    rw [List.forall_mem_append]
    refine and_congr_left' ?_
    split_ifs with hbar
    · simp [hbar]
    · simp [hbar]
  · next hnone =>
    rw [hr] at hnone
    cases hnone

theorem nestsRests_plain (h : ¬('|' ∈ trim t ∧ 1 < (alternatives (trim t)).length))
    (hr : after? "..." (trim t) = none) : NestsRests t := by
  rw [NestsRests, restsInBrackets, dif_neg h]
  split
  · next r' hr' =>
    rw [hr] at hr'
    cases hr'
  · exact fun r hmem => nomatch hmem

/-- Without dots there is no rest type. -/
theorem nestsRests_of_no_dots (h : ¬"...".toList <:+: t) : NestsRests t := by
  fun_induction declaredType t with
  | case1 t hu _ _ ih | case2 t hu _ _ ih =>
    refine (nestsRests_union hu).2 fun a => ih a fun hdots => h ?_
    exact hdots.trans ((infix_of_mem_alternatives a.2).trans (trim_isInfix t))
  | case3 t _ r hr ih =>
    have hdots : "...".toList <:+: trim t := ⟨[], r, (after?_eq_some_iff.1 hr).symm⟩
    exact absurd (hdots.trans (trim_isInfix t)) h
  | case4 t hu hr => exact nestsRests_plain hu hr

/-- **The brackets in the form of a type.** They are nested as in the type, if those in the rest
types that are put into round brackets are. -/
theorem IsNestedCode.opensAs_declaredType (h : IsNestedCode t) :
    OpensAs (NestsRests t) (declaredType t) t := by
  have hform := isFormCongruence_openBehind true
  have hunion (t : Text) (h : IsNestedCode t)
      (ih : ∀ a : {a // a ∈ alternatives t}, IsNestedCode a.1 →
        OpensAs (NestsRests a.1) (declaredType a.1) a.1) :
      OpensAs (∀ a : {a // a ∈ alternatives t}, NestsRests a.1)
        (join "|" ((alternatives t).attach.map fun a => declaredType a.1))
        (if isParenthesised t then insideGroup t else t) := by
    have hflatten : OpensAs (∀ a ∈ (alternatives t).attach, NestsRests a.1) _ _ :=
      .flatten fun a _ => ih a (h.of_mem_alternatives a.2)
    rw [List.attach_map_subtype_val] at hflatten
    simp only [List.mem_attach, forall_true_left] at hflatten
    exact hflatten.congr (hform.join _) (hform.alternatives t)
  fun_induction declaredType t with
  | case1 t hu fixed hparen ih =>
    have hinside := hunion _ h.trim ih
    obtain ⟨s, -, hs⟩ := isParenthesised_iff.1 hparen
    have hbody : insideGroup (Text.trim t) = s := by rw [hs, insideGroup_append]
    rw [if_pos hparen, hbody, ← nestsRests_union hu] at hinside
    refine (hinside.surround "(" ")").congr (fun _ => rfl) fun ks => ?_
    rw [← hform.trim t ks, hs]
    rfl
  | case2 t hu fixed hparen ih =>
    have hinside := hunion _ h.trim ih
    rw [if_neg hparen, ← nestsRests_union hu] at hinside
    exact hinside.congr (fun _ => rfl) (hform.trim t)
  | case3 t hu r hr ih =>
    have hcode := h.trim.of_after? hr
    have hsame (ks : List Char) : openBehind? true ks r = openBehind? true ks t := by
      have hdots := hform.append hform.dots (hform.refl r)
      rw [← after?_eq_some_iff.1 hr] at hdots
      rw [← hform.trim t ks]
      exact (hdots ks).symm
    have hsquare (u : Text) (ks : List Char) :
        openBehind? true ks (u ++ "[]") = openBehind? true ks u := by
      have happend : ∀ ks, openBehind? true ks (u ++ "[]") = openBehind? true ks (u ++ []) :=
        hform.append (hform.refl u) fun _ => rfl
      rw [List.append_nil] at happend
      exact happend ks
    rw [restType_eq_append]
    refine OpensAs.congr ?_ (hsquare _) hsame
    intro ks ks'
    rw [nestsRests_rest hu hr]
    split_ifs with hbar
    · rw [openBehind?_parenthesised hcode.isNested_declaredType, IsNested, ih hcode [] []]
      constructor
      · rintro ⟨⟨hrests, hnested⟩, rfl⟩
        exact ⟨⟨fun _ => hnested, hrests⟩, IsNested.openBehind?_eq hnested ks⟩
      · rintro ⟨⟨hnested, hrests⟩, hopen⟩
        have hks := (hnested hbar).openBehind?_eq ks
        exact ⟨⟨hrests, hnested hbar⟩, Option.some.inj (hks.symm.trans hopen)⟩
    · rw [ih hcode ks ks']
      simp [hbar]
  | case4 t hu hr =>
    exact .of_eq (fun ks => (hform.plainType _ ks).trans (hform.trim t ks)) (nestsRests_plain hu hr)

theorem IsNestedCode.isNested_declaredType_iff (h : IsNestedCode t) :
    IsNested true (declaredType t) ↔ NestsRests t ∧ IsNested true t :=
  h.opensAs_declaredType [] []

/-! ### Return types -/

/-- What stands in front of the first link in a type. -/
def beforeLink (t : Text) : Text := (trim t).takeWhile (· ≠ '#')

/-- The return type of a comment is that of its first return tag, up to the first link in it. -/
theorem returnType_braced {comment p T rest : Text}
    (htag : Tag.afterFirst? ["returns", "return"] comment = some r)
    (hline : r.takeWhile (· ≠ '\n') = p ++ '{' :: (T ++ '}' :: rest)) (hp : '{' ∉ p)
    (hT : IsNestedCode T) :
    returnType comment = if trim T = [] then "void".toList else declaredType (beforeLink T) := by
  have htype : bracedType? (r.takeWhile (· ≠ '\n')) = some (trim T) := by
    rw [bracedType?, hline, ParamParts.dropWhile_ne_brace hp,
      group?_of_isNested rfl hT.toIsPlainCode hT.nested, Option.map_some]
    simp only [insideGroup_append]
  rw [returnType, writtenReturn?, htag]
  simp only [htype]
  cases htrim : trim T with
  | nil => rfl
  | cons c t =>
    rw [if_neg (List.cons_ne_nil c t), beforeLink, htrim]
    rfl

/-- When the brackets of the return type of a comment are nested, given the type in its tag. -/
structure NestsReturnType (comment type : Text) : Prop where
  /-- All brackets are nested if those in front of the first link are, and those in the rest types
  there that are put into round brackets. -/
  isNested : IsNested true (beforeLink type) → NestsRests (beforeLink type) →
    IsNested true (returnType comment)
  /-- A bracket that is open at the first link stays open. -/
  isNested_beforeLink : IsNested true (returnType comment) → IsNested true (beforeLink type)
  /-- Without links and rest types nothing else is needed. -/
  isNested_plain : '#' ∉ type → ¬"...".toList <:+: type → IsNested true (returnType comment)

/-- **Return types are nested as far as they are read.** -/
theorem nestsReturnType {comment p T rest : Text}
    (htag : Tag.afterFirst? ["returns", "return"] comment = some r)
    (hline : r.takeWhile (· ≠ '\n') = p ++ '{' :: (T ++ '}' :: rest)) (hp : '{' ∉ p)
    (hT : IsNested true T) (hcode : IsPlainCode T) : NestsReturnType comment T := by
  have hreturn := returnType_braced htag hline hp ⟨hcode, hT.code⟩
  have hcut : beforeLink T <+: trim T := List.takeWhile_prefix _
  have hinfix : beforeLink T <:+: T := hcut.isInfix.trans (trim_isInfix T)
  have hnested (h : IsNested true (beforeLink T)) (hrests : NestsRests (beforeLink T)) :
      IsNested true (returnType comment) := by
    rw [hreturn]
    split_ifs
    · rfl
    · have hnested : IsNestedCode (beforeLink T) := ⟨hcode.of_isInfix hinfix, h.code⟩
      exact hnested.isNested_declaredType_iff.2 ⟨hrests, h⟩
  refine ⟨hnested, fun h => ?_, fun hlink hdots => ?_⟩
  · rw [hreturn] at h
    split_ifs at h with hnil
    · rw [beforeLink, hnil]
      rfl
    · -- the form leaves as many brackets open as the type up to the link
      rw [(isNested_trim_iff.2 hT).isNested_iff_of_isPrefix hcut, ← bracketHeight_declaredType]
      exact h.bracketHeight_eq_zero
  · have hself : beforeLink T = trim T := List.takeWhile_eq_self_iff.2 fun c hc =>
      decide_eq_true (ne_of_mem_of_not_mem (mem_of_mem_trim hc) hlink)
    refine hnested ?_ (nestsRests_of_no_dots fun h => hdots (h.trans hinfix))
    rw [hself]
    exact isNested_trim_iff.2 hT

theorem nestsReturnType_union :
    NestsReturnType "/**\n * @returns \x7bPromise<Foo[]>|Foo#bar\x7d The next one.\n */"
      "Promise<Foo[]>|Foo#bar" :=
  @nestsReturnType " \x7bPromise<Foo[]>|Foo#bar\x7d The next one.\n */" _ " " _ " The next one."
    (by decide +kernel) (by decide +kernel) (by decide) (by decide +kernel)
    ⟨eq_false_of_any (by decide +kernel), by decide +kernel, by decide +kernel⟩

/-- A link in angle brackets leaves them open, and a bar in them takes the closing one into the
round brackets of a rest type. -/
theorem not_isNested_of_link :
    (Tag.afterFirst? ["returns", "return"] "/**\n * @returns \x7bArray<Foo#bar>\x7d\n */" =
        some " \x7bArray<Foo#bar>\x7d\n */".toList ∧
      IsNested true "Array<Foo#bar>" ∧ IsPlainCode "Array<Foo#bar>" ∧
      ¬"=>".toList <:+: "Array<Foo#bar>".toList ∧
      returnType "/**\n * @returns \x7bArray<Foo#bar>\x7d\n */" = "Array<Foo".toList ∧
      ¬IsNested true "Array<Foo") ∧
    Tag.afterFirst? ["returns", "return"] "/**\n * @returns \x7bFoo<X|...\x7ba:A|B\x7d>\x7d\n */" =
        some " \x7bFoo<X|...\x7ba:A|B\x7d>\x7d\n */".toList ∧
      IsNested true "Foo<X|...\x7ba:A|B\x7d>" ∧ IsPlainCode "Foo<X|...\x7ba:A|B\x7d>" ∧
      ¬"=>".toList <:+: "Foo<X|...\x7ba:A|B\x7d>".toList ∧
      returnType "/**\n * @returns \x7bFoo<X|...\x7ba:A|B\x7d>\x7d\n */" =
        "Foo<X|(\x7ba:A|B\x7d>)[]".toList ∧
      ¬IsNested true "Foo<X|(\x7ba:A|B\x7d>)[]" :=
  ⟨⟨by decide +kernel, by decide +kernel,
      ⟨eq_false_of_any (by decide +kernel), by decide +kernel, by decide +kernel⟩,
      by decide +kernel, by decide +kernel, by decide +kernel⟩,
    by decide +kernel, by decide +kernel,
    ⟨eq_false_of_any (by decide +kernel), by decide +kernel, by decide +kernel⟩, by decide +kernel,
    by decide +kernel, by decide +kernel⟩

end DocDecl
