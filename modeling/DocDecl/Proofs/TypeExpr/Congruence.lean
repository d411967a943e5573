import DocDecl.Proofs.Text.Replacing
import DocDecl.Proofs.TypeExpr.Alternatives

/-!
# What bringing a type into its form changes

Types are brought into their form by many small rules, and together they put in and take out much:
names are respelled, links are written out, brackets come and go. A relation between texts that
holds for what each rule puts in and what it takes out holds between the form of a type and the
type, if it holds for texts whose parts it holds for. The names need the rules for names, and unions
and rest types those for brackets.

## Main definitions

* `IsFormCongruence` : relations that hold for every rule on names.

## Main results

* `IsFormCongruence.plainType` : the form of a name.
* `IsFormCongruence.alternatives` : the alternatives of a type.
* `IsFormCongruence.declaredType` : the form of a type.
-/

namespace DocDecl

open Text

/-- A relation between texts that holds for what each rule on names puts in and what it takes out,
and for texts whose parts it holds for. -/
structure IsFormCongruence (R : Text → Text → Prop) : Prop where
  equivalence : Equivalence R
  append : ∀ {s s' t t' : Text}, R s s' → R t t' → R (s ++ t) (s' ++ t')
  /-- Names are spelled in any case. -/
  lower_char : ∀ c, R [lowerAscii c] [c]
  blank : ∀ {c}, isBlank c = true → R [c] []
  bar : R "|" []
  dots : R "..." []
  external : R [] "external:"
  module : R [] "module:"
  tilde : R "." "~"
  hash : R [] "#"
  link : ∀ owner m : Text, R ("typeof " ++ owner ++ ".prototype." ++ m) (owner ++ "#" ++ m)
  array : R "any[]" "array"
  star : R "any" "*"

namespace IsFormCongruence

variable {R : Text → Text → Prop} {old new s t : Text} {ts : List Text}

theorem refl (h : IsFormCongruence R) (t : Text) : R t t := h.equivalence.refl t

theorem symm (h : IsFormCongruence R) (hst : R s t) : R t s := h.equivalence.symm hst

theorem trans (h : IsFormCongruence R) {u : Text} (hst : R s t) (htu : R t u) : R s u :=
  h.equivalence.trans hst htu

/-! ### Characters, blanks and replacing -/

theorem map (h : IsFormCongruence R) {f : Char → Char} (hf : ∀ c, R [f c] [c]) (t : Text) :
    R (t.map f) t := by
  induction t with
  | nil => exact h.refl []
  | cons c t ih => exact h.append (hf c) ih

theorem lower (h : IsFormCongruence R) (t : Text) : R (Text.lower t) t := h.map h.lower_char t

theorem of_lower_eq (h : IsFormCongruence R) (heq : Text.lower s = Text.lower t) : R s t :=
  h.trans (h.symm (h.lower s)) (heq ▸ h.lower t)

theorem blanks (h : IsFormCongruence R) (ht : t.all isBlank = true) : R t [] := by
  induction t with
  | nil => exact h.refl []
  | cons c t ih =>
    rw [List.all_cons, Bool.and_eq_true] at ht
    exact h.append (h.blank ht.1) (ih ht.2)

theorem trim (h : IsFormCongruence R) (t : Text) : R (Text.trim t) t := by
  obtain ⟨gap, gap', hgap, hgap', ht⟩ := exists_eq_append_trim t
  have hgaps : R (gap ++ (Text.trim t ++ gap')) ([] ++ (Text.trim t ++ [])) :=
    h.append (h.blanks hgap) (h.append (h.refl _) (h.blanks hgap'))
  rw [List.nil_append, List.append_nil] at hgaps
  conv_rhs => rw [ht]
  simpa using h.symm hgaps

/-- Related texts may replace each other. -/
theorem replace (h : IsFormCongruence R) (hne : old ≠ []) (hR : R new old) (t : Text) :
    R (Text.replace old new t) t := by
  have hafter (skip : Nat) (t : Text) : R (replaceAfter old new skip t) (t.drop skip) := by
    fun_induction replaceAfter old new skip t with
    | case1 => rw [List.drop_nil]; exact h.refl []
    | case2 skip c t ih => exact ih
    | case3 c t hprefix ih =>
      obtain ⟨r, hr⟩ := List.isPrefixOf_iff_prefix.1 hprefix
      obtain ⟨d, old, rfl⟩ := List.exists_cons_of_ne_nil hne
      obtain ⟨rfl, rfl⟩ := List.cons.inj hr
      have hrest : R (replaceAfter (d :: old) new old.length (old ++ r))
          ((old ++ r).drop old.length) := ih
      rw [List.drop_left] at hrest
      exact h.append hR hrest
    | case4 c t _ ih => exact h.append (h.refl [c]) ih
  rw [Text.replace, if_neg hne]
  exact hafter 0 t

/-! ### Names -/

/-- A beginning that is spelled in any case may be respelled. -/
theorem respell (h : IsFormCongruence R) {key name : Text} (hkey : key <+: Text.lower t)
    (hname : Text.lower name = key) : R (name ++ t.drop key.length) t := by
  have htake : Text.lower (t.take key.length) = key := by
    rw [Text.lower, List.map_take]
    exact (List.prefix_iff_eq_take.1 hkey).symm
  conv_rhs => rw [← List.take_append_drop key.length t]
  exact h.append (h.of_lower_eq (hname.trans htake.symm)) (h.refl _)

theorem collectionType (h : IsFormCongruence R) (hs : collectionType? t = some s) : R s t := by
  obtain ⟨name, -, hname⟩ := List.exists_of_findSome?_eq_some hs
  simp only at hname
  split_ifs at hname with heq hprefix
  · obtain rfl := Option.some.inj hname
    exact h.of_lower_eq heq.symm
  · obtain rfl := Option.some.inj hname
    have hkey := (List.prefix_append _ _).trans (List.isPrefixOf_iff_prefix.1 hprefix)
    exact h.respell hkey rfl

theorem namedType (h : IsFormCongruence R) (t : Text) : R (DocDecl.namedType t) t := by
  rw [DocDecl.namedType]
  split
  · next s hs =>
    have hspelling : ∀ s ∈ typeSpellings, Text.lower s.2 = s.1 := by decide
    have hlower : s.1 = Text.lower t := by simpa using List.find?_some hs
    exact h.of_lower_eq ((hspelling s (List.mem_of_find?_eq_some hs)).trans hlower)
  · split
    · next u hu => exact h.collectionType hu
    · split_ifs with harray hprefix hstar
      · exact h.trans h.array (harray ▸ h.lower t)
      · have hkey : "array".toList <+: Text.lower t :=
          (List.prefix_append "array".toList ['<']).trans (List.isPrefixOf_iff_prefix.1 hprefix)
        exact h.respell hkey (by decide)
      · rw [hstar]
        exact h.star
      · exact h.refl t

theorem plainType (h : IsFormCongruence R) (t : Text) : R (DocDecl.plainType t) t := by
  have hreplaced :
      R (Text.replace "~" "." (Text.replace "module:" "" (Text.replace "external:" "" t))) t :=
    h.trans (h.replace (by decide) h.tilde _)
      (h.trans (h.replace (by decide) h.module _) (h.replace (by decide) h.external t))
  refine h.trans ?_ hreplaced
  rw [DocDecl.plainType]
  generalize Text.replace "~" "." (Text.replace "module:" "" (Text.replace "external:" "" t)) = u
  split
  · next owner hcut =>
    rw [eq_of_cut? hcut, List.append_nil]
    have hhash := h.append (h.refl owner) h.hash
    rwa [List.append_nil] at hhash
  · next owner m _ hcut =>
    rw [eq_of_cut? hcut]
    exact h.link owner m
  · exact h.namedType u

/-! ### Unions and rest types -/

/-- The pieces of a text may be changed into related ones. -/
theorem flatten (h : IsFormCongruence R) {α : Type} {f g : α → Text} (hfg : ∀ a, R (f a) (g a))
    (as : List α) : R (as.map f).flatten (as.map g).flatten := by
  induction as with
  | nil => exact h.refl []
  | cons a as ih => exact h.append (hfg a) ih

theorem join (h : IsFormCongruence R) (ts : List Text) : R (Text.join "|" ts) ts.flatten := by
  induction ts with
  | nil => exact h.refl []
  | cons t ts ih =>
    by_cases hts : ts = []
    · subst hts
      simpa [Text.join] using h.refl t
    · rw [join_cons hts, List.append_assoc, List.flatten_cons]
      exact h.append (h.refl t) (h.append h.bar ih)

theorem splitTopLevel (h : IsFormCongruence R) (t : Text) :
    R (DocDecl.splitTopLevel (some '|') t).flatten t := by
  rw [DocDecl.splitTopLevel, List.flatten_filter_not_isEmpty]
  have htrim := h.flatten h.trim (piecesAt (some '|') 0 t)
  have hpieces := h.symm (h.join (piecesAt (some '|') 0 t))
  rw [List.map_id'] at htrim
  have hjoin : Text.join "|" (piecesAt (some '|') 0 t) = t := join_piecesAt '|' 0 t
  rw [hjoin] at hpieces
  exact h.trans htrim hpieces

/-- Brackets around all of a type are its only part that stands in no alternative. -/
theorem alternatives (h : IsFormCongruence R) (t : Text) :
    R (DocDecl.alternatives t).flatten (if isParenthesised t then insideGroup t else t) :=
  h.splitTopLevel _

/-- A relation that does not see brackets holds between the form of a type and the type. -/
theorem declaredType (h : IsFormCongruence R) (hround : ∀ t, R ("(" ++ t ++ ")") t)
    (hsquare : R "[]" []) (t : Text) : R (DocDecl.declaredType t) t := by
  have hinside (t : Text) : R (if isParenthesised t then insideGroup t else t) t := by
    split_ifs with hparen
    · obtain ⟨s, -, rfl⟩ := isParenthesised_iff.1 hparen
      rw [insideGroup_append]
      exact h.symm (hround s)
    · exact h.refl t
  have hunion (t : Text)
      (ih : ∀ a : {a // a ∈ DocDecl.alternatives t}, R (DocDecl.declaredType a.1) a.1) :
      R (Text.join "|" ((DocDecl.alternatives t).attach.map fun a => DocDecl.declaredType a.1))
        t := by
    have hforms := h.flatten ih (DocDecl.alternatives t).attach
    rw [List.attach_map_subtype_val] at hforms
    exact h.trans (h.join _) (h.trans hforms (h.trans (h.alternatives t) (hinside t)))
  fun_induction DocDecl.declaredType t with
  | case1 t _ fixed _ ih => exact h.trans (hround fixed) (h.trans (hunion _ ih) (h.trim t))
  | case2 t _ fixed _ ih => exact h.trans (hunion _ ih) (h.trim t)
  | case3 t _ r hr ih =>
    have hdots := h.append h.dots (h.refl r)
    rw [← after?_eq_some_iff.1 hr] at hdots
    have hrest : R (restType (DocDecl.declaredType r)) (DocDecl.declaredType r) := by
      rw [restType_eq_append, ← List.append_nil (DocDecl.declaredType r)]
      refine h.append ?_ hsquare
      rw [List.append_nil]
      split_ifs
      · exact hround _
      · exact h.refl _
    exact h.trans hrest (h.trans ih (h.trans (h.symm hdots) (h.trim t)))
  | case4 t => exact h.trans (h.plainType _) (h.trim t)

end IsFormCongruence

end DocDecl
