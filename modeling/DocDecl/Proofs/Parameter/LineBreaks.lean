import DocDecl.Proofs.Comment.SingleTag
import DocDecl.Proofs.Parameter.Line
import DocDecl.Proofs.TypeExpr.Weight

/-!
# Types over several lines

The lines of a parameter are joined with the margin of the comment between them, so that a
description keeps its layout, and the type is cut out of the joined text. So where a type goes on in
the next line, the line break and the star of the margin are read as a part of the type. Bringing
the type into its form does not take the star away again, so the type of the field is another one.

## Main definitions

* `OneLineType` : a type that may be broken.
* `BreaksType` : what a field has from the type that is broken.

## Main results

* `typeWeight_brokenType` : every break adds a star.
* `SingleTag.fields_join` : the fields of a comment with one tag.
* `breaksType` : the fields for a type in one line and for the type in several lines.
* `not_same_type_of_break` : a type that has a star in it.
-/

namespace DocDecl

open LiteralGrammar Text

variable {l m : Text} {ls : List Text}

/-! ### The type over several lines -/

/-- A type that may stand in one line of a comment: with balanced brackets and without strings and
comments. -/
structure OneLineType (T : Text) : Prop where
  /-- Its brackets are closed. -/
  balanced : Balanced true T
  /-- It has no strings. -/
  unquoted : ∀ c ∈ T, isQuote c = false
  /-- The comment does not end in it. -/
  not_close : ¬"*/".toList <:+: T
  /-- It is one line. -/
  oneLine : '\n' ∉ T

/-- Between two pieces there are blanks. -/
theorem exists_join_cons (l m : Text) (ms : List Text) :
    ∃ gap : Text, gap ≠ [] ∧ (∀ c ∈ gap, isBlank c = true) ∧
      join " " (l :: m :: ms) = trimRight l ++ (gap ++ join " " (trimLeft m :: ms)) := by
  obtain ⟨gap, hgap, hl⟩ := exists_eq_trimRight_append l
  obtain ⟨gap', hgap', hm⟩ := exists_eq_append_trimLeft m
  rw [List.all_eq_true] at hgap hgap'
  have hjoin : join " " (m :: ms) = gap' ++ join " " (trimLeft m :: ms) := by
    rw [← join_append_cons, ← hm]
  have hblank : ∀ c ∈ gap ++ ' ' :: gap', isBlank c = true :=
    List.forall_mem_append.2 ⟨hgap, List.forall_mem_cons.2 ⟨rfl, hgap'⟩⟩
  refine ⟨gap ++ ' ' :: gap', by simp, hblank, ?_⟩
  conv_lhs => rw [join_cons (List.cons_ne_nil m ms), hjoin, hl]
  simp

/-- A break is no bracket, no quote and no comment. -/
theorem balanced_brokenType (s : Text) (hs : ∀ c ∈ s ++ join " " (l :: ls), isQuote c = false)
    (h : Balanced true (s ++ join " " (l :: ls))) : Balanced true (s ++ brokenType l ls) := by
  induction ls generalizing l s with
  | nil => simpa [join, brokenType] using h
  | cons m ms ih =>
    obtain ⟨gap, hne, hgap, hjoin⟩ := exists_join_cons l m ms
    rw [hjoin, ← List.append_assoc] at hs h
    rw [List.forall_mem_append] at hs
    have hbreak := h.replace_blanks (w := "\n * ") hs.1 hgap hne (by decide) (by decide)
      fun t => ⟨by simp, by simp⟩
    rw [← List.append_assoc] at hbreak
    have hfront : ∀ c ∈ s ++ trimRight l ++ "\n * ".toList, isQuote c = false :=
      List.forall_mem_append.2 ⟨hs.1, eq_false_of_any (by decide)⟩
    have hbehind := fun c hc => hs.2 c (List.mem_append_right gap hc)
    have hrest := ih (s ++ trimRight l ++ "\n * ")
      (List.forall_mem_append.2 ⟨hfront, hbehind⟩) hbreak
    simpa [brokenType] using hrest

/-- Each break adds a star to the type. -/
theorem typeWeight_brokenType (l : Text) (ls : List Text) :
    typeWeight (brokenType l ls) = typeWeight (join " " (l :: ls)) + ls.length := by
  induction ls generalizing l with
  | nil => simp [brokenType, join]
  | cons m ms ih =>
    obtain ⟨gap, -, hgap, hjoin⟩ := exists_join_cons l m ms
    have hbreak : typeWeight "\n * " = 1 := by decide
    have hblank : typeWeight gap = 0 := typeWeight_blanks (List.all_eq_true.2 hgap)
    rw [brokenType, hjoin]
    simp only [typeWeight_append, ih, hbreak, hblank, List.length_cons]
    omega

/-- A pattern without blanks does not see behind a text that blanks follow. -/
theorem prefix_trim_append_iff {p z : Text} (hp : ∀ c ∈ p, isBlank c = false) (hl : trim l ≠ [])
    (hz : ∀ c ∈ z.head?, isBlank c = true) : p <+: trim (l ++ z) ↔ p <+: trim l := by
  obtain ⟨gap, hgap, htrim⟩ := exists_trim_append hl z
  rw [htrim]
  cases hright : trimRight (gap ++ z) with
  | nil => rw [List.append_nil]
  | cons c r =>
    have hc : isBlank c = true := by
      obtain ⟨u, -, hu⟩ := exists_eq_trimRight_append (gap ++ z)
      rw [hright] at hu
      cases gap with
      | nil => exact hz c (by rw [← List.nil_append z, hu]; rfl)
      | cons d gap =>
        obtain ⟨rfl, -⟩ := List.cons.inj hu
        exact List.all_eq_true.1 hgap _ List.mem_cons_self
    exact prefix_append_cons_iff fun hmem => by simp [hp c hmem] at hc

/-- A type begins with its first piece. -/
theorem prefix_trim_brokenType {p : Text} (hp : ∀ c ∈ p, isBlank c = false) (hl : trim l ≠ [])
    (ls : List Text) : p <+: trim (brokenType l ls) ↔ p <+: trim (join " " (l :: ls)) := by
  cases ls with
  | nil => simp [brokenType, join]
  | cons m ms =>
    have hright : trim (trimRight l) ≠ [] := by rwa [trim_trimRight]
    rw [brokenType, join_cons (List.cons_ne_nil m ms), List.append_assoc,
      prefix_trim_append_iff hp hright (by simp; decide),
      prefix_trim_append_iff hp hl (by simp; decide), trim_trimRight]

theorem trim_brokenType_ne_nil (hl : trim l ≠ []) : trim (brokenType l ls) ≠ [] := by
  cases ls with
  | nil => exact hl
  | cons m ms => exact trim_append_ne_nil (by rwa [trim_trimRight]) _

/-! ### Fields -/

/-- A field that a line gives, but for its type: dots in front of the name are known only behind
the type. -/
def Field.untyped (dots : Bool) (behind : Text) : Option Field :=
  let parts := ParamParts.behindType [] behind
  match parts.name? with
  | some (c :: name) =>
    let bare := after? "..." (c :: name)
    some
      { type := onlyIf (bare.isSome && !dots) "[]"
        name := bare.getD (c :: name)
        default? := if parts.default = [] then none else some parts.default
        description := parts.description
        optional := parts.optional
        rest := dots || bare.isSome }
  | _ => none

/-- The field with a type in front of the brackets. -/
def Field.typed (type : Text) (f : Field) : Field := { f with type := type ++ f.type }

theorem ParamParts.behindType_eq (type r : Text) :
    behindType type r = { behindType [] r with type? := some type } := by
  rw [behindType, behindType]
  split
  · rfl
  · split <;> rfl

theorem Field.ofBlock?_braced {p X : Text} (hp : '{' ∉ p) (hX : GroupBody X) (hne : trim X ≠ [])
    (r : Text) :
    ofBlock? (p ++ '{' :: (X ++ '}' :: r)) =
      (untyped (("..." : Text).isPrefixOf (trim X)) r).map (typed (declaredType (trim X))) := by
  have hrest (a b : Bool) : ((a || b) && !a) = (b && !a) := by
    cases a <;> cases b <;> rfl
  obtain ⟨c, t, ht⟩ := List.exists_cons_of_ne_nil hne
  rw [ofBlock?, ParamParts.ofLine_braced hp hX, ParamParts.behindType_eq, untyped, ht]
  cases hname : (ParamParts.behindType [] r).name? with
  | none => rfl
  | some name =>
    cases name with
    | nil => rfl
    | cons d name => simp only [hrest, Option.map_some, typed]

/-- The fields of a comment with one block. -/
theorem documentedFields_single {comment tag block : Text} (h : tagBlocks comment tag = [block]) :
    documentedFields comment tag =
      ((Field.ofBlock? block).filter fun f => '.' ∉ f.name).toList := by
  have hparts (f : Field) : withParts [] f = f := withParts_eq_self nofun
  rw [documentedFields_eq, blockFields, h]
  cases hf : Field.ofBlock? block with
  | none => simp [hf]
  | some f =>
    by_cases hdot : '.' ∈ f.name
    · simp [hf, hdot]
    · simp [hf, hdot, putField, hparts, Option.filter]

/-! ### The fields of a comment with one tag -/

namespace SingleTag

variable (b : SingleTag)

/-- The fields that the comment with a given type documents. -/
def fields (type : Text) : List Field := documentedFields (b.comment type) b.name

/-- The field that the comment documents, but for its type. -/
def untyped (type : Text) : Option Field :=
  (Field.untyped (("..." : Text).isPrefixOf (trim type)) b.behind.tail).filter fun f => '.' ∉ f.name

/-- The type is read with its breaks, and the rest of the field as without them. -/
theorem fields_join (hT : OneLineType (join " " (l :: ls))) (hl : trim l ≠ [])
    (hls : ∀ p ∈ ls, trim p ≠ [] ∧ (trim p).head? ≠ some '@') :
    b.fields (join "\n * " (l :: ls)) =
      ((b.untyped (join " " (l :: ls))).map
        (Field.typed (declaredType (trim (brokenType l ls))))).toList := by
  have hinfix {p : Text} (hp : p ∈ l :: ls) : p <:+: join " " (l :: ls) := infix_join hp " "
  have hpieces : ∀ p ∈ ls, TypePiece p := fun p hp =>
    have hp' := hinfix (List.mem_cons_of_mem l hp)
    { not_blank := (hls p hp).1
      not_tag := (hls p hp).2
      not_close := fun h => hT.not_close (h.trans hp')
      oneLine := fun h => hT.oneLine (hp'.subset h) }
  have hfirst := hinfix List.mem_cons_self
  have hblock := b.tagBlocks_comment (fun h => hT.oneLine (hfirst.subset h))
    (fun h => hT.not_close (h.trans hfirst)) hpieces
  obtain ⟨R, hR⟩ := b.exists_behind
  have hbody : GroupBody (brokenType l ls) :=
    (balanced_brokenType [] hT.unquoted hT.balanced).groupBody
  have hdots : ("..." : Text).isPrefixOf (trim (brokenType l ls)) =
      ("..." : Text).isPrefixOf (trim (join " " (l :: ls))) := by
    rw [Bool.eq_iff_iff, List.isPrefixOf_iff_prefix, List.isPrefixOf_iff_prefix]
    exact prefix_trim_brokenType (eq_false_of_any (by decide)) hl ls
  have hne : trim (brokenType l ls) ≠ [] := trim_brokenType_ne_nil hl
  rw [hR] at hblock
  rw [fields, documentedFields_single hblock, Field.ofBlock?_braced b.open_notMem_head hbody hne,
    hdots, untyped, hR, List.tail_cons, Option.filter_map]
  rfl

end SingleTag

/-! ### What breaks change -/

/-- What becomes of the fields of a comment when its type goes on in other lines. -/
structure BreaksType (b : SingleTag) (l : Text) (ls : List Text) : Prop where
  /-- In one line the type is read as it is written. -/
  whole : b.fields (join " " (l :: ls)) =
    ((b.untyped (join " " (l :: ls))).map
      (Field.typed (declaredType (trim (join " " (l :: ls)))))).toList
  /-- In several lines it is read with its breaks, and the rest of the field is the same. -/
  broken : b.fields (join "\n * " (l :: ls)) =
    ((b.untyped (join " " (l :: ls))).map
      (Field.typed (declaredType (trim (brokenType l ls))))).toList
  /-- For every break the type counts one more. -/
  weights : (b.fields (join "\n * " (l :: ls))).map (typeWeight ·.type) =
    (b.fields (join " " (l :: ls))).map (typeWeight ·.type + ls.length)
  /-- So but for its blanks the type is the same only without breaks. -/
  types_iff : (b.fields (join "\n * " (l :: ls))).map (·.type.filter fun c => !isBlank c) =
      (b.fields (join " " (l :: ls))).map (·.type.filter fun c => !isBlank c) ↔
    ls = [] ∨ b.fields (join " " (l :: ls)) = []

/-- **Types over several lines.** -/
theorem breaksType (b : SingleTag) (hT : OneLineType (join " " (l :: ls))) (hl : trim l ≠ [])
    (hls : ∀ p ∈ ls, trim p ≠ [] ∧ (trim p).head? ≠ some '@') : BreaksType b l ls := by
  have hjoin (sep : Text) : join sep [join " " (l :: ls)] = join " " (l :: ls) :=
    List.intercalate_singleton
  have hne : trim (join " " (l :: ls)) ≠ [] := by
    obtain ⟨r, hr⟩ := prefix_join l " " ls
    exact hr ▸ trim_append_ne_nil hl r
  have hbroken := b.fields_join hT hl hls
  have hwhole := b.fields_join (l := join " " (l :: ls)) (by rwa [hjoin]) hne
    fun p (hp : p ∈ []) => nomatch hp
  rw [hjoin, hjoin, brokenType] at hwhole
  cases hf : b.untyped (join " " (l :: ls)) with
  | none =>
    refine ⟨hwhole, hbroken, ?_, ?_⟩
    all_goals rw [hbroken, hwhole, hf]
    · rfl
    · exact iff_of_true rfl (.inr rfl)
  | some f =>
    have hweight : typeWeight (f.typed (declaredType (trim (brokenType l ls)))).type =
        typeWeight (f.typed (declaredType (trim (join " " (l :: ls))))).type + ls.length := by
      simp only [Field.typed, typeWeight_append, typeWeight_declaredType, typeWeight_trim,
        typeWeight_brokenType]
      omega
    refine ⟨hwhole, hbroken, ?_, ?_⟩
    all_goals rw [hbroken, hwhole, hf]
    · exact congrArg ([·]) hweight
    · constructor
      · intro h
        have htypes := congrArg typeWeight (List.cons.inj h).1
        rw [typeWeight_filter_blanks, typeWeight_filter_blanks, hweight] at htypes
        have hzero : ls.length = 0 := by omega
        exact .inl (List.length_eq_zero_iff.1 hzero)
      · rintro (rfl | hnil)
        · rw [brokenType, join, List.intercalate_singleton]
        · cases hnil

/-- A tag with lines in front of it and behind it. -/
theorem breaksType_of_object :
    ∃ b : SingleTag, b.name = "param".toList ∧
      b.comment "Object<string,\n * number>" =
        "/**\n * Counts.\n * @param \x7bObject<string,\n * number>\x7d x - All\n * of them\n */" ∧
      b.fields "Object<string, number>" =
        [{ type := "Object<string, number>", name := "x", description := "All\n * of them" }] ∧
      (b.fields "Object<string,\n * number>").map (·.type.filter fun c => !isBlank c) ≠
        (b.fields "Object<string, number>").map (·.type.filter fun c => !isBlank c) := by
  have hT : OneLineType "Object<string, number>" :=
    { balanced := .plain_append (w := "Object<string, number>") (by decide +kernel)
        (fun _ => rfl) .nil
      unquoted := eq_false_of_any (by decide +kernel)
      not_close := by decide +kernel
      oneLine := by decide +kernel }
  have hbroken : join "\n * " ["Object<string,".toList, "number>".toList] =
      "Object<string,\n * number>".toList := by
    decide
  have hwhole : join " " ["Object<string,".toList, "number>".toList] =
      "Object<string, number>".toList := by
    decide
  have h (b : SingleTag) (hne : b.fields "Object<string, number>" ≠ []) :
      (b.fields "Object<string,\n * number>").map (·.type.filter fun c => !isBlank c) ≠
        (b.fields "Object<string, number>").map (·.type.filter fun c => !isBlank c) := by
    have hbreaks : BreaksType b "Object<string," ["number>"] :=
      breaksType b (hwhole ▸ hT) (by decide) (by decide)
    have htypes := hbreaks.types_iff
    rw [hbroken, hwhole] at htypes
    exact fun heq => (htypes.1 heq).elim (List.cons_ne_nil _ _) hne
  refine ⟨⟨"param", ["/**", " * Counts."], " * ", " ", " x - All", [" * of them", " */"],
    List.all_eq_true.1 ?_, ⟨" ", " ", "*", by decide, rfl, rfl, rfl⟩, List.all_eq_true.1 ?_, ?_,
    ?_⟩, rfl, ?_, ?_, h _ ?_⟩
  all_goals decide +kernel

/-- The star stands in front of the second property. -/
theorem not_same_type_of_break :
    OneLineType "\x7ba: string, b: number\x7d" ∧
      (parameters "/**\n * @param \x7b\x7ba: string, b: number\x7d\x7d x\n */").map Field.type =
        ["\x7ba: string, b: number\x7d"] ∧
      (parameters "/**\n * @param \x7b\x7ba: string,\n * b: number\x7d\x7d x\n */").map Field.type =
        ["\x7ba: string,\n * b: number\x7d"] ∧
      ("\x7ba: string,\n * b: number\x7d" : Text).filter (fun c => !isBlank c) ≠
        ("\x7ba: string, b: number\x7d" : Text).filter fun c => !isBlank c := by
  have hplain : Balanced true "a: string, b: number" :=
    .plain_append (w := "a: string, b: number") (by decide +kernel) (fun _ => rfl) .nil
  refine ⟨⟨.group rfl hplain .nil, eq_false_of_any ?_, ?_, ?_⟩, ?_⟩
  all_goals decide +kernel

end DocDecl
