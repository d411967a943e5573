import DocDecl.Parameter.Alignment
import DocDecl.Parameter.Rendering
import DocDecl.Proofs.Parameter.Documented

/-!
# The names of a declared parameter list

Every argument of a definition gets one field. A named argument keeps its name; a destructuring
pattern has none, and takes the name of the parameter that is documented in its place, or a name
made from the place. So the only names that can be repeated are those that stand for patterns. Where
the documentation fits the definition they are not.

## Main definitions

* `Argument.name?` : the name of an argument.
* `standIn` : the name that stands for a pattern.
* `Argument.declaredName` : the name that an argument is declared with.
* `NamesArguments` : how the fields for the arguments are named.

## Main results

* `namesArguments_align` : the names of a declared parameter list.
-/

namespace DocDecl

variable {documented : List Field} {as : List Argument} {a : Argument} {i j : Nat}

/-- The name of an argument. A pattern has none. -/
def Argument.name? : Argument → Option Text
  | name n => some n
  | rest n => some n
  | destructured => none

theorem Argument.name?_eq_none_iff : a.name? = none ↔ a = .destructured := by
  cases a <;> simp [Argument.name?]

theorem Argument.label_of_name? {n : Text} (h : a.name? = some n) : a.label = n := by
  cases a with
  | name m => exact Option.some.inj h
  | rest m => exact Option.some.inj h
  | destructured => simp [Argument.name?] at h

/-- The name that stands for a pattern in a given place. -/
def standIn (documented : List Field) (i : Nat) : Text :=
  ((documented[i]?).map Field.name).getD ("arg" ++ Text.ofNat i)

/-- The name that an argument in a given place is declared with. -/
def Argument.declaredName (documented : List Field) (i : Nat) (a : Argument) : Text :=
  a.name?.getD (standIn documented i)

/-! ### The fields, one by one -/

theorem getElem?_alignFrom (documented : List Field) (i : Nat) (as : List Argument) (j : Nat) :
    (alignFrom documented i as)[j]? = (as[j]?).map (alignOne documented (i + j)) := by
  induction as generalizing i j with
  | nil => rfl
  | cons a as ih =>
    cases j with
    | zero => rfl
    | succ j =>
      rw [alignFrom, List.getElem?_cons_succ, List.getElem?_cons_succ, ih, Nat.add_right_comm,
        Nat.add_assoc]

theorem name_of_find? {fs : List Field} {n : Text} {f : Field}
    (h : (fs.find? fun f => f.name = n) = some f) : f.name = n := by
  simpa using List.find?_some h

theorem name_alignOne (documented : List Field) (i : Nat) (a : Argument) :
    (alignOne documented i a).name = a.declaredName documented i := by
  cases a with
  | name n =>
    rw [alignOne]
    cases h : documented.reverse.find? fun f => f.name = n with
    | none => rfl
    | some f => exact name_of_find? h
  | rest n =>
    rw [alignOne]
    cases h : documented.reverse.find? fun f => f.name = n with
    | none => rfl
    | some f =>
      have hname : f.name = n := name_of_find? h
      simp only
      split_ifs <;> exact hname
  | destructured =>
    rw [alignOne]
    cases h : documented[i]? with
    | none => simp [Argument.declaredName, standIn, h, Argument.name?]
    | some f => simp [Argument.declaredName, standIn, h, Argument.name?]

theorem value_align (as : List Argument) (documented : List Field) (deprecated : Bool)
    (subject : Text) :
    (align (some as) documented deprecated subject).value = alignFrom documented 0 as := by
  simp [align]

/-- The fields for the arguments of a definition have the names of the arguments, with those that
stand for the patterns. -/
theorem getElem?_name_align (as : List Argument) (documented : List Field) (deprecated : Bool)
    (subject : Text) (i : Nat) :
    ((align (some as) documented deprecated subject).value.map Field.name)[i]? =
      (as[i]?).map (Argument.declaredName documented i) := by
  rw [value_align, List.getElem?_map, getElem?_alignFrom, Option.map_map, Nat.zero_add]
  congr 1
  funext a
  exact name_alignOne documented i a

/-! ### Repeated names -/

/-- Names that fit are as many, and each is the one in its place or that of a pattern. -/
theorem eq_of_namesAgree {ds ns : List Text} (h : namesAgree ds ns = true) :
    ds.length = ns.length ∧ ∀ (i : Nat) (d n : Text), ds[i]? = some d → ns[i]? = some n →
      n = "\x7b\x7d".toList ∨ d = n := by
  fun_induction namesAgree ds ns with
  | case1 => simp
  | case2 d ds n ns ih =>
    simp only [Bool.and_eq_true, Bool.or_eq_true, decide_eq_true_eq] at h
    obtain ⟨hlen, htail⟩ := ih h.2
    refine ⟨congrArg (· + 1) hlen, ?_⟩
    rintro (_ | i) d' n' hd hn
    · obtain rfl := Option.some.inj hd
      obtain rfl := Option.some.inj hn
      exact h.1
    · exact htail i d' n' hd hn
  | case3 => simp at h

/-- Of arguments with distinct names, two have different names. -/
theorem ne_of_nodup_names (h : (as.filterMap Argument.name?).Nodup) (hij : i ≠ j) {a b : Argument}
    (hi : as[i]? = some a) (hj : as[j]? = some b) {n m : Text} (ha : a.name? = some n)
    (hb : b.name? = some m) : n ≠ m := by
  rw [List.Nodup, List.pairwise_filterMap, List.pairwise_iff_getElem] at h
  obtain ⟨hi', rfl⟩ := List.getElem?_eq_some_iff.1 hi
  obtain ⟨hj', rfl⟩ := List.getElem?_eq_some_iff.1 hj
  rcases Nat.lt_or_gt_of_ne hij with hlt | hlt
  · exact h i j hi' hj' hlt n ha m hb
  · exact (h j i hj' hi' hlt m hb n ha).symm

section Names

variable {names : List Text}

/-- Only a name that stands for a pattern can be repeated. -/
theorem nodup_names_iff (h : (as.filterMap Argument.name?).Nodup)
    (hnames : ∀ i : Nat, names[i]? = (as[i]?).map (Argument.declaredName documented i)) :
    names.Nodup ↔
      ∀ i j, i ≠ j → as[i]? = some .destructured → names[j]? ≠ some (standIn documented i) := by
  have hpattern {i : Nat} (hi : as[i]? = some .destructured) :
      names[i]? = some (standIn documented i) := by
    rw [hnames, hi]
    rfl
  constructor
  · intro hnodup i j hij hi hj
    have hlt := (List.getElem?_eq_some_iff.1 (hpattern hi)).1
    exact hij ((List.getElem?_inj hlt hnodup).1 ((hpattern hi).trans hj.symm))
  · intro hno
    rw [List.nodup_iff_getElem?_ne_getElem?]
    intro i j hij hj heq
    have hlen (k : Nat) : k < names.length ↔ k < as.length := by
      rw [← not_iff_not, Nat.not_lt, Nat.not_lt, ← List.getElem?_eq_none_iff,
        ← List.getElem?_eq_none_iff, hnames, Option.map_eq_none_iff]
    obtain ⟨a, ha⟩ : ∃ a, as[i]? = some a :=
      ⟨_, List.getElem?_eq_getElem ((hlen i).1 (Nat.lt_trans hij hj))⟩
    obtain ⟨b, hb⟩ : ∃ b, as[j]? = some b := ⟨_, List.getElem?_eq_getElem ((hlen j).1 hj)⟩
    cases hn : a.name? with
    | none =>
      obtain rfl := Argument.name?_eq_none_iff.1 hn
      exact hno i j (Nat.ne_of_lt hij) ha (heq.symm.trans (hpattern ha))
    | some n =>
      cases hm : b.name? with
      | none =>
        obtain rfl := Argument.name?_eq_none_iff.1 hm
        exact hno j i (Nat.ne_of_gt hij) hb (heq.trans (hpattern hb))
      | some m =>
        refine ne_of_nodup_names h (Nat.ne_of_lt hij) ha hb hn hm ?_
        simpa [hnames, ha, hb, Argument.declaredName, hn, hm] using heq

/-- Where the documentation fits the definition, the name that stands for a pattern is that of the
parameter in its place, and no other argument has it. -/
theorem ne_standIn_of_namesAgree (hnodup : (documented.map Field.name).Nodup)
    (hbrace : ∀ f ∈ documented, f.name ≠ "\x7b\x7d".toList)
    (hagree : namesAgree (documented.map Field.name) (as.map Argument.label) = true)
    (hnames : ∀ i : Nat, names[i]? = (as[i]?).map (Argument.declaredName documented i))
    (hij : i ≠ j) (hi : as[i]? = some .destructured) :
    names[j]? ≠ some (standIn documented i) := by
  obtain ⟨hlen, heq⟩ := eq_of_namesAgree hagree
  simp only [List.length_map] at hlen
  have hplace {k : Nat} {a : Argument} (hk : as[k]? = some a) :
      ∃ f ∈ documented, (documented.map Field.name)[k]? = some f.name ∧
        standIn documented k = f.name := by
    have hlt : k < documented.length := hlen ▸ (List.getElem?_eq_some_iff.1 hk).1
    have hf := List.getElem?_eq_getElem hlt
    exact ⟨_, List.getElem_mem hlt, by rw [List.getElem?_map, hf]; rfl, by rw [standIn, hf]; rfl⟩
  obtain ⟨f, hf, hfi, hstand⟩ := hplace hi
  rw [hstand, hnames, ne_eq, Option.map_eq_some_iff]
  rintro ⟨a, hj, ha⟩
  obtain ⟨g, -, hgj, hstand'⟩ := hplace hj
  have hother : g.name ≠ f.name := by
    intro h
    have hlt := (List.getElem?_eq_some_iff.1 hfi).1
    exact hij ((List.getElem?_inj hlt hnodup).1 (by rw [hfi, hgj, h]))
  cases hn : a.name? with
  | none =>
    rw [Argument.declaredName, hn, Option.getD_none, hstand'] at ha
    exact hother ha
  | some n =>
    rw [Argument.declaredName, hn, Option.getD_some] at ha
    have hlabel : (as.map Argument.label)[j]? = some n := by
      rw [List.getElem?_map, hj, Option.map_some, Argument.label_of_name? hn]
    rcases heq j g.name n hgj hlabel with h | h
    · exact hbrace f hf (ha.symm.trans h)
    · exact hother (h.trans ha)

end Names

/-- How the fields for the arguments of a definition are named. -/
structure NamesArguments (documented : List Field) (as : List Argument) (fields : List Field) :
    Prop where
  /-- Each argument gets one field. -/
  length_eq : fields.length = as.length
  /-- An argument keeps its name, and a pattern takes the name that stands for it. -/
  name_eq (i : Nat) :
    (fields.map Field.name)[i]? = (as[i]?).map (Argument.declaredName documented i)
  /-- A name is repeated exactly where the name that stands for a pattern is also that of another
  field. -/
  nodup_iff : (fields.map Field.name).Nodup ↔
    ∀ i j, i ≠ j → as[i]? = some .destructured →
      (fields.map Field.name)[j]? ≠ some (standIn documented i)
  /-- Where the documentation fits the definition, no name is repeated. -/
  nodup_of_namesAgree :
    namesAgree (documented.map Field.name) (as.map Argument.label) = true →
      (fields.map Field.name).Nodup

/-- **The names of a declared parameter list.** The arguments have distinct names; any number of
them may be patterns. -/
theorem namesArguments_align (comment : Text) (as : List Argument) (deprecated : Bool)
    (subject : Text) (h : (as.filterMap Argument.name?).Nodup) :
    NamesArguments (parameters comment) as
      (align (some as) (parameters comment) deprecated subject).value := by
  have hnames := getElem?_name_align as (parameters comment) deprecated subject
  have hnodup := nodup_names_iff h hnames
  have hbrace : ∀ f ∈ parameters comment, f.name ≠ "\x7b\x7d".toList := by
    intro f hf heq
    have hpath := isPathChar_of_mem_documentedFields hf
    rw [heq] at hpath
    exact absurd (hpath '\x7b' List.mem_cons_self) (by decide)
  refine ⟨length_align as _ deprecated subject, hnames, hnodup, fun hagree => ?_⟩
  exact hnodup.2 fun i j hij hi =>
    ne_standIn_of_namesAgree (nodup_name_documentedFields comment _) hbrace hagree hnames hij hi

/-- Two patterns and a rest argument, each documented in its place. -/
theorem namesArguments_of_two_patterns :
    ((align (some [.destructured, .name "b", .destructured, .rest "more"])
      (parameters
        "/**\n * @param {A} a\n * @param {B} b\n * @param {C} c\n * @param {D} more\n */")
      false "f").value.map Field.name).Nodup := by
  have h := namesArguments_align
    "/**\n * @param {A} a\n * @param {B} b\n * @param {C} c\n * @param {D} more\n */"
    [.destructured, .name "b", .destructured, .rest "more"] false "f" (by decide)
  exact h.nodup_of_namesAgree (by decide +kernel)

/-- A pattern takes the name of the parameter in its place also where another argument has it. -/
theorem not_nodup_of_pattern_before_name :
    (([.destructured, .name "a"] : List Argument).filterMap Argument.name?).Nodup ∧
      ¬((align (some [.destructured, .name "a"]) (parameters "/**\n * @param {string} a\n */") false
        "f").value.map Field.name).Nodup ∧
      renderParameters (align (some [.destructured, .name "a"])
        (parameters "/**\n * @param {string} a\n */") false "f").value =
          "(a: string, a: string)" := by
  decide +kernel

end DocDecl
