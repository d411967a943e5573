import DocDecl.Proofs.Head.ParameterList

/-!
# Which parameter list is read

A head gives the arguments of the first parameter list behind the keyword `function` anywhere in it;
without one, those of the first bracket that an equals sign or a colon stands in front of; and only
then those of a method head. So a head with the keyword is always read as its parameters. An
assignment and a method head are, unless a default or a pattern holds a function that is found
first: then the arguments are those of that function.

## Main definitions

* `keywordHead`, `assignmentHead`, `memberHead` : the three forms of a head.
* `nestedFunction?`, `nestedArrow?` : what is found in a parameter list.
* `ReadsParameters` : what is read of each form.

## Main results

* `afterFunction?_name` : the search for the keyword in a name.
* `readsParameters` : the arguments of each form.
* `not_parameters_of_function_default` : a method head whose parameters are not read.
-/

namespace DocDecl

open LiteralGrammar Text

variable {b : Option Char} {c : Char} {k r s t w : Text}

/-! ### Heads -/

/-- A function with the keyword. -/
def keywordHead (name : Identifier) (ps : List FormalParameter) : Text :=
  "function ".toList ++ (name.text ++ parameterListText ps)

/-- A function that is assigned to a name. -/
def assignmentHead (name : Identifier) (ps : List FormalParameter) : Text :=
  name.text ++ (" = ".toList ++ parameterListText ps)

/-- A method. -/
def memberHead (name : Identifier) (ps : List FormalParameter) : Text :=
  name.text ++ parameterListText ps

/-- The parameters of the first function with a keyword in a parameter list. -/
def nestedFunction? (ps : List FormalParameter) : Option Text :=
  afterFunction? (some '(') (parametersText ps ++ [')'])

/-- What looks like the parameters of the first assigned arrow function in a parameter list. -/
def nestedArrow? (ps : List FormalParameter) : Option Text :=
  afterArrow? (parametersText ps ++ [')'])

/-! ### Names -/

/-- No name goes on with the text. -/
def StopsName (s : Text) : Prop := ∀ c, s.head? = some c → isNameChar c = false

/-- A keyword in front of the end of a name is the beginning of the name. -/
theorem exists_of_after?_name (hk : k.all isNameChar = true) (hs : StopsName s)
    (h : after? k (w ++ s) = some r) : ∃ w', w = k ++ w' ∧ r = w' ++ s := by
  rw [after?_eq_some_iff, List.append_eq_append_iff] at h
  rcases h with ⟨a, rfl, ha⟩ | ⟨a, rfl, rfl⟩
  · cases a with
    | nil => exact ⟨[], by simp, by simpa using ha.symm⟩
    | cons d a =>
      have hd := hs d (by rw [ha]; rfl)
      simp [List.all_eq_true.1 hk d (by simp)] at hd
  · exact ⟨a, rfl, rfl⟩

/-- Whether the keyword `function` stands here in a name. A dollar sign ends the keyword. -/
def keywordAt (w : Text) : Bool :=
  match after? "function" w with
  | some w' => !((w'.head?.map isWordChar).getD false)
  | none => false

/-- Whether the keyword `function` stands in a name, where `before` is the character in front of the
name. -/
def keywordIn (before : Option Char) : Text → Bool
  | [] => false
  | c :: t =>
    !((before.map isWordChar).getD false) && keywordAt (c :: t) || keywordIn (some c) t

theorem dropWhile_stopsName (hw : ∀ c ∈ w, isNameChar c = true) (hs : StopsName s) :
    (w ++ s).dropWhile isNameChar = s :=
  (span_append (List.all_eq_true.2 hw) hs).2

theorem keywordAt_iff :
    keywordAt w = true ↔
      ∃ w', w = "function".toList ++ w' ∧ (w'.head?.map isWordChar).getD false = false := by
  rw [keywordAt]
  constructor
  · cases h : after? "function" w with
    | none => simp
    | some w' => exact fun hw' => ⟨w', after?_eq_some_iff.1 h, by simpa using hw'⟩
  · rintro ⟨w', rfl, hw'⟩
    rw [after?_eq_some_iff.2 rfl]
    simp [hw']

/-- A parameter list of the keyword in a name stands behind the name. -/
theorem functionParameters?_name (hw : ∀ c ∈ w, isNameChar c = true) (hs : StopsName s)
    (hs' : StopsName (trimLeft s)) (hstar : (trimLeft s).head? ≠ some '*') :
    functionParameters? (w ++ s) = if keywordAt w then atBracket? (trimLeft s) else none := by
  have hname : "function".toList.all isNameChar = true := by decide +kernel
  have hdrop : (trimLeft s).dropWhile isNameChar = trimLeft s :=
    dropWhile_stopsName (w := []) (by simp) hs'
  rw [functionParameters?]
  cases hafter : after? "function" (w ++ s) with
  | none =>
    have hno : ¬keywordAt w = true := by
      rw [keywordAt_iff]
      rintro ⟨w', rfl, -⟩
      rw [List.append_assoc, after?_eq_some_iff.2 rfl] at hafter
      exact absurd hafter (Option.some_ne_none _)
    rw [if_neg hno]
    rfl
  | some r =>
    obtain ⟨w', rfl, rfl⟩ := exists_of_after?_name hname hs hafter
    have hkeyword : keywordAt ("function".toList ++ w') =
        !((w'.head?.map isWordChar).getD false) := by
      rw [keywordAt, after?_eq_some_iff.2 rfl]
    rw [hkeyword, Option.bind_some]
    simp only
    cases w' with
    | nil =>
      have hword : (s.head?.map isWordChar).getD false = false := by
        cases s with
        | nil => rfl
        | cons c s =>
          have hc := hs c rfl
          rw [isNameChar, Bool.or_eq_false_iff] at hc
          exact hc.1
      rw [List.nil_append, hword, if_neg hstar, hdrop, trimLeft_trimLeft]
      rfl
    | cons d w' =>
      have hd : isNameChar d = true := hw d (by simp)
      have hleft : trimLeft (d :: w' ++ s) = d :: w' ++ s := by
        refine List.dropWhile_cons_of_neg ?_
        rw [isBlank_eq_false_of_isNameChar hd]
        exact Bool.false_ne_true
      have hne : ¬(d :: w' ++ s).head? = some '*' := by
        simpa using ne_of_isNameChar hd (by decide)
      have hw' : ∀ c ∈ d :: w', isNameChar c = true := fun c hc => hw c (List.mem_append_right _ hc)
      rw [hleft, if_neg hne, dropWhile_stopsName hw' hs]
      simp only [List.cons_append, List.head?_cons, Option.map_some, Option.getD_some]
      by_cases hword : isWordChar d = true
      · simp [hword]
      · simp [hword]

theorem afterFunction?_name (hw : ∀ c ∈ w, isNameChar c = true) (hs : StopsName s)
    (hs' : StopsName (trimLeft s)) (hstar : (trimLeft s).head? ≠ some '*') :
    afterFunction? b (w ++ s) =
      (if keywordIn b w then atBracket? (trimLeft s) else none).or
        (afterFunction? (w.getLast?.or b) s) := by
  induction w generalizing b with
  | nil => simp [keywordIn]
  | cons c w ih =>
    have hcons := functionParameters?_name hw hs hs' hstar
    have hlast : (c :: w).getLast?.or b = w.getLast?.or (some c) := by
      rw [List.getLast?_cons]
      cases w.getLast? <;> rfl
    rw [List.cons_append] at hcons ⊢
    rw [afterFunction?, hcons, ih (List.forall_mem_cons.1 hw).2, keywordIn, hlast]
    cases (b.map isWordChar).getD false
    · cases keywordAt (c :: w)
      · rfl
      · cases atBracket? (trimLeft s)
        · simp
        · rfl
    · rfl

theorem afterArrow?_name (hw : ∀ c ∈ w, isNameChar c = true) :
    afterArrow? (w ++ s) = afterArrow? s := by
  induction w with
  | nil => rfl
  | cons c w ih =>
    obtain ⟨hc, hw⟩ := List.forall_mem_cons.1 hw
    have hsign : ¬(c = '=' ∨ c = ':') := by
      rintro (rfl | rfl) <;> exact absurd hc (by decide)
    rw [List.cons_append, afterArrow?, arrowParameters?, if_neg hsign, Option.none_or, ih hw]

theorem afterFunction?_cons (hc : c ≠ 'f') (t : Text) :
    afterFunction? b (c :: t) = afterFunction? (some c) t := by
  have hnone : functionParameters? (c :: t) = none := by
    have hafter : after? "function" (c :: t) = none := if_neg hc.symm
    rw [functionParameters?, hafter]
    rfl
  rw [afterFunction?, hnone, ite_self, Option.none_or]

/-! ### The three forms -/

section Forms

variable (name : Identifier) (ps : List FormalParameter)

theorem trimLeft_name_append (t : Text) : trimLeft (name.text ++ t) = name.text ++ t := by
  obtain ⟨c, u, htext, hc⟩ := name.exists_eq_cons
  rw [htext]
  refine List.dropWhile_cons_of_neg ?_
  rw [isBlank_eq_false_of_isNameChar hc]
  exact Bool.false_ne_true

theorem head?_name_append (t : Text) : (name.text ++ t).head? ≠ some '*' := by
  obtain ⟨c, u, htext, hc⟩ := name.exists_eq_cons
  rw [htext]
  simpa using ne_of_isNameChar hc (by decide)

theorem stopsName_parameterListText : StopsName (parameterListText ps) := fun c hc => by
  cases Option.some.inj hc
  decide

/-- The keyword at the beginning of a head is the first one. -/
theorem parameterList?_keywordHead :
    parameterList? (keywordHead name ps) = some (parameterListText ps) := by
  have hafter : after? "function" (keywordHead name ps) =
      some (" ".toList ++ (name.text ++ parameterListText ps)) :=
    after?_eq_some_iff.2 rfl
  have hblank : trimLeft (" ".toList ++ (name.text ++ parameterListText ps)) =
      name.text ++ parameterListText ps :=
    (trimLeft_append_blanks rfl _).trans (trimLeft_name_append name _)
  have hfunction : functionParameters? (keywordHead name ps) = some (parameterListText ps) := by
    rw [functionParameters?, hafter, Option.bind_some]
    simp only
    rw [hblank, if_neg (head?_name_append name _),
      dropWhile_stopsName name.isNameChar_of_mem (stopsName_parameterListText ps)]
    rfl
  have hcons : keywordHead name ps =
      'f' :: ("unction ".toList ++ (name.text ++ parameterListText ps)) := rfl
  have hfirst : afterFunction? none (keywordHead name ps) = some (parameterListText ps) := by
    rw [hcons, afterFunction?, ← hcons, hfunction]
    rfl
  rw [parameterList?, hfirst]
  rfl

/-- An assignment gives its own parameter list where none with the keyword stands in it. -/
theorem parameterList?_assignmentHead :
    parameterList? (assignmentHead name ps) =
      some ((nestedFunction? ps).getD (parameterListText ps)) := by
  have hsign : " = ".toList ++ parameterListText ps =
      ' ' :: '=' :: ' ' :: '(' :: (parametersText ps ++ [')']) := rfl
  have hfunction : afterFunction? none (assignmentHead name ps) = nestedFunction? ps := by
    have hstops {c : Char} {t : Text} (hc : isNameChar c = false) : StopsName (c :: t) :=
      fun d hd => Option.some.inj hd ▸ hc
    have hleft : trimLeft (' ' :: '=' :: ' ' :: '(' :: (parametersText ps ++ [')'])) =
        '=' :: ' ' :: '(' :: (parametersText ps ++ [')']) := rfl
    have hno : atBracket? ('=' :: ' ' :: '(' :: (parametersText ps ++ [')'])) = none := rfl
    rw [assignmentHead, hsign, afterFunction?_name name.isNameChar_of_mem (hstops (by decide))
      (hleft ▸ hstops (by decide)) (by rw [hleft]; simp), hleft, hno, ite_self, Option.none_or]
    rw [afterFunction?_cons (by decide), afterFunction?_cons (by decide),
      afterFunction?_cons (by decide), afterFunction?_cons (by decide), nestedFunction?]
  have harrow : afterArrow? (assignmentHead name ps) = some (parameterListText ps) := by
    rw [assignmentHead, afterArrow?_name name.isNameChar_of_mem, hsign]
    rfl
  rw [parameterList?, hfunction, harrow]
  cases nestedFunction? ps <;> rfl

theorem afterFunction?_memberHead :
    afterFunction? none (memberHead name ps) =
      (if keywordIn none name.text then some (parameterListText ps) else none).or
        (nestedFunction? ps) := by
  have hleft : trimLeft (parameterListText ps) = parameterListText ps := rfl
  have hbracket : atBracket? (parameterListText ps) = some (parameterListText ps) := rfl
  have hstops := stopsName_parameterListText ps
  rw [memberHead, afterFunction?_name name.isNameChar_of_mem hstops (hleft ▸ hstops)
    (by rw [hleft]; simp [parameterListText]), hleft, hbracket]
  rw [parameterListText, afterFunction?_cons (by decide), nestedFunction?]

/-- No keyword with blanks behind it begins a method head. -/
theorem behindKeyword_memberHead {α : Type} {ks : List Text}
    (hks : ∀ k ∈ ks, k.all isNameChar = true) (read : Text → Option α) :
    behindKeyword ks read (memberHead name ps) = read (memberHead name ps) := by
  have hnone : afterKeyword? ks (memberHead name ps) = none := by
    rw [afterKeyword?, List.findSome?_eq_none_iff]
    intro k hk
    cases hafter : after? k (memberHead name ps) with
    | none => rfl
    | some r =>
      obtain ⟨w, hw, rfl⟩ :=
        exists_of_after?_name (hks k hk) (stopsName_parameterListText ps) hafter
      have hblank : ((w ++ parameterListText ps).head?.map isBlank).getD false = false := by
        cases w with
        | nil => rfl
        | cons d w => exact name.isBlank_eq_false (by rw [hw]; simp)
      rw [Option.bind_some, hblank]
      rfl
  rw [behindKeyword, hnone]
  rfl

theorem methodHead?_memberHead :
    methodHead? (memberHead name ps) = some (name.text, parametersText ps ++ [')']) := by
  have hstops := stopsName_parameterListText ps
  have htake : (memberHead name ps).takeWhile isNameChar = name.text := by
    have hlist : (parameterListText ps).takeWhile isNameChar = [] :=
      List.takeWhile_cons_of_neg (by decide)
    rw [memberHead, List.takeWhile_append_of_pos name.isNameChar_of_mem, hlist, List.append_nil]
  have hcalled : calledName? (memberHead name ps) =
      some (name.text, parametersText ps ++ [')']) := by
    rw [calledName?, nameAt?, htake, if_neg name.ne_nil, memberHead,
      dropWhile_stopsName name.isNameChar_of_mem hstops]
    rfl
  have hstarred : starredName? (memberHead name ps) = calledName? (memberHead name ps) := by
    rw [starredName?]
    intro t ht
    refine head?_name_append name (parameterListText ps) ?_
    rw [← memberHead, ht]
    rfl
  have hkeywords : ∀ ks ∈ ([["static"], ["async"], ["get", "set"]] : List (List Text)),
      ∀ k ∈ ks, k.all isNameChar = true := by decide +kernel
  rw [methodHead?, memberHead, trimLeft_name_append, ← memberHead,
    behindKeyword_memberHead name ps (hkeywords _ (by simp)),
    behindKeyword_memberHead name ps (hkeywords _ (by simp)),
    behindKeyword_memberHead name ps (hkeywords _ (by simp)), hstarred, hcalled]

/-- A method head gives its own parameter list where no other is found in it. -/
theorem parameterList?_memberHead :
    parameterList? (memberHead name ps) =
      some (if keywordIn none name.text then parameterListText ps
        else ((nestedFunction? ps).or (nestedArrow? ps)).getD (parameterListText ps)) := by
  have harrow : afterArrow? (memberHead name ps) = nestedArrow? ps := by
    rw [memberHead, afterArrow?_name name.isNameChar_of_mem, nestedArrow?, parameterListText]
    rfl
  rw [parameterList?, afterFunction?_memberHead, harrow, methodHead?_memberHead]
  split_ifs
  · rfl
  · rw [Option.none_or]
    cases nestedFunction? ps
    · cases nestedArrow? ps <;> rfl
    · rfl

end Forms

/-! ### Round brackets -/

theorem bracket_mem_of_atBracket? (h : atBracket? t = some r) : '(' ∈ t := by
  rw [atBracket?, Option.ite_none_right_eq_some] at h
  exact List.mem_of_head? h.1

theorem bracket_mem_of_functionParameters? (h : functionParameters? t = some r) : '(' ∈ t := by
  rw [functionParameters?, Option.bind_eq_some_iff] at h
  obtain ⟨u, hu, h⟩ := h
  rw [after?_eq_some_iff.1 hu, List.mem_append]
  simp only at h
  split_ifs at h
  all_goals
    have hmem := (List.dropWhile_sublist isNameChar).subset
      (mem_of_mem_trimLeft (bracket_mem_of_atBracket? h))
  · exact .inr (mem_of_mem_trimLeft (List.mem_of_mem_tail (mem_of_mem_trimLeft hmem)))
  · exact .inr (mem_of_mem_trimLeft hmem)

/-- A parameter list is found only where a round bracket opens. -/
theorem bracket_mem_of_afterFunction? (h : afterFunction? b t = some r) : '(' ∈ t := by
  induction t generalizing b with
  | nil => simp [afterFunction?] at h
  | cons c t ih =>
    rw [afterFunction?, Option.or_eq_some_iff] at h
    rcases h with h | ⟨-, h⟩
    · rw [Option.ite_none_left_eq_some] at h
      exact bracket_mem_of_functionParameters? h.2
    · exact List.mem_cons_of_mem c (ih h)

theorem bracket_mem_of_arrowParameters? (h : arrowParameters? (c :: t) = some r) :
    '(' ∈ c :: t := by
  rw [arrowParameters?, Option.ite_none_right_eq_some] at h
  have hmem := bracket_mem_of_atBracket? h.2
  refine List.mem_cons_of_mem c (mem_of_mem_trimLeft ?_)
  cases hasync : after? "async" (trimLeft t) with
  | none => rwa [hasync] at hmem
  | some u =>
    rw [hasync, Option.map_some, Option.getD_some] at hmem
    rw [after?_eq_some_iff.1 hasync]
    exact List.mem_append_right _ (mem_of_mem_trimLeft hmem)

theorem bracket_mem_of_afterArrow? (h : afterArrow? t = some r) : '(' ∈ t := by
  induction t with
  | nil => simp [afterArrow?] at h
  | cons c t ih =>
    rw [afterArrow?, Option.or_eq_some_iff] at h
    rcases h with h | ⟨-, h⟩
    · exact bracket_mem_of_arrowParameters? h
    · exact List.mem_cons_of_mem c (ih h)

/-! ### What is read -/

/-- What is read of a head with a given name and given parameters. -/
structure ReadsParameters (name : Identifier) (ps : List FormalParameter) : Prop where
  /-- The parameters behind the keyword are read. -/
  keyword : arguments? (keywordHead name ps) = some (ps.map FormalParameter.argument)
  /-- The parameters of an assigned function are read, unless a default or a pattern holds a
  function with the keyword: then those of the first such function are. -/
  assignment :
    arguments? (assignmentHead name ps) =
      (nestedFunction? ps).elim (some (ps.map FormalParameter.argument)) argumentsIn?
  /-- The parameters of a method are read, unless a default or a pattern holds a function with the
  keyword or a bracket directly behind an equals sign or a colon: then what is found there is. A
  method that is named by the keyword is a function with the keyword. -/
  member :
    arguments? (memberHead name ps) =
      if keywordIn none name.text then some (ps.map FormalParameter.argument)
      else ((nestedFunction? ps).or (nestedArrow? ps)).elim
        (some (ps.map FormalParameter.argument)) argumentsIn?
  /-- Without round brackets in defaults and patterns the parameters of all forms are read. -/
  all_of_no_bracket : '(' ∉ parametersText ps →
    ∀ head ∈ [keywordHead name ps, assignmentHead name ps, memberHead name ps],
      arguments? head = some (ps.map FormalParameter.argument)

/-- The arguments of the three forms. -/
theorem readsParameters (name : Identifier) (ps : List FormalParameter) :
    ReadsParameters name ps := by
  have hown := argumentsIn?_parameterList ps
  have hgetD (o : Option Text) : argumentsIn? (o.getD (parameterListText ps)) =
      o.elim (some (ps.map FormalParameter.argument)) argumentsIn? := by
    cases o with
    | none => exact hown
    | some t => rfl
  have hkeyword : arguments? (keywordHead name ps) = some (ps.map FormalParameter.argument) := by
    rw [arguments?_eq, parameterList?_keywordHead, Option.bind_some, hown]
  have hassignment : arguments? (assignmentHead name ps) =
      (nestedFunction? ps).elim (some (ps.map FormalParameter.argument)) argumentsIn? := by
    rw [arguments?_eq, parameterList?_assignmentHead, Option.bind_some, hgetD]
  have hmember : arguments? (memberHead name ps) =
      if keywordIn none name.text then some (ps.map FormalParameter.argument)
      else ((nestedFunction? ps).or (nestedArrow? ps)).elim
        (some (ps.map FormalParameter.argument)) argumentsIn? := by
    rw [arguments?_eq, parameterList?_memberHead, Option.bind_some]
    split_ifs
    · exact hown
    · exact hgetD _
  refine ⟨hkeyword, hassignment, hmember, fun hno head hhead => ?_⟩
  have hlist : '(' ∉ parametersText ps ++ [')'] := by simp [hno]
  have hfunction : nestedFunction? ps = none := by
    rw [Option.eq_none_iff_forall_ne_some]
    exact fun t ht => hlist (bracket_mem_of_afterFunction? ht)
  have harrow : nestedArrow? ps = none := by
    rw [Option.eq_none_iff_forall_ne_some]
    exact fun t ht => hlist (bracket_mem_of_afterArrow? ht)
  rw [hfunction] at hassignment
  rw [hfunction, harrow, Option.none_or, Option.elim_none, ite_self] at hmember
  simp only [List.mem_cons, List.not_mem_nil, or_false] at hhead
  rcases hhead with rfl | rfl | rfl
  · exact hkeyword
  · exact hassignment
  · exact hmember

example :
    arguments? "function each(\x7ba, b\x7d = \x7b\x7d, cb = function (x) \x7b\x7d, ...more)" =
      some [.destructured, .name "cb", .rest "more"] := by
  decide +kernel

/-- The parameters of a function in a default are taken for those of the method. -/
theorem not_parameters_of_function_default :
    arguments? "each(list, cb = function (x) \x7b return x; \x7d)" = some [.name "x"] ∧
      arguments? "each(list, cb = function (x) \x7b return x; \x7d)" ≠
        some [.name "list", .name "cb"] := by
  decide +kernel

end DocDecl
