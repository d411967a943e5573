import DocDecl.Proofs.Literal.Tokens

/-!
# Literals are read by their grammar

The reader accepts exactly the texts that the grammar derives, and gives the value that is derived.
A text that it refuses is refused at a place in the text.

For each reader one lemma says what it yields, in terms of the readers below it. Both directions
follow from these: what is read is derived, by induction on the depth and on the length of the text,
and what is derived is read, by induction on the derivation.

## Main results

* `LiteralGrammar.derives_of_readValue`, `LiteralGrammar.isRead_of_derives` : values.
* `LiteralGrammar.suffix_of_readValue` : a failure has a place in the text.
* `parseLiteral_spec` : a text is read as the value that the grammar derives, or refused.
-/

namespace DocDecl

namespace LiteralGrammar

/-! ### Marks -/

theorem yields_readColon_iff {t r : Text} : Yields (readColon t) () r ↔ Trivia t (':' :: r) := by
  constructor
  · rintro ⟨hl, h⟩
    obtain ⟨⟨s, hs⟩, hskip, h⟩ := bind_eq_ok_iff.1 h
    have ht := trivia_of_skipTrivia hskip
    split at h
    · next heq =>
      cases heq
      split_ifs at h with hc
      cases Except.ok.inj h
      exact hc ▸ ht
    · simp at h
  · intro h
    obtain ⟨hl, hskip⟩ := skipTrivia_of_trivia h (atToken_cons (by decide) (by decide) r)
    exact ⟨hl, by rw [readColon, hskip]; rfl⟩

theorem suffix_of_readColon {t : Text} {e : LiteralFailure} (h : readColon t = .error e) :
    e.rest <:+ t := by
  rcases bind_eq_error_iff.1 h with h | ⟨⟨s, hs⟩, hskip, h⟩
  · exact suffix_of_skipTrivia h
  · have ht := (trivia_of_skipTrivia hskip).suffix
    split at h
    · next heq =>
      cases heq
      split_ifs at h
      exact Except.error.inj h ▸ ht
    · next heq =>
      cases heq
      exact Except.error.inj h ▸ ht

theorem yields_readSeparator_iff {closer : Char} (hc : isBlank closer = false ∧ closer ≠ '/')
    (hne : closer ≠ ',') {t r : Text} {more : Bool} :
    Yields (readSeparator closer t) more r ↔
      Trivia t ((if more then ',' else closer) :: r) := by
  constructor
  · rintro ⟨hl, h⟩
    obtain ⟨⟨s, hs⟩, hskip, h⟩ := bind_eq_ok_iff.1 h
    have ht := trivia_of_skipTrivia hskip
    split at h
    · next heq =>
      cases heq
      split_ifs at h with h₁ h₂
      · cases Except.ok.inj h
        exact h₁ ▸ ht
      · cases Except.ok.inj h
        exact h₂ ▸ ht
    · simp at h
  · intro h
    have hat : AtToken ((if more then ',' else closer) :: r) := by
      cases more with
      | false => exact atToken_cons hc.1 hc.2 r
      | true => exact atToken_cons (c := ',') (by decide) (by decide) r
    obtain ⟨hl, hskip⟩ := skipTrivia_of_trivia h hat
    refine ⟨hl, ?_⟩
    rw [readSeparator, hskip]
    cases more with
    | false =>
      simp only [Bool.false_eq_true, if_false]
      exact (if_neg hne).trans (if_pos rfl)
    | true => rfl

theorem suffix_of_readSeparator {closer : Char} {t : Text} {e : LiteralFailure}
    (h : readSeparator closer t = .error e) : e.rest <:+ t := by
  rcases bind_eq_error_iff.1 h with h | ⟨⟨s, hs⟩, hskip, h⟩
  · exact suffix_of_skipTrivia h
  · have ht := (trivia_of_skipTrivia hskip).suffix
    split at h
    · next heq =>
      cases heq
      split_ifs at h
      exact Except.error.inj h ▸ ht
    · next heq =>
      cases heq
      exact Except.error.inj h ▸ ht

/-! ### Members and items -/

theorem Key.head?_ne {t k r : Text} (h : Key t k r) : t.head? ≠ some '}' := by
  cases h with
  | quoted hq _ => rcases hq with rfl | rfl <;> simp
  | identifier h => exact (AtomAt.of_identifier h).head?_ne (by decide)
  | number h => exact (AtomAt.of_number h).head?_ne (by decide)

section Inside

variable {value : (t : Text) → Reading Literal t}

/-- What the inside of an object is read as: nothing but the closing brace, or a member with what
follows it. -/
theorem yields_readMembers_iff {acc ms : List (Text × Literal)} {t r : Text} :
    Yields (readMembers value acc t) ms r ↔
      Trivia t ('}' :: r) ∧ ms = acc ∨
        ∃ t₁ k t₂ t₃ v t₅, Trivia t t₁ ∧ Key t₁ k t₂ ∧ Trivia t₂ (':' :: t₃) ∧
          Yields (value t₃) v t₅ ∧
            (Trivia t₅ ('}' :: r) ∧ ms = putMember k v acc ∨
              ∃ t₆, Trivia t₅ (',' :: t₆) ∧
                Yields (readMembers value (putMember k v acc) t₆) ms r) := by
  constructor
  · rintro ⟨hl, h⟩
    rw [readMembers] at h
    obtain ⟨⟨s, hs⟩, hskip, h⟩ := bind_eq_ok_iff.1 h
    have ht := trivia_of_skipTrivia hskip
    simp only at h ht
    split_ifs at h with hc
    · cases Except.ok.inj h
      obtain ⟨u, rfl⟩ := List.head?_eq_some_iff.1 hc
      exact .inl ⟨ht, rfl⟩
    · obtain ⟨k, hk, h⟩ := bind_eq_ok_iff.1 h
      obtain ⟨colon, hcolon, h⟩ := bind_eq_ok_iff.1 h
      obtain ⟨v, hv, h⟩ := bind_eq_ok_iff.1 h
      obtain ⟨more, hmore, h⟩ := bind_eq_ok_iff.1 h
      have hk := yields_readKey_iff.1 (yields_of_eq_ok hk)
      have hcolon := yields_readColon_iff.1 (yields_of_eq_ok hcolon)
      have hmore := (yields_readSeparator_iff (by decide) (by decide)).1 (yields_of_eq_ok hmore)
      refine .inr ⟨s, _, _, _, _, _, ht, hk, hcolon, yields_of_eq_ok hv, ?_⟩
      split_ifs at h with hm
      · obtain ⟨p, hp, h⟩ := bind_eq_ok_iff.1 h
        cases Except.ok.inj h
        rw [hm] at hmore
        exact .inr ⟨_, hmore, yields_of_eq_ok hp⟩
      · cases Except.ok.inj h
        rw [if_neg hm] at hmore
        exact .inl ⟨hmore, rfl⟩
  · rintro (⟨h, rfl⟩ | ⟨t₁, k, t₂, t₃, v, t₅, h₁, hk, h₂, ⟨hlv, hv⟩, hrest⟩)
    · obtain ⟨hl, hskip⟩ := skipTrivia_of_trivia h (atToken_cons (by decide) (by decide) r)
      exact ⟨hl, by rw [readMembers, hskip]; rfl⟩
    · obtain ⟨hl, hskip⟩ := skipTrivia_of_trivia h₁ hk.atToken
      obtain ⟨hlk, hkey⟩ := yields_readKey_iff.2 hk
      obtain ⟨hlc, hcolon⟩ := yields_readColon_iff.2 h₂
      have hsep (more : Bool) {s : Text} (h : Trivia t₅ ((if more then ',' else '}') :: s)) :=
        (yields_readSeparator_iff (by decide) (by decide)).2 h
      rcases hrest with ⟨h₃, rfl⟩ | ⟨t₆, h₃, hlm, hms⟩
      · obtain ⟨hls, hsep⟩ := hsep false h₃
        refine ⟨by omega, ?_⟩
        rw [readMembers, hskip]
        simp only [bind, Except.bind, dif_neg hk.head?_ne, hkey, hcolon, hv, hsep]
        rfl
      · obtain ⟨hls, hsep⟩ := hsep true h₃
        refine ⟨by omega, ?_⟩
        rw [readMembers, hskip]
        simp only [bind, Except.bind, dif_neg hk.head?_ne, hkey, hcolon, hv, hsep, hms,
          if_true]

/-- What the inside of an array is read as: nothing but the closing bracket, or an item with what
follows it. -/
theorem cases_of_readItems {vs : List Literal} {t r : Text}
    (h : Yields (readItems value t) vs r) :
    Trivia t (']' :: r) ∧ vs = [] ∨
      ∃ t₁ v t₂, Trivia t t₁ ∧ Yields (value t₁) v t₂ ∧
        (Trivia t₂ (']' :: r) ∧ vs = [v] ∨
          ∃ t₃ ws, Trivia t₂ (',' :: t₃) ∧ Yields (readItems value t₃) ws r ∧ vs = v :: ws) := by
  obtain ⟨hl, h⟩ := h
  rw [readItems] at h
  obtain ⟨⟨s, hs⟩, hskip, h⟩ := bind_eq_ok_iff.1 h
  have ht := trivia_of_skipTrivia hskip
  simp only at h ht
  split_ifs at h with hc
  · cases Except.ok.inj h
    obtain ⟨u, rfl⟩ := List.head?_eq_some_iff.1 hc
    exact .inl ⟨ht, rfl⟩
  · obtain ⟨v, hv, h⟩ := bind_eq_ok_iff.1 h
    obtain ⟨more, hmore, h⟩ := bind_eq_ok_iff.1 h
    have hmore := (yields_readSeparator_iff (by decide) (by decide)).1 (yields_of_eq_ok hmore)
    refine .inr ⟨s, _, _, ht, yields_of_eq_ok hv, ?_⟩
    split_ifs at h with hm
    · obtain ⟨p, hp, h⟩ := bind_eq_ok_iff.1 h
      cases Except.ok.inj h
      rw [hm] at hmore
      exact .inr ⟨_, _, hmore, yields_of_eq_ok hp, rfl⟩
    · cases Except.ok.inj h
      rw [if_neg hm] at hmore
      exact .inl ⟨hmore, rfl⟩

theorem readItems_nil {t r : Text} (h : Trivia t (']' :: r)) :
    Yields (readItems value t) [] r := by
  obtain ⟨hl, hskip⟩ := skipTrivia_of_trivia h (atToken_cons (by decide) (by decide) r)
  exact ⟨hl, by rw [readItems, hskip]; rfl⟩

theorem readItems_item {t t₁ t₂ r : Text} {v : Literal} {vs : List Literal} (h₁ : Trivia t t₁)
    (hat : AtToken t₁ ∧ t₁.head? ≠ some ']') (hv : Yields (value t₁) v t₂)
    (h : Trivia t₂ (']' :: r) ∧ vs = [v] ∨
      ∃ t₃ ws, Trivia t₂ (',' :: t₃) ∧ Yields (readItems value t₃) ws r ∧ vs = v :: ws) :
    Yields (readItems value t) vs r := by
  obtain ⟨hl, hskip⟩ := skipTrivia_of_trivia h₁ hat.1
  obtain ⟨hlv, hv⟩ := hv
  have hsep (more : Bool) {s : Text} (h : Trivia t₂ ((if more then ',' else ']') :: s)) :=
    (yields_readSeparator_iff (by decide) (by decide)).2 h
  rcases h with ⟨h₂, rfl⟩ | ⟨t₃, ws, h₂, ⟨hlw, hws⟩, rfl⟩
  · obtain ⟨hls, hsep⟩ := hsep false h₂
    refine ⟨by omega, ?_⟩
    rw [readItems, hskip]
    simp only [bind, Except.bind, dif_neg hat.2, hv, hsep]
    rfl
  · obtain ⟨hls, hsep⟩ := hsep true h₂
    refine ⟨by omega, ?_⟩
    rw [readItems, hskip]
    simp only [bind, Except.bind, dif_neg hat.2, hv, hsep, hws, if_true]

end Inside

/-! ### Values -/

theorem cases_of_readValue {n : Nat} {t r : Text} {v : Literal} (h : Yields (readValue n t) v r) :
    ∃ c u, Trivia t (c :: u) ∧
      ((∃ m, n = m + 1 ∧ c = '{' ∧
          ∃ ms, Yields (readMembers (readValue m) [] u) ms r ∧ v = .object ms) ∨
        (∃ m, n = m + 1 ∧ c = '[' ∧ ∃ vs, Yields (readItems (readValue m) u) vs r ∧ v = .array vs) ∨
        (isQuote c = true ∧ ∃ s, Yields (readString c u) s r ∧ v = .string s) ∨
        Yields (readAtom (c :: u)) v r) := by
  obtain ⟨hl, h⟩ := h
  rw [readValue.eq_def] at h
  obtain ⟨⟨s, hs⟩, hskip, h⟩ := bind_eq_ok_iff.1 h
  have ht := trivia_of_skipTrivia hskip
  cases s with
  | nil => simp at h
  | cons c u =>
    refine ⟨c, u, ht, ?_⟩
    simp only at h
    split_ifs at h with hc hb hq
    · cases n with
      | zero => simp at h
      | succ m =>
        obtain ⟨p, hp, h⟩ := bind_eq_ok_iff.1 h
        cases Except.ok.inj h
        exact .inl ⟨m, rfl, hb, p.value, yields_of_eq_ok hp, rfl⟩
    · cases n with
      | zero => simp at h
      | succ m =>
        obtain ⟨p, hp, h⟩ := bind_eq_ok_iff.1 h
        cases Except.ok.inj h
        exact .inr (.inl ⟨m, rfl, hc.resolve_left hb, p.value, yields_of_eq_ok hp, rfl⟩)
    · obtain ⟨p, hp, h⟩ := bind_eq_ok_iff.1 h
      cases Except.ok.inj h
      exact .inr (.inr (.inl ⟨hq, p.value, yields_of_eq_ok hp, rfl⟩))
    · obtain ⟨p, hp, h⟩ := bind_eq_ok_iff.1 h
      cases Except.ok.inj h
      exact .inr (.inr (.inr (yields_of_eq_ok hp)))

theorem isQuote_iff {c : Char} : isQuote c = true ↔ c = '"' ∨ c = '\'' ∨ c = '\x60' := by
  simp [isQuote, or_assoc]

theorem readValue_string {n : Nat} {t u s r : Text} {q : Char} (h : Trivia t (q :: u))
    (hq : isQuote q = true) (hs : Quoted q u s r) : Yields (readValue n t) (.string s) r := by
  have hq' := isQuote_iff.1 hq
  have hat : AtToken (q :: u) := by
    rcases hq' with rfl | rfl | rfl <;> exact atToken_cons (by decide) (by decide) u
  have hb : ¬(q = '{' ∨ q = '[') ∧ q ≠ '\\' := by rcases hq' with rfl | rfl | rfl <;> decide
  obtain ⟨hl, hskip⟩ := skipTrivia_of_trivia h hat
  obtain ⟨hls, hread⟩ := (yields_readString_iff hb.2).2 hs
  refine ⟨by simp only [List.length_cons] at hl hls; omega, ?_⟩
  rw [readValue.eq_def, hskip]
  simp only [bind, Except.bind, if_neg hb.1, if_pos hq, hread]

theorem readValue_atom {n : Nat} {t s r : Text} {v : Literal} (h : Trivia t s) (hat : AtToken s)
    (hs : ∀ c ∈ s.head?, ¬(c = '{' ∨ c = '[') ∧ isQuote c = false) (ha : Yields (readAtom s) v r) :
    Yields (readValue n t) v r := by
  obtain ⟨hl, hskip⟩ := skipTrivia_of_trivia h hat
  obtain ⟨hla, hread⟩ := ha
  refine ⟨by omega, ?_⟩
  cases s with
  | nil => simp at hla
  | cons c u =>
    obtain ⟨hb, hq⟩ := hs c rfl
    rw [readValue.eq_def, hskip]
    simp only [bind, Except.bind, if_neg hb, hq, hread]
    rfl

theorem readValue_object {n : Nat} {t u r : Text} {ms : List (Text × Literal)}
    (h : Trivia t ('{' :: u)) (hms : Yields (readMembers (readValue n) [] u) ms r) :
    Yields (readValue (n + 1) t) (.object ms) r := by
  obtain ⟨hl, hskip⟩ := skipTrivia_of_trivia h (atToken_cons (by decide) (by decide) u)
  obtain ⟨hlm, hread⟩ := hms
  refine ⟨by simp only [List.length_cons] at hl; omega, ?_⟩
  rw [readValue.eq_def, hskip]
  simp only [bind, Except.bind, true_or, if_true, hread]

theorem readValue_array {n : Nat} {t u r : Text} {vs : List Literal} (h : Trivia t ('[' :: u))
    (hvs : Yields (readItems (readValue n) u) vs r) :
    Yields (readValue (n + 1) t) (.array vs) r := by
  obtain ⟨hl, hskip⟩ := skipTrivia_of_trivia h (atToken_cons (by decide) (by decide) u)
  obtain ⟨hlv, hread⟩ := hvs
  refine ⟨by simp only [List.length_cons] at hl; omega, ?_⟩
  rw [readValue.eq_def, hskip]
  simp only [bind, Except.bind, or_true, if_true, hread]
  rfl

/-! ### What is read is derived -/

section Sound

variable {n : Nat} {value : (t : Text) → Reading Literal t}
  (hvalue : ∀ {t v r}, Yields (value t) v r → ∃ s, Trivia t s ∧ Derives n (.value v) s r)

include hvalue

theorem derives_of_readMembers {acc ms : List (Text × Literal)} {t r : Text}
    (h : Yields (readMembers value acc t) ms r) :
    ∃ ws, Derives n (.members ws) t r ∧ ms = ws.foldl (fun obj m => putMember m.1 m.2 obj) acc := by
  induction hlen : t.length using Nat.strongRecOn generalizing acc t with
  | ind l ih =>
    rcases yields_readMembers_iff.1 h with
      ⟨h₁, rfl⟩ | ⟨t₁, k, t₂, t₃, v, t₅, h₁, hk, h₂, hv, hrest⟩
    · exact ⟨[], .noMember h₁, rfl⟩
    · obtain ⟨t₄, h₃, hd⟩ := hvalue hv
      rcases hrest with ⟨h₄, rfl⟩ | ⟨t₆, h₄, hms⟩
      · exact ⟨[(k, v)], .lastMember h₁ hk h₂ h₃ hd h₄, rfl⟩
      · have hlt : t₆.length < l := by
          have := h₁.suffix.length_le
          have := hk.suffix.length_le
          have := h₂.suffix.length_le
          have := h₃.suffix.length_le
          have := hd.suffix.length_le
          have := h₄.suffix.length_le
          simp only [List.length_cons] at *
          omega
        obtain ⟨ws, hws, rfl⟩ := ih _ hlt hms rfl
        exact ⟨(k, v) :: ws, .member h₁ hk h₂ h₃ hd h₄ hws, rfl⟩

theorem derives_of_readItems {vs : List Literal} {t r : Text}
    (h : Yields (readItems value t) vs r) : Derives n (.items vs) t r := by
  induction hlen : t.length using Nat.strongRecOn generalizing vs t with
  | ind l ih =>
    rcases cases_of_readItems h with ⟨h₁, rfl⟩ | ⟨t₁, v, t₂, h₁, hv, hrest⟩
    · exact .noItem h₁
    · obtain ⟨s, hs, hd⟩ := hvalue hv
      rcases hrest with ⟨h₂, rfl⟩ | ⟨t₃, ws, h₂, hws, rfl⟩
      · exact .lastItem (h₁.trans hs) hd h₂
      · have hlt : t₃.length < l := by
          have := h₁.suffix.length_le
          have := hs.suffix.length_le
          have := hd.suffix.length_le
          have := h₂.suffix.length_le
          simp only [List.length_cons] at *
          omega
        exact .item (h₁.trans hs) hd h₂ (ih _ hlt hws rfl)

end Sound

theorem derives_of_readValue {n : Nat} {t r : Text} {v : Literal}
    (h : Yields (readValue n t) v r) : ∃ s, Trivia t s ∧ Derives n (.value v) s r := by
  induction n using Nat.strongRecOn generalizing t v r with
  | ind n ih =>
    obtain ⟨c, u, ht, h⟩ := cases_of_readValue h
    refine ⟨c :: u, ht, ?_⟩
    rcases h with ⟨m, rfl, rfl, ms, hms, rfl⟩ | ⟨m, rfl, rfl, vs, hvs, rfl⟩ |
      ⟨hq, s, hs, rfl⟩ | h
    · obtain ⟨ws, hws, rfl⟩ := derives_of_readMembers (fun h => ih m (Nat.lt_succ_self m) h) hms
      exact .object hws (collects_collected ws)
    · exact .array (derives_of_readItems (fun h => ih m (Nat.lt_succ_self m) h) hvs)
    · have hb : c ≠ '\\' := by
        rintro rfl
        exact absurd hq (by decide)
      exact .string hq ((yields_readString_iff hb).1 hs)
    · rcases yields_readAtom_iff.1 h with ⟨w, rfl, hw⟩ | ⟨w, hv, hw⟩
      · exact .number hw
      · exact .word hw hv

/-! ### What is derived is read -/

/-- What the readers make of a phrase. -/
def Phrase.IsRead (n : Nat) : Phrase → Text → Text → Prop
  | .value v, t, r => ∀ t₀, Trivia t₀ t → Yields (readValue n t₀) v r
  | .members ms, t, r => ∀ acc, Yields (readMembers (readValue n) acc t)
      (ms.foldl (fun obj m => putMember m.1 m.2 obj) acc) r
  | .items vs, t, r => Yields (readItems (readValue n) t) vs r

theorem readValue_atomAt {n : Nat} {t s w r : Text} {v : Literal} (h : Trivia t s)
    (hs : AtomAt s w r) (ha : Yields (readAtom s) v r) : Yields (readValue n t) v r := by
  refine readValue_atom h hs.atToken (fun c hc => ⟨?_, ?_⟩) ha
  · rintro (rfl | rfl)
    · exact hs.head?_ne (by decide) hc
    · exact hs.head?_ne (by decide) hc
  · rw [Bool.eq_false_iff, ne_eq, isQuote_iff]
    rintro (rfl | rfl | rfl)
    · exact hs.head?_ne (by decide) hc
    · exact hs.head?_ne (by decide) hc
    · exact hs.head?_ne (by decide) hc

theorem Derives.atToken {n : Nat} {v : Literal} {t r : Text} (h : Derives n (.value v) t r) :
    AtToken t ∧ t.head? ≠ some ']' := by
  cases h with
  | string hq _ =>
    rcases isQuote_iff.1 hq with rfl | rfl | rfl <;>
      exact ⟨atToken_cons (by decide) (by decide) _, by simp⟩
  | number h => exact ⟨(AtomAt.of_number h).atToken, (AtomAt.of_number h).head?_ne (by decide)⟩
  | word h _ =>
    exact ⟨(AtomAt.of_identifier h).atToken, (AtomAt.of_identifier h).head?_ne (by decide)⟩
  | object _ _ => exact ⟨atToken_cons (by decide) (by decide) _, by simp⟩
  | array _ => exact ⟨atToken_cons (by decide) (by decide) _, by simp⟩

theorem isRead_of_derives {n : Nat} {p : Phrase} {t r : Text} (h : Derives n p t r) :
    p.IsRead n t r := by
  induction h with
  | string hq h => exact fun t₀ ht => readValue_string ht hq h
  | number h =>
    exact fun t₀ ht => readValue_atomAt ht (.of_number h) (yields_readAtom_iff.2 (.inl ⟨_, rfl, h⟩))
  | word h hw =>
    exact fun t₀ ht =>
      readValue_atomAt ht (.of_identifier h) (yields_readAtom_iff.2 (.inr ⟨_, hw, h⟩))
  | object _ hobj ih => exact hobj.eq_collected ▸ fun t₀ ht => readValue_object ht (ih [])
  | array _ ih => exact fun t₀ ht => readValue_array ht ih
  | noMember h => exact fun acc => yields_readMembers_iff.2 (.inl ⟨h, rfl⟩)
  | lastMember h₁ hk h₂ h₃ _ h₄ ih =>
    exact fun acc => yields_readMembers_iff.2
      (.inr ⟨_, _, _, _, _, _, h₁, hk, h₂, ih _ h₃, .inl ⟨h₄, rfl⟩⟩)
  | member h₁ hk h₂ h₃ _ h₄ _ ih ihms =>
    exact fun acc => yields_readMembers_iff.2
      (.inr ⟨_, _, _, _, _, _, h₁, hk, h₂, ih _ h₃, .inr ⟨_, h₄, ihms _⟩⟩)
  | noItem h => exact readItems_nil h
  | lastItem h₁ hv h₂ ih =>
    exact readItems_item h₁ hv.atToken (ih _ (.done _)) (.inl ⟨h₂, rfl⟩)
  | item h₁ hv h₂ _ ih ihvs =>
    exact readItems_item h₁ hv.atToken (ih _ (.done _)) (.inr ⟨_, _, h₂, ihvs, rfl⟩)

/-! ### Where reading fails -/

section Failure

variable {value : (t : Text) → Reading Literal t}
  (hvalue : ∀ {t v r}, Yields (value t) v r → r <:+ t)
  (hfail : ∀ {t e}, value t = .error e → e.rest <:+ t)

include hvalue hfail

theorem suffix_of_readMembers {acc : List (Text × Literal)} {t : Text} {e : LiteralFailure}
    (h : readMembers value acc t = .error e) : e.rest <:+ t := by
  induction hlen : t.length using Nat.strongRecOn generalizing acc t with
  | ind l ih =>
    rw [readMembers] at h
    obtain h | ⟨⟨s, hs⟩, hskip, h⟩ := bind_eq_error_iff.1 h
    · exact suffix_of_skipTrivia h
    have hst : s <:+ t := (trivia_of_skipTrivia hskip).suffix
    simp only at h
    split_ifs at h
    obtain h | ⟨k, hk, h⟩ := bind_eq_error_iff.1 h
    · exact (suffix_of_readKey h).trans hst
    have hkt := (yields_readKey_iff.1 (yields_of_eq_ok hk)).suffix.trans hst
    obtain h | ⟨colon, hcolon, h⟩ := bind_eq_error_iff.1 h
    · exact (suffix_of_readColon h).trans hkt
    have hct := (List.suffix_cons _ _).trans
      ((yields_readColon_iff.1 (yields_of_eq_ok hcolon)).suffix.trans hkt)
    obtain h | ⟨v, hv, h⟩ := bind_eq_error_iff.1 h
    · exact (hfail h).trans hct
    have hvt := (hvalue (yields_of_eq_ok hv)).trans hct
    obtain h | ⟨more, hmore, h⟩ := bind_eq_error_iff.1 h
    · exact (suffix_of_readSeparator h).trans hvt
    have hmt := (List.suffix_cons _ _).trans (((yields_readSeparator_iff (by decide)
      (by decide)).1 (yields_of_eq_ok hmore)).suffix.trans hvt)
    split_ifs at h
    obtain h | ⟨p, hp, h⟩ := bind_eq_error_iff.1 h
    · have hlt : more.rest.length < l := by
        have := hvt.length_le
        have := more.shorter
        omega
      exact (ih _ hlt h rfl).trans hmt
    · simp at h

theorem suffix_of_readItems {t : Text} {e : LiteralFailure}
    (h : readItems value t = .error e) : e.rest <:+ t := by
  induction hlen : t.length using Nat.strongRecOn generalizing t with
  | ind l ih =>
    rw [readItems] at h
    obtain h | ⟨⟨s, hs⟩, hskip, h⟩ := bind_eq_error_iff.1 h
    · exact suffix_of_skipTrivia h
    have hst : s <:+ t := (trivia_of_skipTrivia hskip).suffix
    simp only at h
    split_ifs at h
    obtain h | ⟨v, hv, h⟩ := bind_eq_error_iff.1 h
    · exact (hfail h).trans hst
    have hvt := (hvalue (yields_of_eq_ok hv)).trans hst
    obtain h | ⟨more, hmore, h⟩ := bind_eq_error_iff.1 h
    · exact (suffix_of_readSeparator h).trans hvt
    have hmt := (List.suffix_cons _ _).trans (((yields_readSeparator_iff (by decide)
      (by decide)).1 (yields_of_eq_ok hmore)).suffix.trans hvt)
    split_ifs at h
    obtain h | ⟨p, hp, h⟩ := bind_eq_error_iff.1 h
    · have hlt : more.rest.length < l := by
        have := hvt.length_le
        have := more.shorter
        omega
      exact (ih _ hlt h rfl).trans hmt
    · simp at h

end Failure

theorem suffix_of_yields_readValue {n : Nat} {t r : Text} {v : Literal}
    (h : Yields (readValue n t) v r) : r <:+ t := by
  obtain ⟨s, hs, hd⟩ := derives_of_readValue h
  exact hd.suffix.trans hs.suffix

/-- A value that is not read fails at a place in the text. -/
theorem suffix_of_readValue {n : Nat} {t : Text} {e : LiteralFailure}
    (h : readValue n t = .error e) : e.rest <:+ t := by
  induction n using Nat.strongRecOn generalizing t e with
  | ind n ih =>
    rw [readValue.eq_def] at h
    obtain h | ⟨⟨s, hs⟩, hskip, h⟩ := bind_eq_error_iff.1 h
    · exact suffix_of_skipTrivia h
    have hst : s <:+ t := (trivia_of_skipTrivia hskip).suffix
    cases s with
    | nil => exact Except.error.inj h ▸ hst
    | cons c u =>
      simp only at h
      split_ifs at h with hc hb hq
      · cases n with
        | zero => exact Except.error.inj h ▸ hst
        | succ m =>
          obtain h | ⟨p, _, h⟩ := bind_eq_error_iff.1 h
          · have hu := suffix_of_readMembers suffix_of_yields_readValue
              (fun h => ih m (Nat.lt_succ_self m) h) h
            exact hu.trans ((List.suffix_cons c u).trans hst)
          · simp at h
      · cases n with
        | zero => exact Except.error.inj h ▸ hst
        | succ m =>
          obtain h | ⟨p, _, h⟩ := bind_eq_error_iff.1 h
          · have hu := suffix_of_readItems suffix_of_yields_readValue
              (fun h => ih m (Nat.lt_succ_self m) h) h
            exact hu.trans ((List.suffix_cons c u).trans hst)
          · simp at h
      · obtain h | ⟨p, _, h⟩ := bind_eq_error_iff.1 h
        · exact eq_of_readString_eq_error h ▸ hst
        · simp at h
      · obtain h | ⟨p, _, h⟩ := bind_eq_error_iff.1 h
        · exact eq_of_readAtom_eq_error h ▸ hst
        · simp at h

end LiteralGrammar

/-! ### Whole texts -/

open LiteralGrammar

theorem parseLiteral_eq_ok_iff {t : Text} {v : Literal} :
    parseLiteral t = .ok v ↔ IsLiteral t v := by
  constructor
  · intro h
    obtain ⟨p, hp, h⟩ := bind_eq_ok_iff.1 h
    obtain ⟨s, hs, hd⟩ := derives_of_readValue (yields_of_eq_ok hp)
    obtain ⟨⟨r, hr⟩, hskip, h⟩ := bind_eq_ok_iff.1 h
    have ht := trivia_of_skipTrivia hskip
    split at h
    · next heq =>
      cases heq
      exact ⟨s, p.rest, hs, Except.ok.inj h ▸ hd, ht⟩
    · simp at h
  · rintro ⟨s, r, hs, hd, hr⟩
    obtain ⟨hl, hread⟩ := isRead_of_derives hd t hs
    obtain ⟨hl', hskip⟩ := skipTrivia_of_trivia hr (by simp [AtToken])
    rw [parseLiteral, maxLiteralDepth, hread]
    simp only [bind, Except.bind, hskip]

theorem suffix_of_parseLiteral {t : Text} {e : LiteralFailure} (h : parseLiteral t = .error e) :
    e.rest <:+ t := by
  obtain h | ⟨p, hp, h⟩ := bind_eq_error_iff.1 h
  · exact suffix_of_readValue h
  have hpt := suffix_of_yields_readValue (yields_of_eq_ok hp)
  obtain h | ⟨⟨r, hr⟩, hskip, h⟩ := bind_eq_error_iff.1 h
  · exact (suffix_of_skipTrivia h).trans hpt
  · have ht := (trivia_of_skipTrivia hskip).suffix.trans hpt
    split at h
    · simp at h
    · next heq =>
      cases heq
      exact Except.error.inj h ▸ ht

/-- A text is read as a value exactly when the grammar derives that value from it. Every other text
is refused at a place in it. -/
theorem parseLiteral_spec (t : Text) :
    (∀ v, parseLiteral t = .ok v ↔ IsLiteral t v) ∧
      ((∀ v, ¬IsLiteral t v) →
        ∃ e, parseLiteral t = .error e ∧ e.offset t ≤ t.length ∧ t.drop (e.offset t) = e.rest) := by
  refine ⟨fun v => parseLiteral_eq_ok_iff, fun hno => ?_⟩
  cases h : parseLiteral t with
  | ok v => exact absurd (parseLiteral_eq_ok_iff.1 h) (hno v)
  | error e =>
    refine ⟨e, rfl, e.offset_le t, ?_⟩
    obtain ⟨w, hw⟩ := suffix_of_parseLiteral h
    have hoff : e.offset t = w.length := by
      rw [LiteralFailure.offset, ← hw, List.length_append, Nat.add_sub_cancel]
    rw [hoff, ← hw, List.drop_left]

/-- A comma stands behind an item, and not alone. -/
theorem parseLiteral_comma :
    parseLiteral "['a',]" = .ok (.array [.string "a"]) ∧
      ∃ e, parseLiteral "[,]" = .error e ∧ e.offset "[,]" ≤ 3 ∧
        "[,]".toList.drop (e.offset "[,]") = e.rest := by
  have hread : parseLiteral "[,]" = .error ⟨.unsupportedValue, ",]"⟩ := by cbv
  have hitem : Derives 99 (.items [.string "a"]) "'a',]" [] := by
    refine .item (.done _) (.string (s := "a") (r := ",]") rfl ?_) (.done _) (.noItem (.done _))
    exact .plain (by decide) (by decide) (by decide) (.close _)
  refine ⟨((parseLiteral_spec _).1 _).2 ⟨_, _, .done _, .array hitem, .done _⟩, ?_⟩
  refine (parseLiteral_spec "[,]".toList).2 fun v hv => ?_
  have hv := ((parseLiteral_spec _).1 v).2 hv
  rw [hread] at hv
  simp at hv

end DocDecl
