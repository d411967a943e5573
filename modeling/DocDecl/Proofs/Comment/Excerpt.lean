import DocDecl.Proofs.Comment.Accounting
import Mathlib.Data.List.Infix

/-!
# Blocks of an excerpt

An excerpt is a text that stands somewhere in the source. Blocks are looked for in an excerpt in the
same way as in the source, but the search begins with the excerpt. A block of the source that lies
in the excerpt as a whole is found there again, at the same place of the tag: what else could hold
this place in the excerpt would hold it in the source, and there a place is accounted for only once.
So the area is the same but for its offsets, if the code behind the block is read alike.

## Main definitions

* `Area.SameBlock` : areas that differ in their offsets only.
* `Area.LiesIn` : an area whose block lies in an excerpt.

## Main results

* `encloses_excerpt_iff` : which block holds a place does not depend on the text around.
* `place_le_of_accounts` : a block is found by the first place of the tag that it has.
* `mem_occurrences_excerpt` : a block of the source is found again in an excerpt that has it.
* `exists_sameBlock_of_liesIn` : and makes up the same area.
* `exists_standsAt_literal` : the literal behind a block is an excerpt.
-/

namespace DocDecl

open Text

variable {source part : Text} {off : Nat}

/-! ### Places of an excerpt -/

section Places

variable {pos start n : Nat}

/-- What stands in an excerpt stands in the source, and within the excerpt. -/
theorem standsAt_excerpt_iff (h : StandsAt part source off) {p : Text} (hp : p ≠ []) :
    StandsAt p part n ↔ StandsAt p source (off + n) ∧ n + p.length ≤ part.length := by
  have hpart : part = (source.drop off).take part.length := List.prefix_iff_eq_take.1 h
  rw [hpart, standsAt_take_iff hp, standsAt_drop_iff, ← hpart]

/-- A block that the excerpt has as a whole holds the same places there. -/
theorem encloses_excerpt_iff (h : StandsAt part source off) (hstop : pos + n + 2 ≤ part.length) :
    Encloses part pos start n ↔ Encloses source (off + pos) (off + start) n := by
  have hopen {s : Nat} : StandsAt "/**" part s ↔
      StandsAt "/**" source (off + s) ∧ s + 3 ≤ part.length := standsAt_excerpt_iff h (by decide)
  have hclose {q : Nat} : StandsAt "*/" part q ↔
      StandsAt "*/" source (off + q) ∧ q + 2 ≤ part.length := standsAt_excerpt_iff h (by decide)
  constructor
  · intro hb
    refine
      { opens := (hopen.1 hb.opens).1
        start_le := by have := hb.start_le; omega
        last := fun s hs hle => ?_
        closes := by rw [Nat.add_assoc]; exact (hclose.1 hb.closes).1
        first := fun q hq hle => ?_
        open_at := fun q hq hle => ?_ }
    · -- an opening mark in front of the excerpt is in front of the block as well
      by_cases hoff : off ≤ s
      · obtain ⟨s, rfl⟩ := Nat.exists_eq_add_of_le hoff
        have := hb.last s (hopen.2 ⟨hs, by omega⟩) (by omega)
        omega
      · omega
    · obtain ⟨q, rfl⟩ := Nat.exists_eq_add_of_le (Nat.le_trans (Nat.le_add_right off pos) hle)
      by_cases hin : q + 2 ≤ part.length
      · have := hb.first q (hclose.2 ⟨hq, hin⟩) (by omega)
        omega
      · omega
    · have hoff : off ≤ q := by omega
      obtain ⟨q, rfl⟩ := Nat.exists_eq_add_of_le hoff
      by_cases hin : q + 2 ≤ part.length
      · have := hb.open_at q (hclose.2 ⟨hq, hin⟩) (by omega)
        omega
      · omega
  · intro hb
    have hle := hb.start_le
    exact
      { opens := hopen.2 ⟨hb.opens, by omega⟩
        start_le := by omega
        last := fun s hs hle => by
          have := hb.last (off + s) (hopen.1 hs).1 (by omega)
          omega
        closes := hclose.2 ⟨by rw [← Nat.add_assoc]; exact hb.closes, hstop⟩
        first := fun q hq hle => by
          have := hb.first (off + q) (hclose.1 hq).1 (by omega)
          omega
        open_at := fun q hq hle => by
          have := hb.open_at (off + q) (hclose.1 hq).1 (by omega)
          omega }

/-- Only one block holds a place. -/
theorem Encloses.unique {start' n' : Nat} (h : Encloses source pos start n)
    (h' : Encloses source pos start' n') : start = start' ∧ n = n' := by
  have heq := (enclosing?_eq_some_iff.2 h).symm.trans (enclosing?_eq_some_iff.2 h')
  exact Prod.mk.inj (Option.some.inj heq)

end Places

/-! ### Blocks found again -/

section Blocks

variable {w : Text} {pos : Nat} {rest : Text}

/-- A block is found by the first place of the tag that it has. -/
theorem place_le_of_accounts (hrest : source.drop pos = rest) {q : Nat}
    (hq : StandsAt ("* @" ++ w) source q) (hle : pos ≤ q) {o : Occurrence}
    (ho : o ∈ occurrences source ("* @" ++ w) pos rest) (hacc : o.accounts q = true) :
    o.place ≤ q := by
  have hm : ("* @" ++ w : Text) ≠ [] := List.cons_ne_nil _ _
  have hstar := (chars_of_marker hq).1
  generalize hmarker : ("* @" ++ w : Text) = marker at *
  fun_induction occurrences source marker pos rest with
  | case1 _ h => exact absurd h hm
  | case2 => exact absurd ho List.not_mem_nil
  | case3 pos c t hp start n hblock ih =>
    rcases List.mem_cons.1 ho with rfl | ho
    · exact hle
    · have hdrop : source.drop (pos + n + 2) = t.drop (n + 1) :=
        drop_of_drop_eq_cons hrest (n + 1)
      rw [← hrest, enclosing?_eq_some_iff] at hblock
      have hlt := lt_start_of_encloses hm hblock hdrop ho
      have hstart := Occurrence.start_le_of_accounts hacc
      have hno : ¬q < pos + n + 2 := fun hlt' => by
        have := hblock.le_of_lt hstar hlt'
        omega
      exact ih hdrop (Nat.not_lt.1 hno) ho
  | case4 pos c t hp hblock ih =>
    rcases List.mem_cons.1 ho with rfl | ho
    · exact hle
    · have hdrop : source.drop (pos + 1) = t := drop_of_drop_eq_cons hrest 0
      obtain ⟨hplace, -⟩ := mem_occurrences hm hdrop ho
      rw [← hrest, enclosing?_eq_none_iff] at hblock
      subst hmarker
      have hstands := (standsAt_iff_of_drop hrest).2 hp
      have hlt := lt_start_of_loose hstands hblock hdrop ho
      have hstart := Occurrence.start_le_of_accounts hacc
      exact ih hdrop (by omega) ho
  | case5 pos c t hp ih =>
    have hne : pos ≠ q := by
      rintro rfl
      exact hp ((standsAt_iff_of_drop hrest).1 hq)
    exact ih (drop_of_drop_eq_cons hrest 0) (by omega) ho

/-- Two places that are found and account for one place of the tag are the same. -/
theorem eq_of_accounts {q : Nat} (hq : StandsAt ("* @" ++ w) source q) {o o' : Occurrence}
    (ho : o ∈ occurrences source ("* @" ++ w) 0 source)
    (ho' : o' ∈ occurrences source ("* @" ++ w) 0 source) (hacc : o.accounts q = true)
    (hacc' : o'.accounts q = true) : o = o' := by
  have hcount := countP_accounts_occurrences List.drop_zero hq (Nat.zero_le q)
  rw [List.countP_eq_length_filter, List.length_eq_one_iff] at hcount
  obtain ⟨x, hx⟩ := hcount
  have heq {o : Occurrence} (ho : o ∈ occurrences source ("* @" ++ w) 0 source)
      (hacc : o.accounts q = true) : o = x :=
    List.mem_singleton.1 (hx ▸ List.mem_filter.2 ⟨ho, hacc⟩)
  exact (heq ho hacc).trans (heq ho' hacc').symm

theorem exists_accounts {q : Nat} (hq : StandsAt ("* @" ++ w) source q) :
    ∃ o ∈ occurrences source ("* @" ++ w) 0 source, o.accounts q = true := by
  have hcount := countP_accounts_occurrences List.drop_zero hq (Nat.zero_le q)
  exact List.countP_pos_iff.1 (hcount ▸ Nat.one_pos)

/-- Where a block of the source is found by a place of the tag, no other block with a place of the
tag in front of it reaches that far. -/
theorem start_le_of_encloses {p s e : Nat}
    (ho : .inBlock p s e ∈ occurrences source ("* @" ++ w) 0 source) {p' s' n' : Nat}
    (hp' : StandsAt ("* @" ++ w) source p') (hb' : Encloses source p' s' n') (hle : p' ≤ p)
    (hlt : p < p' + n' + 2) : s ≤ p' := by
  have hm : ("* @" ++ w : Text) ≠ [] := List.cons_ne_nil _ _
  obtain ⟨-, hp, n, hb, rfl⟩ := mem_occurrences hm List.drop_zero ho
  have hself : Occurrence.accounts p (.inBlock p s (p + n + 2)) = true :=
    decide_eq_true ⟨Nat.le_trans (Nat.le_add_right s 2) hb.start_le, by omega⟩
  by_contra hno
  -- what accounts for the place in front accounts for the later one as well
  obtain ⟨o, ho', hacc'⟩ := exists_accounts hp'
  have hplace := place_le_of_accounts List.drop_zero hp' (Nat.zero_le p') ho' hacc'
  have hstart := Occurrence.start_le_of_accounts hacc'
  obtain ⟨-, hisplace⟩ := mem_occurrences hm List.drop_zero ho'
  cases o with
  | loose q =>
    obtain rfl : q = p' := of_decide_eq_true hacc'
    exact hisplace.2 _ _ hb'
  | inBlock q t f =>
    obtain ⟨-, m, hblock, rfl⟩ := hisplace
    obtain ⟨-, hlt'⟩ : t ≤ p' ∧ p' < q + m + 2 := of_decide_eq_true hacc'
    have hclose := hb'.first (q + m) hblock.closes (hblock.le_of_lt (chars_of_marker hp').1 hlt')
    have hacc : Occurrence.accounts p (.inBlock q t (q + m + 2)) = true :=
      decide_eq_true ⟨Nat.le_trans hstart hle, by omega⟩
    obtain ⟨-, rfl, -⟩ := Occurrence.inBlock.inj (eq_of_accounts hp ho' ho hacc hself)
    exact hno hstart

/-- A block of the source is found again in an excerpt that has it as a whole. -/
theorem mem_occurrences_excerpt (hw : '*' ∉ w) (h : StandsAt part source off) {p s e : Nat}
    (ho : .inBlock (off + p) (off + s) (off + e) ∈ occurrences source ("* @" ++ w) 0 source)
    (hstop : e ≤ part.length) : .inBlock p s e ∈ occurrences part ("* @" ++ w) 0 part := by
  have hm : ("* @" ++ w : Text) ≠ [] := List.cons_ne_nil _ _
  obtain ⟨-, hp, n, hb, he⟩ := mem_occurrences hm List.drop_zero ho
  obtain rfl : e = p + n + 2 := by omega
  have hlen := add_length_le_of_close hw hp hb.closes (Nat.le_add_right _ n)
  have hq : StandsAt ("* @" ++ w) part p := (standsAt_excerpt_iff h hm).2 ⟨hp, by omega⟩
  have hblock : Encloses part p s n := (encloses_excerpt_iff h hstop).2 hb
  obtain ⟨o, ho', hacc⟩ := exists_accounts hq
  have hplace := place_le_of_accounts List.drop_zero hq (Nat.zero_le p) ho' hacc
  obtain ⟨-, hisplace⟩ := mem_occurrences hm List.drop_zero ho'
  cases o with
  | loose q =>
    obtain rfl : q = p := of_decide_eq_true hacc
    exact absurd hblock (hisplace.2 _ _)
  | inBlock p' s' e' =>
    obtain ⟨hq', n', hblock', rfl⟩ := hisplace
    obtain ⟨-, hlt⟩ : s' ≤ p ∧ p < p' + n' + 2 := of_decide_eq_true hacc
    have hle : p' ≤ p := hplace
    have hin : p' + n' + 2 ≤ part.length := hblock'.closes.add_length_le (by decide)
    have hp' := ((standsAt_excerpt_iff h hm).1 hq').1
    have hb' := (encloses_excerpt_iff h hin).1 hblock'
    have hstart := start_le_of_encloses ho hp' hb' (by omega) (by omega)
    -- so the block of the source has this place as well, and is found by its first one
    have hfirst := place_le_of_accounts List.drop_zero hp' (Nat.zero_le _) ho
      (decide_eq_true ⟨hstart, by omega⟩)
    have hfirst : off + p ≤ off + p' := hfirst
    obtain rfl : p' = p := by omega
    obtain ⟨rfl, rfl⟩ := hblock.unique hblock'
    exact ho'

end Blocks

/-! ### Areas found again -/

/-- Areas of one block that was found in two texts: only their places are different. -/
def Area.SameBlock (a b : Area) : Prop := { a with start := b.start, stop := b.stop } = b

/-- What a line has in front of its first closing mark does not depend on the text behind. -/
theorem before_line_append {t u : Text} (h : contains "*/" t = true) :
    before "*/" ((t ++ u).takeWhile (· ≠ '\n')) = before "*/" (t.takeWhile (· ≠ '\n')) := by
  induction t with
  | nil => exact absurd h (by decide)
  | cons c t ih =>
    by_cases hc : c = '\n'
    · simp [hc]
    · rw [List.cons_append, List.takeWhile_cons_of_pos (by simpa using hc),
        List.takeWhile_cons_of_pos (by simpa using hc), before_cons, before_cons]
      cases t with
      | nil => simp [contains, find?] at h
      | cons d t =>
        have hprefix (r : Text) : ("*/" : Text).isPrefixOf (c :: (d :: r).takeWhile (· ≠ '\n')) =
            ("*/" : Text).isPrefixOf (c :: d :: t) := by
          by_cases hd : d = '\n'
          · simp [hd, List.isPrefixOf]
          · rw [List.takeWhile_cons_of_pos (by simpa using hd)]
            simp [List.isPrefixOf]
        rw [List.cons_append, hprefix, hprefix]
        split_ifs with hp
        · rfl
        · rw [contains_cons, Bool.or_eq_true] at h
          exact congrArg (c :: ·) (ih (h.resolve_left hp))

/-- The value of a tag in a block does not depend on the text behind the block. -/
theorem tagValue_of_prefix {t r : Text} (h : t <+: r) (hclose : contains "*/" t = true) :
    tagValue t = tagValue r := by
  obtain ⟨u, rfl⟩ := h
  rw [tagValue, tagValue, before_line_append hclose]

theorem sameBlock_areaAt (h : StandsAt part source off) {marker : Text} {kind : AreaKind}
    {p s e : Nat} (hstop : e ≤ part.length)
    (hclose : contains "*/" (part.drop (p + marker.length)) = true)
    (hhead : Head.read (part.drop e) = Head.read (source.drop (off + e))) :
    (areaAt part marker kind (.inBlock p s e)).SameBlock
      (areaAt source marker kind (.inBlock (off + p) (off + s) (off + e))) := by
  have hblock : (part.take e).drop s = (source.take (off + e)).drop (off + s) := by
    have hpart : part = (source.drop off).take part.length := List.prefix_iff_eq_take.1 h
    have hshift : (source.take (off + e)).drop off = (source.drop off).take e := by
      rw [List.drop_take, Nat.add_sub_cancel_left]
    rw [← List.drop_drop, hshift, hpart, List.take_take, Nat.min_eq_left hstop]
  have hvalue : tagValue (part.drop (p + marker.length)) =
      tagValue (source.drop (off + p + marker.length)) := by
    have hprefix := List.IsPrefix.drop h (p + marker.length)
    rw [List.drop_drop, ← Nat.add_assoc] at hprefix
    exact tagValue_of_prefix hprefix hclose
  simp only [Area.SameBlock, areaAt, hblock, hvalue, hhead]

/-- An excerpt has the block of an area as a whole, and the code behind the block is read in the
excerpt as in the source. -/
structure Area.LiesIn (a : Area) (source part : Text) (off : Nat) : Prop where
  stands : StandsAt part source off
  start : off ≤ a.start
  stop : a.stop ≤ off + part.length
  head : Head.read (part.drop (a.stop - off)) = Head.read (source.drop a.stop)

instance (a : Area) (source part : Text) (off : Nat) : Decidable (a.LiesIn source part off) :=
  decidable_of_iff
    (StandsAt part source off ∧ off ≤ a.start ∧ a.stop ≤ off + part.length ∧
      Head.read (part.drop (a.stop - off)) = Head.read (source.drop a.stop))
    ⟨fun ⟨hs, hl, hr, hh⟩ => ⟨hs, hl, hr, hh⟩, fun h => ⟨h.stands, h.start, h.stop, h.head⟩⟩

/-- A block of the source that lies in an excerpt makes up the same area there. -/
theorem exists_sameBlock_of_liesIn {w : Text} (hw : '*' ∉ w) {kind : AreaKind} {a : Area}
    (ha : a ∈ areas source ("* @" ++ w) kind) (hwell : a.malformed = false)
    (h : a.LiesIn source part off) : ∃ c ∈ areas part ("* @" ++ w) kind, c.SameBlock a := by
  obtain ⟨o, ho, rfl⟩ := List.mem_map.1 ha
  cases o with
  | loose pos => simp [areaAt] at hwell
  | inBlock pos start stop =>
    have hm : ("* @" ++ w : Text) ≠ [] := List.cons_ne_nil _ _
    obtain ⟨-, hp, n, hb, rfl⟩ := mem_occurrences hm List.drop_zero ho
    have hstart : off ≤ start := h.start
    have hstop : pos + n + 2 ≤ off + part.length := h.stop
    have hhead : Head.read (part.drop (pos + n + 2 - off)) =
      Head.read (source.drop (pos + n + 2)) := h.head
    have hpos := hb.start_le
    obtain ⟨p, rfl⟩ := Nat.exists_eq_add_of_le (Nat.le_trans hstart (by omega : start ≤ pos))
    obtain ⟨s, rfl⟩ := Nat.exists_eq_add_of_le hstart
    have he : off + p + n + 2 = off + (p + n + 2) := by omega
    rw [he] at ho hhead ⊢
    rw [Nat.add_sub_cancel_left] at hhead
    have hmem := mem_occurrences_excerpt hw h.stands ho (by omega)
    refine ⟨_, List.mem_map_of_mem hmem, sameBlock_areaAt h.stands (by omega) ?_ hhead⟩
    have hlen := add_length_le_of_close hw hp hb.closes (Nat.le_add_right _ n)
    have heq : off + (p + ("* @" ++ w : Text).length + (n - ("* @" ++ w : Text).length)) =
        off + p + n := by omega
    have hclose : ("*/" : Text).length = 2 := rfl
    refine contains_iff.2 ⟨n - ("* @" ++ w : Text).length, ?_⟩
    rw [standsAt_drop_iff, standsAt_excerpt_iff h.stands (by decide), heq, hclose]
    exact ⟨hb.closes, by omega⟩

/-! ### The literal behind a block -/

theorem infix_literal_scan (code : Text) : (Head.scan code).literal <:+: code := by
  rw [Head.scan, Head.literalOf]
  split_ifs
  · have hrest : (spanHead 0 code).rest <:+ code := ⟨_, append_spanHead 0 code⟩
    refine List.IsInfix.trans ?_ hrest.isInfix
    rw [group?]
    cases afterGroup? (spanHead 0 code).rest with
    | none => exact List.nil_infix
    | some r => exact (List.take_prefix _ _).isInfix
  · exact List.nil_infix

theorem infix_literal_read (code : Text) : (Head.read code).literal <:+: code := by
  rw [Head.read]
  split_ifs
  · exact infix_literal_scan code
  · split
    · exact List.nil_infix
    · exact infix_literal_scan code

/-- The literal of an area is an excerpt of the code behind the block. -/
theorem exists_standsAt_literal {marker : Text} {kind : AreaKind} {a : Area}
    (ha : a ∈ areas source marker kind) : ∃ off, a.stop ≤ off ∧ StandsAt a.literal source off := by
  have hinfix : a.literal <:+: source.drop a.stop := by
    obtain ⟨o, -, rfl⟩ := List.mem_map.1 ha
    cases o with
    | loose pos => exact List.nil_infix
    | inBlock pos start stop =>
      rw [areaAt]
      split_ifs
      · exact infix_literal_read _
      · exact List.nil_infix
  obtain ⟨front, back, heq⟩ := hinfix
  refine ⟨a.stop + front.length, Nat.le_add_right _ _, back, ?_⟩
  rw [← List.drop_drop, ← heq, List.append_assoc, List.drop_left]

end DocDecl
