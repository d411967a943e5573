/-!
# Text

Text is a list of code points, so that every offset, length and cut counts code points. This file
holds the searches and cuts that the rest of the library is written in.

## Main definitions

* `Text.after?` : what follows a given beginning.
* `Text.find?`, `Text.findAny?`, `Text.rfind?` : the first and the last place of a pattern.
* `Text.cut?` : the text before and after the first place of a pattern.
* `Text.replace` : every place of a pattern replaced, from left to right.
* `Text.splitOn`, `Text.join` : pieces between separators, and back.

## Main results

* `Text.after?_eq_some_iff` : a beginning is cut off exactly when the text is made of both parts.
* `Text.find?_add_length_le` : a place that is found has room for the pattern.
* `Text.join_splitOn` : joining the pieces gives the text back.
-/

namespace DocDecl

/-- Text as a list of code points. -/
abbrev Text := List Char

instance : Coe String Text := ⟨String.toList⟩

instance : LawfulBEq Text := inferInstanceAs (LawfulBEq (List Char))

namespace Text

/-- The text, where a condition holds, and else the empty text. -/
def onlyIf (b : Bool) (t : Text) : Text := if b then t else []

/-! ### Beginnings -/

/-- The text after `p`, if the text begins with `p`. -/
def after? : Text → Text → Option Text
  | [], t => some t
  | _ :: _, [] => none
  | a :: p, b :: t => if a = b then after? p t else none

theorem after?_eq_some_iff {p t r : Text} : after? p t = some r ↔ t = p ++ r := by
  induction p generalizing t with
  | nil => simp [after?]
  | cons a p ih =>
    cases t with
    | nil => simp [after?]
    | cons b t =>
      by_cases h : a = b
      · simp [after?, h, ih]
      · simp [after?, h, Ne.symm h]

theorem length_of_after? {p t r : Text} (h : after? p t = some r) :
    t.length = p.length + r.length := by
  rw [after?_eq_some_iff.1 h, List.length_append]

/-- The first alternative that the text begins with, cut off. -/
def afterAny? : List Text → Text → Option Text
  | [], _ => none
  | p :: ps, t => (after? p t).or (afterAny? ps t)

/-! ### Searching -/

/-- The offset of the first place at which `p` stands. -/
def find? (p : Text) : Text → Option Nat
  | [] => if p = [] then some 0 else none
  | c :: t => if p.isPrefixOf (c :: t) then some 0 else (find? p t).map (· + 1)

/-- The offset of the last place at which `p` stands. -/
def rfind? (p : Text) : Text → Option Nat
  | [] => if p = [] then some 0 else none
  | c :: t =>
    match rfind? p t with
    | some n => some (n + 1)
    | none => if p.isPrefixOf (c :: t) then some 0 else none

/-- The offset of the first place at which one of the patterns stands. -/
def findAny? (ps : List Text) : Text → Option Nat
  | [] => if [] ∈ ps then some 0 else none
  | c :: t =>
    if ps.any fun p => p.isPrefixOf (c :: t) then some 0 else (findAny? ps t).map (· + 1)

/-- Whether `p` stands somewhere in the text. -/
def contains (p t : Text) : Bool := (find? p t).isSome

theorem find?_add_length_le {p t : Text} {n : Nat} (h : find? p t = some n) :
    n + p.length ≤ t.length := by
  induction t generalizing n with
  | nil =>
    by_cases hp : p = []
    · simp only [find?, hp, if_true, Option.some.injEq] at h
      simp [hp, ← h]
    · simp [find?, hp] at h
  | cons c t ih =>
    by_cases hp : p.isPrefixOf (c :: t) = true
    · simp only [find?, hp, if_true, Option.some.injEq] at h
      have := (List.isPrefixOf_iff_prefix.1 hp).length_le
      omega
    · simp only [find?, hp, Bool.false_eq_true, if_false, Option.map_eq_some_iff] at h
      obtain ⟨m, hm, rfl⟩ := h
      have := ih hm
      simp only [List.length_cons]
      omega

/-- The text before and after the first place of `p`. -/
def cut? (p t : Text) : Option (Text × Text) :=
  (find? p t).map fun n => (t.take n, t.drop (n + p.length))

/-- The text before the first place of `p`, or all of it. -/
def before (p t : Text) : Text := ((cut? p t).map Prod.fst).getD t

/-- The text before and after the last place of `p`. -/
def rcut? (p t : Text) : Option (Text × Text) :=
  (rfind? p t).map fun n => (t.take n, t.drop (n + p.length))

/-! ### Replacing -/

/-- Replaces the places of `old` after the next `skip` code points. -/
def replaceAfter (old new : Text) : Nat → Text → Text
  | _, [] => []
  | skip + 1, _ :: t => replaceAfter old new skip t
  | 0, c :: t =>
    if old.isPrefixOf (c :: t) then new ++ replaceAfter old new (old.length - 1) t
    else c :: replaceAfter old new 0 t

/-- Replaces every place of `old`, from left to right. The empty text stands before and after
every code point. -/
def replace (old new t : Text) : Text :=
  if old = [] then t.foldr (fun c r => new ++ c :: r) new else replaceAfter old new 0 t

/-- Replaces the first place of `old` only. -/
def replaceFirst (old new t : Text) : Text :=
  match cut? old t with
  | some (before, after) => before ++ new ++ after
  | none => t

/-! ### Pieces -/

/-- The pieces between the places of a separator. -/
def splitOn (sep : Char) : Text → List Text
  | [] => [[]]
  | c :: t =>
    if c = sep then [] :: splitOn sep t
    else
      match splitOn sep t with
      | [] => [[c]]
      | p :: ps => (c :: p) :: ps

/-- The pieces with a separator between each two. -/
def join (sep : Text) (ts : List Text) : Text := List.intercalate sep ts

/-- The lines of a text. Only the line feed ends a line. -/
def lines (t : Text) : List Text := splitOn '\n' t

/-- The lines put together again. -/
def unlines (ls : List Text) : Text := join "\n" ls

theorem splitOn_ne_nil (sep : Char) (t : Text) : splitOn sep t ≠ [] := by
  cases t with
  | nil => simp [splitOn]
  | cons c t =>
    by_cases h : c = sep
    · simp [splitOn, h]
    · rw [splitOn, if_neg h]
      split <;> simp

theorem join_splitOn (sep : Char) (t : Text) : join [sep] (splitOn sep t) = t := by
  induction t with
  | nil => simp [splitOn, join, List.intercalate]
  | cons c t ih =>
    have hne := splitOn_ne_nil sep t
    cases hs : splitOn sep t with
    | nil => exact absurd hs hne
    | cons p ps =>
      rw [hs] at ih
      by_cases h : c = sep
      · simp only [splitOn, h, if_true, hs, join] at ih ⊢
        simpa [List.intercalate] using ih
      · simp only [splitOn, h, if_false, hs, join] at ih ⊢
        cases ps with
        | nil => simpa [List.intercalate] using ih
        | cons q qs => simpa [List.intercalate] using ih

/-- The last piece and the pieces before it. -/
def unsnoc (ts : List Text) : List Text × Text := (ts.dropLast, ts.getLastD [])

/-! ### Numbers -/

/-- A natural number in decimal digits. -/
def ofNat (n : Nat) : Text := Nat.toDigits 10 n

end Text

end DocDecl
