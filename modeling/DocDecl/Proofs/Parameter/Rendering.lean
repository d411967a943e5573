import DocDecl.Parameter.Rendering
import Mathlib.Data.List.Basic

/-!
# Optional parameters come last

An entry of a parameter list has a question mark behind its name exactly when nothing behind it has
to be given. So behind a question mark stand question marks and rest parameters only, and an
optional parameter that something required follows is a union with `undefined` instead.

## Main definitions

* `Field.IsMarked` : an entry with a question mark behind the name.
* `IsEntry` : the entry of a field, given the fields behind it.
* `ListsParameters` : the entries of a parameter list.

## Main results

* `Field.isMarked_renderField_iff` : where the question marks stand.
* `IsEntry.of_later` : what stands behind a question mark.
* `listsParameters` : the entries of any parameter list.
-/

namespace DocDecl

variable {f g : Field} {fs later : List Field} {i j : Nat}

/-! ### Question marks -/

/-- Whether an entry begins with the name of the field and a question mark. -/
def Field.IsMarked (f : Field) (entry : Text) : Prop := f.name ++ "?:".toList <+: entry

/-- The entry of a field that takes all remaining arguments. -/
def Field.restEntry (f : Field) : Text := "..." ++ f.name ++ ": " ++ f.type

/-- A name that is moved behind dots does not stand in front of a question mark. -/
theorem not_isPrefix_dots (name s t : Text) :
    ¬name ++ '?' :: s <+: "...".toList ++ (name ++ ':' :: t) := by
  induction name with
  | nil => exact fun h => absurd (List.cons_prefix_cons.1 h).1 (by decide)
  | cons c name ih =>
    intro h
    obtain ⟨rfl, htail⟩ := List.cons_prefix_cons.1 h
    exact ih htail

namespace Field

theorem not_isMarked_restEntry (f : Field) : ¬f.IsMarked f.restEntry := by
  have h := not_isPrefix_dots f.name ":" (' ' :: f.type)
  simpa [IsMarked, restEntry] using h

/-- Behind a name, a colon is no question mark. -/
theorem not_isMarked_colon (f : Field) (t : Text) : ¬f.IsMarked (f.name ++ ':' :: t) := by
  rw [IsMarked, List.prefix_append_right_inj]
  exact fun h => absurd (List.cons_prefix_cons.1 h).1 (by decide)

theorem isMarked_mark (f : Field) (t : Text) : f.IsMarked (f.name ++ '?' :: ':' :: t) := by
  rw [IsMarked, List.prefix_append_right_inj]
  exact ⟨t, rfl⟩

theorem isRequired_eq_false_iff : f.isRequired = false ↔ f.optional = true ∨ f.rest = true := by
  simp [isRequired, or_iff_not_imp_left]

theorem any_isRequired_eq_false_iff :
    later.any isRequired = false ↔ ∀ g ∈ later, g.optional = true ∨ g.rest = true := by
  simp only [List.any_eq_false, Bool.not_eq_true, isRequired_eq_false_iff]

end Field

/-! ### Single entries -/

theorem renderField_of_rest (h : f.rest = true) (later : List Field) :
    renderField f later = f.restEntry := by
  rw [renderField, if_pos h]
  rfl

theorem renderField_of_required (hr : f.rest = false) (ho : f.optional = false)
    (later : List Field) : renderField f later = f.name ++ ": " ++ f.type := by
  rw [renderField, hr, ho]
  rfl

theorem renderField_of_optional (hr : f.rest = false) (ho : f.optional = true)
    (later : List Field) :
    renderField f later =
      if later.any Field.isRequired then f.name ++ ": " ++ f.type ++ " | undefined"
      else f.name ++ "?: " ++ f.type := by
  rw [renderField, hr, ho]
  rfl

/-- A question mark stands in the entry of a field that may be left out, where nothing behind it has
to be given. -/
theorem Field.isMarked_renderField_iff (f : Field) (later : List Field) :
    f.IsMarked (renderField f later) ↔
      f.optional = true ∧ f.rest = false ∧ ∀ g ∈ later, g.optional = true ∨ g.rest = true := by
  cases hr : f.rest with
  | true =>
    rw [renderField_of_rest hr]
    exact iff_of_false f.not_isMarked_restEntry (by simp)
  | false =>
    cases ho : f.optional with
    | false =>
      rw [renderField_of_required hr ho, List.append_assoc]
      exact iff_of_false (f.not_isMarked_colon _) (by simp)
    | true =>
      rw [renderField_of_optional hr ho, ← any_isRequired_eq_false_iff]
      cases later.any isRequired with
      | false =>
        rw [if_neg Bool.false_ne_true, List.append_assoc]
        exact iff_of_true (f.isMarked_mark _) ⟨rfl, rfl, rfl⟩
      | true =>
        rw [if_pos rfl, List.append_assoc, List.append_assoc]
        exact iff_of_false (f.not_isMarked_colon _) (by simp)

/-- The entry of a field in a parameter list, given the fields behind it. -/
structure IsEntry (f : Field) (later : List Field) (e : Text) : Prop where
  /-- It has a question mark if the field is optional and no rest, and all fields behind it are
  optional or a rest. -/
  isMarked_iff : f.IsMarked e ↔
    f.optional = true ∧ f.rest = false ∧ ∀ g ∈ later, g.optional = true ∨ g.rest = true
  /-- Behind the question mark stands the type. -/
  of_isMarked : f.IsMarked e → e = f.name ++ "?: " ++ f.type
  /-- An optional field without a question mark is a union with `undefined`. -/
  of_optional : f.optional = true → f.rest = false → ¬f.IsMarked e →
    e = f.name ++ ": " ++ f.type ++ " | undefined"
  /-- Dots stand in front of a rest. -/
  of_rest : f.rest = true → e = f.restEntry
  /-- Any other field has its type. -/
  of_required : f.optional = false → f.rest = false → e = f.name ++ ": " ++ f.type

theorem isEntry_renderField (f : Field) (later : List Field) :
    IsEntry f later (renderField f later) where
  isMarked_iff := f.isMarked_renderField_iff later
  of_isMarked h := by
    obtain ⟨ho, hr, hlater⟩ := (f.isMarked_renderField_iff later).1 h
    rw [renderField_of_optional hr ho, Field.any_isRequired_eq_false_iff.2 hlater]
    rfl
  of_optional ho hr h := by
    have hlater : later.any Field.isRequired = true := by
      rw [← Bool.not_eq_false, Field.any_isRequired_eq_false_iff]
      exact fun hlater => h ((f.isMarked_renderField_iff later).2 ⟨ho, hr, hlater⟩)
    rw [renderField_of_optional hr ho, if_pos hlater]
  of_rest h := renderField_of_rest h later
  of_required ho hr := renderField_of_required hr ho later

/-- Behind a question mark, an entry has a question mark or is a rest. -/
theorem IsEntry.of_later {later' : List Field} {e e' : Text} (h : IsEntry f later e)
    (h' : IsEntry g later' e') (hg : g ∈ later) (hlater : later' ⊆ later) (hmark : f.IsMarked e) :
    g.IsMarked e' ∨ (g.rest = true ∧ e' = g.restEntry) := by
  obtain ⟨-, -, hall⟩ := h.isMarked_iff.1 hmark
  cases hr : g.rest with
  | true => exact .inr ⟨rfl, h'.of_rest hr⟩
  | false =>
    have ho : g.optional = true := (hall g hg).resolve_right (by simp [hr])
    exact .inl (h'.isMarked_iff.2 ⟨ho, hr, fun k hk => hall k (hlater hk)⟩)

/-! ### Parameter lists -/

theorem getElem?_renderFields (fs : List Field) (i : Nat) :
    (renderFields fs)[i]? = fs[i]?.map fun f => renderField f (fs.drop (i + 1)) := by
  induction fs generalizing i with
  | nil => rfl
  | cons f fs ih =>
    cases i with
    | zero => rfl
    | succ i => exact ih i

/-- A parameter list with its entries. -/
structure ListsParameters (fs : List Field) (es : List Text) : Prop where
  /-- There is one entry for each field. -/
  length_eq : es.length = fs.length
  /-- The entries stand in the list in order, on one line. -/
  oneLine : (∀ f ∈ fs, '{' ∉ f.type) → renderParameters fs = "(" ++ Text.join ", " es ++ ")"
  /-- With a brace in a type, each stands on a line of its own. -/
  ownLines : (∃ f ∈ fs, '{' ∈ f.type) →
    renderParameters fs = "(\n" ++ Text.join ",\n" (es.map ("  " ++ ·)) ++ "\n)"
  /-- Each is the entry of its field. -/
  isEntry {i : Nat} {f : Field} {e : Text} : fs[i]? = some f → es[i]? = some e →
    IsEntry f (fs.drop (i + 1)) e
  /-- Behind a question mark, there are only question marks and a rest. -/
  later {i j : Nat} {f g : Field} {e e' : Text} : i < j → fs[i]? = some f → es[i]? = some e →
    fs[j]? = some g → es[j]? = some e' → f.IsMarked e →
    g.IsMarked e' ∨ (g.rest = true ∧ e' = g.restEntry)

/-- **No required parameter stands behind an optional one.** -/
theorem listsParameters (fs : List Field) : ListsParameters fs (renderFields fs) := by
  have hentry {i : Nat} {f : Field} {e : Text} (hf : fs[i]? = some f)
      (he : (renderFields fs)[i]? = some e) : IsEntry f (fs.drop (i + 1)) e := by
    rw [getElem?_renderFields, hf, Option.map_some, Option.some.injEq] at he
    exact he ▸ isEntry_renderField f _
  refine ⟨length_renderFields fs, fun h => ?_, fun h => ?_, hentry, ?_⟩
  · have hany : (fs.any fun f => '{' ∈ f.type) = false := by simpa using h
    rw [renderParameters, hany, if_neg Bool.false_ne_true]
  · have hany : (fs.any fun f => '{' ∈ f.type) = true := by simpa using h
    rw [renderParameters, if_pos hany]
  · intro i j f g e e' hij hf he hg he' hmark
    have hdrop : fs.drop (j + 1) <:+ fs.drop (i + 1) := List.drop_suffix_drop_left fs (by omega)
    refine (hentry hf he).of_later (hentry hg he') ?_ hdrop.subset hmark
    refine List.mem_of_getElem? (i := j - (i + 1)) ?_
    rw [List.getElem?_drop, Nat.add_sub_cancel' hij, hg]

-- a rest behind it does not matter to a question mark, but a required parameter does
example : renderParameters
    [{ type := "A", name := "a", optional := true }, { type := "B", name := "b" },
      { type := "C", name := "c", optional := true },
      { type := "D[]", name := "d", rest := true }] =
    "(a: A | undefined, b: B, c?: C, ...d: D[])".toList := by
  decide

end DocDecl
