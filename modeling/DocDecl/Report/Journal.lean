import DocDecl.Report.Basic

/-!
# Journals

Work that notes reports and log records on the way yields a value and a journal, the list of its
entries. Steps that follow each other have their journals one after the other; no step can see what
was noted before it.

## Main definitions

* `Noted` : a value with the entries noted for it, as a monad.
* `Noted.info`, `Noted.error`, `Noted.debug` : single entries.
* `Noted.onlyIf` : entries under a condition.

## Main results

* `Noted.entries_bind` : the entries of two steps are those of the first, then those of the second.
* `Noted.reports_bind` : the same for the reports.
* `Noted.value_mapM` : the values of a step for each element of a list.
-/

namespace DocDecl

/-- A value and what was noted on the way to it. -/
structure Noted (α : Type) where
  /-- The value. -/
  value : α
  /-- What was noted, in order. -/
  entries : List Entry
  deriving Repr

namespace Noted

variable {α β : Type}

/-- One step after another. -/
def andThen (x : Noted α) (f : α → Noted β) : Noted β :=
  let y := f x.value
  ⟨y.value, x.entries ++ y.entries⟩

instance : Monad Noted where
  pure a := ⟨a, []⟩
  bind := andThen

@[simp]
theorem value_pure (a : α) : (pure a : Noted α).value = a := rfl

@[simp]
theorem entries_pure (a : α) : (pure a : Noted α).entries = [] := rfl

@[simp]
theorem value_bind (x : Noted α) (f : α → Noted β) : (x >>= f).value = (f x.value).value := rfl

@[simp]
theorem entries_bind (x : Noted α) (f : α → Noted β) :
    (x >>= f).entries = x.entries ++ (f x.value).entries := rfl

@[simp]
theorem value_map (f : α → β) (x : Noted α) : (f <$> x).value = f x.value := rfl

@[simp]
theorem entries_map (f : α → β) (x : Noted α) : (f <$> x).entries = x.entries :=
  List.append_nil x.entries

theorem ext' {x y : Noted α} (hv : x.value = y.value) (he : x.entries = y.entries) : x = y := by
  cases x
  cases y
  simp_all

instance : LawfulMonad Noted :=
  LawfulMonad.mk' _ (fun x => ext' rfl (List.append_nil x.entries)) (fun _ _ => ext' rfl rfl)
    (fun _ _ _ => ext' rfl (List.append_assoc ..))

theorem value_mapM (f : α → Noted β) (as : List α) :
    (as.mapM f).value = as.map fun a => (f a).value := by
  induction as with
  | nil => rfl
  | cons a as ih => rw [List.mapM_cons, value_bind, value_bind, ih, value_pure, List.map_cons]

/-- Notes one entry. -/
def note (e : Entry) : Noted Unit := ⟨(), [e]⟩

/-- Notes something where a condition holds. -/
def onlyIf (b : Bool) (x : Noted Unit) : Noted Unit := if b then x else pure ()

/-- Reports something worth knowing. -/
def info (subject : Subject) (category message : Text) : Noted Unit :=
  note (.report ⟨.info, subject, category, message⟩)

/-- Reports a mistake. -/
def error (subject : Subject) (category message : Text) : Noted Unit :=
  note (.report ⟨.error, subject, category, message⟩)

/-- Logs a detail of the work of a part. -/
def debug (part message : Text) : Noted Unit := note (.step ⟨.debug, part, message⟩)

/-- The reports that were noted. -/
def reports (x : Noted α) : List Report := reportsOf x.entries

theorem reports_bind (x : Noted α) (f : α → Noted β) :
    (x >>= f).reports = x.reports ++ (f x.value).reports := by
  rw [reports, entries_bind, reportsOf_append]
  rfl

end Noted

end DocDecl
