import DocDecl.Proofs.Generation.Totality

/-!
# The stages of generation

A source is declared, its declarations are printed as fragments, and the fragments are put together.
The fragments are those of the types, of the callbacks, of the containers that survive, and of the
promoted statics, in this order; where the declarations can be printed, there is nothing else.

## Main definitions

* `declared` : the declarations of a source.
* `Declared.fragments`, `Declared.assemble` : declarations as fragments, and these put together.
* `Declared.containers` : the declarations with the members put into them.

## Main results

* `layout_eq` : the text of declarations is that of their fragments.
* `value_declarationsOf` : the text of a source is that of its declarations.
* `exists_value_fragments` : the fragments of declarations that can be printed.
-/

namespace DocDecl

/-! ### Values -/

section Generating

variable {α β : Type}

theorem value_run_bind {x : Generating α} {a : α} (hx : x.run.value = .ok a)
    (f : α → Generating β) : (x >>= f).run.value = (f a).run.value := by
  rw [ExceptT.run_bind, Noted.value_bind, hx]

theorem value_ofNoted (x : Noted α) : (Generating.ofNoted x).run.value = .ok x.value := rfl

theorem value_ofWork {x : Work α} {a : α} (hx : Work.outcome x = .ok a) :
    (Generating.ofWork x).run.value = .ok a := by
  change (Work.outcome x).mapError _ = _
  rw [hx]
  rfl

theorem value_ofExcept {x : Except Fault α} {a : α} (hx : x = .ok a) :
    (Generating.ofExcept x).run.value = .ok a := by
  rw [hx]
  rfl

end Generating

/-! ### Stages -/

/-- The declarations of a source. -/
def declared (options : Options) (source : Text) : Declared :=
  (declareAll options (collect source).value).value

namespace Declared

/-- Declarations as fragments that have not been put into their namespaces. -/
def fragments (includePrivate : Bool) (d : Declared) : Generating (List Fragment) := do
  let classes ← .ofWork (intoClasses includePrivate d.named (d.constructors ++ d.members))
  let typedefs ← .ofExcept (intoTypedefs d.typedefs)
  let callbacks ← .ofExcept (intoCallbacks d.callbacks)
  return typedefs ++ callbacks ++ classes ++ promoteStatics d.members

/-- The text of fragments, put into their namespaces and the module. -/
def assemble (d : Declared) (fs : List Fragment) : Generating Text := do
  let fs ← .ofWork (intoNamespaces d.namespaces fs)
  let fs ← .ofExcept (intoModules d.modules fs)
  return normalForm (Text.join "\n" (fs.map Fragment.code))

/-- The classes, the functions and the interfaces that are made up, with their members. -/
def containers (includePrivate : Bool) (d : Declared) : List Container :=
  containersOf d.named (fates includePrivate d.named (d.constructors ++ d.members))

end Declared

theorem layout_eq (includePrivate : Bool) (d : Declared) :
    d.layout includePrivate = d.fragments includePrivate >>= d.assemble := by
  have hstatics : Generating.ofExcept (renderStatics d.members) =
      pure (promoteStatics d.members) := by
    rw [renderStatics_eq]
    rfl
  simp only [Declared.layout, Declared.fragments, Declared.assemble, hstatics, bind_assoc,
    pure_bind]

theorem value_declarationsOf (options : Options) (source : Text) :
    (declarationsOf options source).run.value =
      ((declared options source).layout options.includePrivate).run.value := by
  rw [declarationsOf, value_run_bind (value_ofNoted _), value_run_bind (value_ofNoted _), declared]

/-! ### The fragments of declarations that can be printed -/

section Fragments

variable {includePrivate : Bool} {d : Declared}

theorem Declared.IsPrintable.isMember (h : d.IsPrintable) :
    ∀ m ∈ d.constructors ++ d.members, m.isMember = true :=
  List.forall_mem_append.2 ⟨h.constructors, h.members⟩

theorem outcome_intoClasses_of_isPrintable (h : d.IsPrintable) :
    Work.outcome (intoClasses includePrivate d.named (d.constructors ++ d.members)) =
      .ok (((d.containers includePrivate).filter (·.survives includePrivate)).map
        Container.fragment) := by
  rw [outcome_intoClasses h.isMember]
  refine if_neg ?_
  simp only [List.any_eq_true, Bool.and_eq_true, not_exists, not_and, Bool.not_eq_true]
  exact fun c hc _ => isHeadless_of_mem_containersOf h.named hc

theorem exists_value_fragments (h : d.IsPrintable) :
    ∃ typedefs callbacks, intoTypedefs d.typedefs = .ok typedefs ∧
      intoCallbacks d.callbacks = .ok callbacks ∧
        (d.fragments includePrivate).run.value =
          .ok (typedefs ++ callbacks ++
            ((d.containers includePrivate).filter (·.survives includePrivate)).map
              Container.fragment ++ promoteStatics d.members) := by
  obtain ⟨typedefs, htypedefs⟩ : ∃ fs, intoTypedefs d.typedefs = .ok fs :=
    exists_mapM_eq_ok fun t ht => exists_typedefFragment (h.typedefs t ht).1 (h.typedefs t ht).2
  obtain ⟨callbacks, hcallbacks⟩ : ∃ fs, intoCallbacks d.callbacks = .ok fs :=
    exists_mapM_eq_ok fun c hc => exists_callbackFragment (h.callbacks c hc).1 (h.callbacks c hc).2
  refine ⟨typedefs, callbacks, htypedefs, hcallbacks, ?_⟩
  rw [Declared.fragments, value_run_bind (value_ofWork (outcome_intoClasses_of_isPrintable h)),
    value_run_bind (value_ofExcept htypedefs), value_run_bind (value_ofExcept hcallbacks)]
  rfl

end Fragments

end DocDecl
