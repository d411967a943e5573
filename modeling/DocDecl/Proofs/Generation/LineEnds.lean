import DocDecl.Proofs.LineEnds.Layout

/-!
# Declarations and line ends

Where no override is in a source, its declarations are the same with carriage returns at the ends of
its lines: every stage works alike, or keeps the carriage returns of quoted keys until the normal
form takes them away. An override is read only where the line of its tag ends with a line feed
alone, so with carriage returns there is none.

## Main results

* `generate_lineEnds` : line ends matter for overrides only.
* `not_alike_of_override` : with an override the declarations may differ.
-/

namespace DocDecl

/-- The declarations of a source without carriage returns. Written with carriage returns at its line
ends, it has no override in any of its areas; where it has no override tag before, its declarations
are the same. -/
theorem generate_lineEnds {s : Settings} (hr : s.rules = []) (hp : s.preprocessing = none)
    (hq : s.postprocessing = none) {source : Text} (hsource : '\r' ∉ source) :
    (∀ marker kind,
        ((areas (Text.replace "\n" "\r\n" source) marker kind).all fun a =>
          a.override.isEmpty) = true) ∧
      (Text.contains "@tsdeclaration\n * " source = false → ∀ earlier earlier',
        (generate s earlier (Text.replace "\n" "\r\n" source)).value =
          (generate s earlier' source).value) := by
  constructor
  · intro marker kind
    rw [List.all_eq_true]
    intro a ha
    rw [override_of_mem_areas (contains_overrideTag_dosLines source) ha]
    rfl
  · intro hover earlier earlier'
    have hdeclared := resembles_declared s.toOptions hsource hover
    rw [value_generate_of_plain hr hp hq, value_generate_of_plain hr hp hq, value_declarationsOf,
      value_declarationsOf]
    exact value_layout_of_resembles hdeclared (isPrintable_declareAll _ _)
      (isPrintable_declareAll _ _)

/-- A member whose type has a line end in a key. -/
theorem generate_lineEnds_of_key :
    let source : Text :=
      "/**\n * @memberof A\n */\nA.prototype.opts = \x7b\n  'a\\\nb': [1, 2] // both\n\x7d;\n"
    (generate {} 0 (Text.replace "\n" "\r\n" source)).value = (generate {} 0 source).value :=
  (generate_lineEnds rfl rfl rfl (by decide +kernel)).2 (by decide +kernel) 0 0

/-- An override is not read where its lines end with carriage returns. -/
theorem not_alike_of_override :
    let source : Text :=
      "/**\n * @name add\n * @tsdeclaration\n" ++
        " * declare function add(...values: number[]): number;\n" ++
        " */\nfunction add(a, b) \x7b\x7d\n"
    (generate {} 0 source).value.toOption =
        some ("declare function add(...values: number[]): number;\n".toList) ∧
      (generate {} 0 (Text.replace "\n" "\r\n" source)).value.toOption =
        some (("/**\n * @tsdeclaration\n" ++
          " * declare function add(...values: number[]): number;\n" ++
          " */\ndeclare function add(a: any, b: any): void\n").toList) := by
  decide +kernel

end DocDecl
