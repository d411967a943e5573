import DocDecl.File.Path
import DocDecl.Pattern.Substitution
import DocDecl.Settings.Options

/-!
# Settings

The settings of a run are the plain options, rules that change the source before it is read, and
two hooks: one for the source, after the rules, and one for the declarations at the end.

## Main definitions

* `Settings` : the settings of a run.
* `Settings.prepare` : what is done to a source.
* `Settings.finish` : what is done to the declarations.

## Main results

* `Settings.prepare_of_plain` : without rules and hooks a source stays as it is.
-/

namespace DocDecl

/-- The settings of a run. -/
structure Settings extends Options where
  /-- The rules for the source, in order. -/
  rules : List ReplacementRule := []
  /-- What is done to the source after the rules. -/
  preprocessing : Option (Text → Text) := none
  /-- What is done to the declarations, given the source as it was before the rules. -/
  postprocessing : Option (Text → Text → Text) := none
  /-- The directory that the settings come from. -/
  root : Option Location := none

namespace Settings

/-- A text with rules applied to it, one after the other. -/
def applyRules (rules : List ReplacementRule) (t : Text) : Except RuleFault Text :=
  rules.foldlM (fun t r => r.apply t) t

/-- What is done to a source. -/
def prepare (s : Settings) (source : Text) : Except RuleFault Text := do
  let t ← applyRules s.rules source
  return (s.preprocessing.getD id) t

/-- What is done to the declarations of a source. -/
def finish (s : Settings) (output source : Text) : Text :=
  match s.postprocessing with
  | some f => f output source
  | none => output

theorem prepare_of_plain {s : Settings} (hr : s.rules = []) (hp : s.preprocessing = none)
    (source : Text) : s.prepare source = .ok source := by
  simp only [prepare, applyRules, hr, hp]
  rfl

theorem finish_of_plain {s : Settings} (h : s.postprocessing = none) (output source : Text) :
    s.finish output source = output := by
  simp only [finish, h]

end Settings

end DocDecl
