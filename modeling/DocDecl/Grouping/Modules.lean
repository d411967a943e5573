import DocDecl.Grouping.Fragment
import DocDecl.Layout.Blocks
import DocDecl.Text.Word

/-!
# The module around everything

Without a module block the fragments stand one after the other. With one they are the body of the
module, where functions are exported and no longer ambient.

## Main definitions

* `exportAmbient` : a text with its ambient functions exported.
* `intoModules` : the final fragment.
-/

namespace DocDecl

/-- A line with an ambient function exported instead. -/
def exportAmbientLine (line : Text) : Text :=
  match Text.after? "declare function" line with
  | some r =>
    if (r.head?.map isWordChar).getD false then line else "export function" ++ r
  | none => line

/-- A text with its ambient functions exported. -/
def exportAmbient (t : Text) : Text := Text.unlines ((Text.lines t).map exportAmbientLine)

/-- The final fragment: all fragments one after the other, or in the body of the module. -/
def intoModules (modules : List Declaration) (fragments : List Fragment) :
    Except Fault (List Fragment) :=
  let blocks := fragments.map Fragment.code
  match modules with
  | [] => return [⟨none, Text.join "\n\n" blocks, []⟩]
  | m :: _ => do
    let head ← m.head
    return [⟨m.area,
      layoutModule m.comment head (blocks.map exportAmbient) m.imports m.exports, m.path⟩]

end DocDecl
