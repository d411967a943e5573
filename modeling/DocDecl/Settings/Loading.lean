import DocDecl.Document.Node
import DocDecl.File.Tree
import DocDecl.Settings.OfDocument

/-!
# Loading settings

Settings are loaded from a file, or from the file of the usual name in a directory. Where there is
no file, the settings are the defaults.

## Main definitions

* `settingsLocation` : where the settings of a path are kept.
* `Settings.ofText` : the settings that a text holds.
* `Settings.load` : the settings of a path.
-/

namespace DocDecl

/-- Where the settings of a path are kept. -/
def settingsLocation (files : Files) (p : Path) : Location :=
  Location.ofPath (if files.holdsDirectory p then p.child settingsFileName else p)

/-- The settings that the text of a file holds. A blank text gives the defaults. -/
def Settings.ofText (root : Option Location) (file t : Text)
    (importer : Importer := standardImporter) : Except SettingsFault Settings :=
  if Text.isBlankText t then .ok { root := root }
  else
    match Document.parse? t with
    | some d => Settings.ofDocument root d importer
    | none => .error (.unreadable file)

/-- The settings of a path. -/
def Settings.load (files : Files) (p : Path) (importer : Importer := standardImporter) :
    Except SettingsFault Settings :=
  let l := settingsLocation files p
  let root : Location := l.dropLast
  match files.read? l with
  | some t => Settings.ofText root (l.getLastD []) t importer
  | none => .ok { root := some root }

end DocDecl
