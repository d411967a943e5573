import DocDecl.Text.Decimal
import DocDecl.Text.Quoted

/-!
# Settings documents

A settings document is made of null, truth values, numbers, text, lists and mappings.

## Main definitions

* `Document` : the data of a document.
* `Document.get?`, `Document.putEntry` : the value of a key, and a new one.
* `Document.isEmpty` : null, false, zero, and what holds nothing.
* `Document.shown` : a value as text.
-/

namespace DocDecl

/-- The data of a settings document. A fraction is kept as it is shown. -/
inductive Document where
  | null
  | bool (b : Bool)
  | int (n : Int)
  | fraction (shown : Text)
  | text (t : Text)
  | list (items : List Document)
  | mapping (entries : List (Document × Document))
  deriving Repr, Inhabited

namespace Document

/-- Whether a document is a given text. -/
def isText (t : Text) : Document → Bool
  | text u => u = t
  | _ => false

/-- The value of a key in a mapping. -/
def get? (key : Text) : Document → Option Document
  | mapping es => (es.find? fun e => e.1.isText key).map Prod.snd
  | _ => none

/-- Whether two documents are the same key. -/
def isSameKey : Document → Document → Bool
  | null, null => true
  | bool a, bool b => a = b
  | int m, int n => m = n
  | fraction a, fraction b => a = b
  | text a, text b => a = b
  | _, _ => false

/-- Adds an entry to those of a mapping. A key that is there keeps its place and takes the new
value. -/
def putEntry (k v : Document) : List (Document × Document) → List (Document × Document)
  | [] => [(k, v)]
  | e :: es => if e.1.isSameKey k then (e.1, v) :: es else e :: putEntry k v es

/-- Whether a document counts as empty: null, false, zero, and what holds nothing. -/
def isEmpty : Document → Bool
  | null => true
  | bool b => !b
  | int n => n = 0
  | fraction shown => shown = "0.0".toList || shown = "-0.0".toList
  | text t => t.isEmpty
  | list items => items.isEmpty
  | mapping es => es.isEmpty

/-- A whole number in decimal digits. -/
def intText (n : Int) : Text := Text.onlyIf (n < 0) "-" ++ Text.ofNat n.natAbs

mutual

/-- A value as it is told inside other values. -/
def told : Document → Text
  | null => "None"
  | bool b => if b then "True" else "False"
  | int n => intText n
  | fraction shown => shown
  | text t => Text.quoted t
  | list items => "[" ++ Text.join ", " (toldItems items) ++ "]"
  | mapping es => "\x7b" ++ Text.join ", " (toldEntries es) ++ "\x7d"

/-- The items of a list as they are told. -/
def toldItems : List Document → List Text
  | [] => []
  | d :: ds => told d :: toldItems ds

/-- The entries of a mapping as they are told. -/
def toldEntries : List (Document × Document) → List Text
  | [] => []
  | (k, v) :: es => (told k ++ ": " ++ told v) :: toldEntries es

end

/-- A value as text: text as it is, anything else as it is told. -/
def shown : Document → Text
  | text t => t
  | d => told d

end Document

end DocDecl
