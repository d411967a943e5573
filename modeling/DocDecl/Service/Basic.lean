import DocDecl.Document.Json
import DocDecl.Generation.Calls
import DocDecl.Settings.Override

/-!
# The service

Over HTTP the service tells that it is there, and makes declarations for the sources that it is
sent. Single options can be sent along. The settings are asked for anew with every request, and may
be refused.

## Main definitions

* `Service.Request`, `Service.Response` : what the service gets and answers.
* `Service.Payload` : a source and options.
* `Service.route` : what a request asks for.
* `Service.respond` : the answer to a request.
-/

namespace DocDecl

namespace Service

/-! ### Requests and responses -/

/-- What the service gets. -/
structure Request where
  /-- The method. -/
  method : Text
  /-- The path. -/
  path : Text
  /-- The body, or the empty text. -/
  body : Text := []
  deriving DecidableEq, Repr

/-- What the service answers. -/
inductive Response where
  /-- The service is there. -/
  | healthy
  /-- The declarations of a source, and the reports. -/
  | generated (declarations : Text) (reports : List Report)
  /-- The settings are refused. -/
  | refused (reason : Text)
  /-- The payload is wrong. -/
  | badPayload
  /-- There is nothing at the path. -/
  | notFound
  /-- The method does not fit the path. -/
  | badMethod
  deriving Repr

/-- The status code of a response. -/
def Response.status : Response → Nat
  | healthy => 200
  | generated .. => 200
  | refused _ => 400
  | badPayload => 422
  | notFound => 404
  | badMethod => 405

/-! ### Payloads -/

/-- A source and options. -/
structure Payload where
  /-- The source. -/
  source : Text
  /-- The options that were sent along. -/
  overrides : Overrides
  deriving DecidableEq, Repr

/-- The words that mean yes. -/
def yesWords : List Text := ["1", "on", "t", "true", "y", "yes"]

/-- The words that mean no. -/
def noWords : List Text := ["0", "off", "f", "false", "n", "no"]

/-- A truth value in any of its spellings. -/
def flag? : Document → Option Bool
  | .bool b => some b
  | .int n => if n = 1 then some true else if n = 0 then some false else none
  | .fraction shown =>
    if shown = "1.0".toList then some true
    else if shown = "0.0".toList ∨ shown = "-0.0".toList then some false
    else none
  | .text t =>
    let w := t.map Char.toLower
    if w ∈ yesWords then some true else if w ∈ noWords then some false else none
  | _ => none

/-- A text. -/
def text? : Document → Option Text
  | .text t => some t
  | _ => none

/-- The value of an option that may be missing or null. It fails where the value is wrong. -/
def optional? {α : Type} (read : Document → Option α) (d : Document) (option : Text) :
    Option (Option α) :=
  match (d.get? option).getD .null with
  | .null => some none
  | v => (read v).map some

/-- The payload of a document. -/
def Payload.ofDocument? (d : Document) : Option Payload := do
  let source ← (d.get? "source").bind text?
  return {
    source := source
    overrides := {
      importTag := ← optional? text? d OptionName.importTag.word
      exportTag := ← optional? text? d OptionName.exportTag.word
      includePrivate := ← optional? flag? d OptionName.includePrivate.word
      expandDefaults := ← optional? flag? d OptionName.expandDefaults.word } }

/-! ### Answers -/

/-- What can be asked for. -/
inductive Route where
  | health
  | generate
  deriving DecidableEq, Repr

/-- The path of what can be asked for, and its method. -/
def Route.address : Route → Text × Text
  | health => ("/health", "GET")
  | generate => ("/generate", "POST")

/-- A path without what follows a question mark or a number sign, and without slashes at its
end. -/
def barePath (path : Text) : Text :=
  let p := path.takeWhile fun c => c ≠ '?' && c ≠ '#'
  (p.reverse.dropWhile (· = '/')).reverse

/-- What a request asks for. -/
def route (r : Request) : Except Response Route :=
  match [Route.health, Route.generate].find? fun x => x.address.1 = barePath r.path with
  | none => .error .notFound
  | some x => if x.address.2 = r.method.map Char.toUpper then .ok x else .error .badMethod

/-- The declarations for a payload. A source that the generation gives up on is refused. -/
def generateFor (settings : Settings) (p : Payload) : Except GenerationFault Response :=
  match generateWithin standardRoom (settings.withOverrides p.overrides) 0 p.source with
  | some x => x.value.map fun output => .generated output x.reports
  | none => .ok (.refused noRoomMessage)

/-- The answer to a body: it has to be JSON, there have to be settings, and it has to be a
payload. -/
def respondTo (settings : Except Text Settings) (body : Text) :
    Except GenerationFault Response :=
  let document := if body = [] then some .null else Document.ofJson? body
  match document, settings with
  | none, _ => .ok .badPayload
  | some _, .error reason => .ok (.refused reason)
  | some d, .ok s =>
    match Payload.ofDocument? d with
    | some p => generateFor s p
    | none => .ok .badPayload

/-- The answer to a request, given the settings or why they are refused. -/
def respond (settings : Except Text Settings) (r : Request) : Except GenerationFault Response :=
  match route r with
  | .ok .health => .ok .healthy
  | .ok .generate => respondTo settings r.body
  | .error response => .ok response

end Service

end DocDecl
