import Workbench.Call

/-!
# Moving workflows between spaces

Export writes the document of a workflow to the user's downloads; import makes a new workflow from
a document that the user picks. A document is accepted when it bears the mark of the format, has
all fields, and has a graph in one of its two forms.

* `exportWorkflow` never fails: without ids, without a workflow behind them, or after any error it
  has no path to show.
* `importWorkflow` creates the workflow first and stores the graph second, and tells the user how
  it went unless the user has changed their mind.
-/
namespace Workbench

open Workflow (Detail Document)

inductive TransferError
  | invalidJson (error : Json.Error)
  /-- The mark that was found instead, if it was a text. -/
  | wrongFormat (found : Option String)
  | missingSchema
  | file (message : String)
  | api (error : ApiError)
  deriving DecidableEq, Repr

def TransferError.message : TransferError → String
  | .invalidJson e => s!"Invalid JSON: {e.message}"
  | .wrongFormat found =>
    let shown := match found with
      | some mark => s!"'{mark}'"
      | none => "none"
    s!"Unsupported file format: expected type '{Document.formatMark}', found {shown}"
  | .missingSchema => "Export file does not contain a workflow schema"
  | .file m => s!"IO error: {m}"
  | .api e => e.message

/-! ## Reading documents -/

/-- The document that a value describes. -/
def Workflow.Document.ofJson (v : Json) : Except TransferError Document := do
  let mark := (v.get? "type").bind Json.str?
  if mark = some formatMark then
    match codec.decode v with
    | .error p => throw (.invalidJson ⟨p, none⟩)
    | .ok d => if d.schemaText.isSome then return d else throw .missingSchema
  else throw (.wrongFormat mark)

/-- The document that a file holds. -/
def Workflow.Document.parse (contents : List UInt8) : Except TransferError Document :=
  match Json.read contents with
  | .error e => .error (.invalidJson e)
  | .ok v => ofJson v

/-! ## Export -/

/-- Asks for a workflow and saves its document; the path of the file, if there is a workflow. -/
def saveDocument (spaceId workflowId : String) (exportedBy : Option String) (now : Instant) :
    Talk (Except TransferError (Option String)) := do
  match ← Talk.detail spaceId workflowId with
  | .error e => return .error (.api e)
  | .ok none => return .ok none
  | .ok (some detail) =>
    let document := Document.ofDetail detail (some spaceId) exportedBy now
    match ← Talk.download (Document.fileName detail.name detail.workflowId)
        (Text.bytes (Document.codec.prettyText document)) with
    | .error m => return .error (.file m)
    | .ok path => return .ok (some path)

/-- Exports a row; the path of the file that was saved. -/
def exportWorkflow (r : Resource) (exportedBy : Option String) (now : Instant) :
    Talk (Option String) := do
  match Text.nonEmpty r.id, Text.nonEmpty r.spaceId with
  | some workflowId, some spaceId =>
    match ← saveDocument spaceId workflowId exportedBy now with
    | .ok path => return path
    | .error _ => return none
  | _, _ => return none

/-! ## Import -/

/-- The part of a copy's name that comes from the document. -/
def copyBase (name : String) : String :=
  let name := Text.trim name
  if name = "" then "workflow" else name

/-- The name of a copy; the time keeps repeated imports apart. -/
def importedName (name : String) (now : Civil) : String :=
  copyBase name ++ "_imported_" ++ now.stamp

/-- The request for the workflow that a document becomes. -/
def Workflow.Document.request (d : Document) (spaceId : String) (now : Civil) : NewWorkflow :=
  ⟨spaceId, importedName d.name now, d.description, d.iconUri, d.mode⟩

/-- Creates the workflow that a file describes; its id and its name. -/
def createFrom (contents : List UInt8) (spaceId : String) (now : Civil) :
    Talk (Except TransferError (String × String)) := do
  match Document.parse contents with
  | .error e => return .error e
  | .ok document =>
    match document.schemaText with
    | none => return .error .missingSchema
    | some schema =>
      let request := document.request spaceId now
      match ← Talk.create request with
      | .error e => return .error (.api e)
      | .ok workflowId =>
        match ← Talk.save spaceId workflowId schema with
        | .error e => return .error (.api e)
        | .ok () => return .ok (workflowId, request.name)

def importFailure (message : String) : Talk (Option String) := do
  Talk.alert .error s!"Import failed: {message}"
  return none

/-- Imports a file that the user picks; the id of the new workflow. -/
def importWorkflow (spaceId : String) (now : Civil) : Talk (Option String) := do
  match ← Talk.pick with
  | .error m => importFailure m
  | .ok none => return none
  | .ok (some file) =>
    match ← createFrom file.contents spaceId now with
    | .error e => importFailure e.message
    | .ok (workflowId, name) =>
      Talk.alert .success s!"Workflow imported as \"{name}\""
      return some workflowId

end Workbench
