import Workbench.Apps.Error
import Workbench.Dispatch
import Workbench.Files
import Workbench.Text.Lowercase
import Workbench.Text.Split

/-!
# Errors of the command line

An error is shown with its causes, and with advice where its wording calls for some.
-/
namespace Workbench.Cli

inductive Error
  | noDocument
  | noSpace
  | unreadable (path : String) (error : FileError)
  | notARecord (path : String) (error : Json.Error)
  | invalidBackend (url : String) (error : ApiError)
  | dispatch (error : DispatchError)
  | apps (error : AppsError)
  /-- The id of the workflow, if it was given on the line. -/
  | nothingExported (workflowId : Option String)
  | nothingImported
  | noSettingsPath
  | settingsExist (path : String)
  | uncreatable (path : String) (error : FileError)
  | unwritable (path : String) (error : FileError)
  deriving DecidableEq, Repr

namespace Error

def message : Error → String
  | .noDocument => "Import needs an export document; pass --file"
  | .noSpace => "No space id given; pass --space-id or set user.space_id"
  | .unreadable path e => s!"Failed to read {path}: {e.message}"
  | .notARecord path e => s!"{path} is not a resource record: {e.message}"
  | .invalidBackend url e => s!"Invalid backend URL '{url}': {e.message}"
  | .dispatch e => e.message
  | .apps e => e.message
  | .nothingExported none => "Export produced no file; see the log for details"
  | .nothingExported (some id) => s!"Export of workflow {id} produced no file; see the log for details"
  | .nothingImported => "Import did not complete"
  | .noSettingsPath => "Could not determine the config directory"
  | .settingsExist path => s!"Config file already exists at {path}; use --force to overwrite"
  | .uncreatable path e => s!"Failed to create {path}: {e.message}"
  | .unwritable path e => s!"Failed to write {path}: {e.message}"

/-- Advice for messages that have one of these parts. -/
structure Advice where
  parts : List String
  lines : List String

def advice : List Advice := [
  ⟨["dify host is required", "dify api key is required"],
   ["Pass --host/--api-key, set DIFY_HOST/DIFY_API_KEY, or add them to the [dify] section of:",
    "$ flowdesk config path"]⟩,
  ⟨["not available for this resource"],
   ["List the actions this resource offers with:", "$ flowdesk menu show --record <file>"]⟩,
  ⟨["no space id"], ["Pass --space-id or set user.space_id in the config file."]⟩,
  ⟨["connection refused", "network"],
   ["Check that the backend is running and FLOWDESK_BACKEND_URL is correct."]⟩]

def Advice.text (a : Advice) : String :=
  "\nSuggestion:\n" ++ String.join (a.lines.map fun l => "  " ++ l ++ "\n")

/-- The advice that fits a message. -/
def fitting (message : String) : List Advice :=
  let m := Text.lower message
  advice.filter fun a => a.parts.any (Text.hasPart · m)

def text (e : Error) : String :=
  "Error: " ++ e.message ++ "\n" ++ String.join ((fitting e.message).map Advice.text)

end Error

end Workbench.Cli
