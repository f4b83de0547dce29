import Workbench.Apps.Basic
import Workbench.Dialogue
import Workbench.Menu
import Workbench.Workflow

/-!
# The outside world

The calls that the operations of this library make: to the backend, to a Dify host, to the user's
files and eyes, and to whoever handles a chosen action.
-/
namespace Workbench

open Json (Codec Field Fields)

/-- Why a call to the backend or to a Dify host failed. -/
inductive ApiError
  | network (message : String)
  | status (status : Nat) (message : String)
  | backend (code : Int64) (message : String)
  | decode (message : String)
  | invalidRequest (message : String)
  deriving DecidableEq, Repr

def ApiError.message : ApiError → String
  | .network m => s!"Network error: {m}"
  | .status n m => s!"HTTP {n}: {m}"
  | .backend code m => s!"Backend error {code.toInt}: {m}"
  | .decode m => s!"Invalid response: {m}"
  | .invalidRequest m => s!"Invalid request: {m}"

/-- A request for a new workflow. -/
structure NewWorkflow where
  spaceId : String
  name : String
  description : String
  iconUri : Option String
  mode : FlowMode
  deriving DecidableEq, Repr

def NewWorkflow.codec : Codec NewWorkflow :=
  .record "CreateWorkflowRequest"
    (.cons (.required "space_id" .string) <| .cons (.required "name" .string) <|
     .cons (.required "desc" .string) <| .cons (.unwritten "icon_uri" .string) <|
     .cons (.required "flow_mode" FlowMode.codec) .nil)
    (fun w => (w.spaceId, w.name, w.description, w.iconUri, w.mode, ()))
    fun (space, name, desc, uri, mode, ()) => ⟨space, name, desc, uri, mode⟩

/-- A file that the user has picked. -/
structure PickedFile where
  name : String
  contents : List UInt8
  deriving DecidableEq, Repr

inductive AlertLevel
  | success
  | error
  deriving DecidableEq, Repr

/-- What a menu entry asks its handler to do. -/
inductive Handling
  | edit (target : EditTarget)
  | copy (resource : Resource)
  | delete (resource : Resource)
  | publish (resource : Resource)
  | switchToChatflow (resource : Resource)
  | switchToWorkflow (resource : Resource)
  | custom (id : String) (resource : Resource)
  | refresh
  deriving DecidableEq, Repr

/-- What a handler answers that has nothing of its own for most actions. -/
def Handling.unsupported : Handling → Except (List String) Unit
  | .edit _ => .error ["edit is not supported"]
  | .copy r => .error [s!"copy is not supported for {r.name}"]
  | .delete r => .error [s!"delete is not supported for {r.name}"]
  | .publish r => .error [s!"publish is not supported for {r.name}"]
  | .switchToChatflow r => .error [s!"chatflow conversion is not supported for {r.name}"]
  | .switchToWorkflow r => .error [s!"workflow conversion is not supported for {r.name}"]
  | .custom id r => .error [s!"action {id} is not supported for {r.name}"]
  | .refresh => .ok ()

inductive Call
  | detail (spaceId workflowId : String)
  | create (request : NewWorkflow)
  | save (spaceId workflowId schema : String)
  | register (request : PluginMeta)
  | probe (connection : Connection)
  | pick
  | download (fileName : String) (contents : List UInt8)
  | alert (level : AlertLevel) (message : String)
  | handle (handling : Handling)
  deriving DecidableEq, Repr

/-- The replies to a call. Errors of files are texts; an error of a handler is a chain of texts,
the outermost first. -/
def Call.Reply : Call → Type
  | .detail _ _ => Except ApiError (Option Workflow.Detail)
  | .create _ => Except ApiError String
  | .save _ _ _ => Except ApiError Unit
  | .register _ => Except ApiError Unit
  | .probe _ => Except ApiError AppInfo
  | .pick => Except String (Option PickedFile)
  | .download _ _ => Except String String
  | .alert _ _ => Unit
  | .handle _ => Except (List String) Unit

/-- A conversation with the outside world. -/
abbrev Talk (α : Type) := Dialogue Call Call.Reply α

namespace Talk

/-- Makes one call. -/
def call (c : Call) : Talk c.Reply := Dialogue.call c

def detail (spaceId workflowId : String) : Talk (Except ApiError (Option Workflow.Detail)) :=
  call (.detail spaceId workflowId)

def create (request : NewWorkflow) : Talk (Except ApiError String) := call (.create request)

def save (spaceId workflowId schema : String) : Talk (Except ApiError Unit) :=
  call (.save spaceId workflowId schema)

def register (request : PluginMeta) : Talk (Except ApiError Unit) := call (.register request)

def probe (connection : Connection) : Talk (Except ApiError AppInfo) := call (.probe connection)

def pick : Talk (Except String (Option PickedFile)) := call .pick

def download (fileName : String) (contents : List UInt8) : Talk (Except String String) :=
  call (.download fileName contents)

def alert (level : AlertLevel) (message : String) : Talk Unit := call (.alert level message)

def handle (handling : Handling) : Talk (Except (List String) Unit) := call (.handle handling)

end Talk

end Workbench
