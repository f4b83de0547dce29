import Workbench.Apps.ImportDialog
import Workbench.Backend
import Workbench.Cli.Settings
import Workbench.Dispatch
import Workbench.Files

/-!
# Sessions of the command line

What the command line asks of the outside world: files, HTTP exchanges, and to write on the standard
output or the error output. `converse` carries out a conversation of the library on these terms.
-/
namespace Workbench.Cli

inductive Call
  | files (call : Files.Call)
  | exchange (request : Http.Request)
  /-- Writes on the standard output. -/
  | print (text : String)
  /-- Writes on the error output. -/
  | notify (text : String)
  deriving DecidableEq, Repr

def Call.Reply : Call → Type
  | .files c => c.Reply
  | .exchange _ => Option Http.Response
  | .print _ => Unit
  | .notify _ => Unit

abbrev Session (α : Type) := Dialogue Call Call.Reply α

namespace Session

def call (c : Call) : Session c.Reply := Dialogue.call c

def print (text : String) : Session Unit := call (.print text)

def notify (text : String) : Session Unit := call (.notify text)

def ofFiles {α : Type} (s : Files.Session α) : Session α :=
  s.relay fun c => call (.files c)

def ofHttp {α : Type} (s : Http.Session α) : Session α :=
  s.relay fun r => call (.exchange r)

end Session

/-- What stands behind the calls of a conversation. -/
structure Surroundings where
  backend : Backend
  pickPath : Option String
  downloadDir : String

/-- How an alert begins. -/
def alertMark : AlertLevel → String
  | .success => "✓"
  | .error => "✗"

/-- The command line can show what an editor would open; it has no handlers beyond that. -/
def handle : Handling → Except (List String) Unit
  | .edit _ => .ok ()
  | h => h.unsupported

/-- The reply to a call. -/
def answer (s : Surroundings) : (c : Workbench.Call) → Session c.Reply
  | .detail spaceId workflowId => Session.ofHttp (s.backend.detail spaceId workflowId)
  | .create request => Session.ofHttp (s.backend.create request)
  | .save spaceId workflowId schema => Session.ofHttp (s.backend.save spaceId workflowId schema)
  | .register request => Session.ofHttp (s.backend.register request)
  | .probe connection => Session.ofHttp connection.fetchInfo
  | .pick => do return (← Session.ofFiles (Files.pick s.pickPath)).mapError FileError.message
  | .download fileName contents => do
    return (← Session.ofFiles (Files.save s.downloadDir fileName contents)).mapError
      FileError.message
  | .alert level message => Session.notify (alertMark level ++ " " ++ message ++ "\n")
  | .handle handling => .done (handle handling)

/-- Carries out a conversation. -/
def converse {α : Type} (s : Surroundings) (t : Talk α) : Session α := t.relay (answer s)

end Workbench.Cli
