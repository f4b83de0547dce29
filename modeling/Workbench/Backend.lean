import Workbench.Call
import Workbench.Http

/-!
# The backend

The REST endpoints for workflows and plugins. Every answer is an envelope with a code, where any
code but zero is an error, a message and the data; registering a plugin needs no more than a
successful status.
-/
namespace Workbench

open Json (Codec Field Fields)
open Http (Session Failure Request Response)

/-- How to reach the backend. -/
structure BackendSettings where
  baseUrl : String
  token : Option String
  cookie : Option String
  timeoutSeconds : UInt64
  deriving DecidableEq, Repr

namespace BackendSettings

def standardTimeout : UInt64 := 30

def standard : BackendSettings := ⟨"http://localhost:8888", none, none, standardTimeout⟩

def codec : Codec BackendSettings :=
  .record "BackendConfig"
    (.cons (.required "base_url" .string) <| .cons (.optional "token" .string) <|
     .cons (.optional "cookie" .string) <|
     .cons (.default "timeout_secs" .uint64 standardTimeout) .nil)
    (fun s => (s.baseUrl, s.token, s.cookie, s.timeoutSeconds, ()))
    fun (url, token, cookie, timeout, ()) => ⟨url, token, cookie, timeout⟩

end BackendSettings

/-- The backend as its clients see it. -/
structure Backend where
  baseUrl : String
  token : Option String
  cookie : Option String
  deriving DecidableEq, Repr

namespace Backend

/-- The wrapper of every answer. -/
structure Envelope (α : Type) where
  code : Int64
  message : String
  data : Option α

def Envelope.codec {α : Type} (c : Codec α) : Codec (Envelope α) :=
  .record "Envelope"
    (.cons (.default "code" .int64 0) <| .cons (.default "msg" .string "") <|
     .cons (.nullable "data" c) .nil)
    (fun e => (e.code, e.message, e.data, ())) fun (code, message, data, ()) => ⟨code, message, data⟩

/-- The data of a workflow. -/
def canvasCodec : Codec (Option Workflow.Detail) :=
  .record "CanvasData" (.cons (.nullable "workflow" Workflow.Detail.codec) .nil) (fun w => (w, ()))
    fun (w, ()) => w

/-- The data of a new workflow: its id. -/
def createdCodec : Codec String :=
  .record "CreateData" (.cons (.required "workflow_id" .string) .nil) (fun id => (id, ()))
    fun (id, ()) => id

def detailPath : String := "/api/workflow_api/canvas"
def createPath : String := "/api/workflow_api/create"
def savePath : String := "/api/workflow_api/save"
def registerPath : String := "/api/plugin_api/register_plugin_meta"

/-- The backend that the settings describe, whatever its URL. -/
def ofSettings (s : BackendSettings) : Backend :=
  ⟨hostPrefixOf s.baseUrl, Text.nonEmpty s.token, Text.nonEmpty s.cookie⟩

/-- The backend that the settings describe, if its URL is one. -/
def connect (s : BackendSettings) : Except ApiError Backend :=
  let b := ofSettings s
  match Url.parse b.baseUrl with
  | .error e => .error (.invalidRequest s!"backend URL '{b.baseUrl}': {e.message}")
  | .ok _ => .ok b

def request (b : Backend) (path : String) (body : Json) : Except Failure Request :=
  Request.make .post (b.baseUrl ++ path) (b.token.map ("Bearer " ++ ·)) b.cookie (some body)

/-- The answer to a request, if its status says that it went well. -/
def accepted (answer : Except Failure Response) : Except ApiError Response :=
  match answer with
  | .error f => .error (.network f.message)
  | .ok r => if r.isSuccess then .ok r else .error (.status r.status r.text)

/-- The data of an answer. -/
def unwrap {α : Type} (c : Codec α) (answer : Except Failure Response) :
    Except ApiError (Option α) := do
  let r ← accepted answer
  match r.read (Envelope.codec c) with
  | .error f => throw (.decode f.message)
  | .ok e => if e.code = 0 then return e.data else throw (.backend e.code e.message)

/-- Posts a request and takes the answer apart. -/
def post {α : Type} (b : Backend) (path : String) (body : Json)
    (take : Except Failure Response → Except ApiError α) : Session (Except ApiError α) := do
  return take (← Http.exchange (b.request path body))

/-! ## Endpoints -/

def detail (b : Backend) (spaceId workflowId : String) :
    Session (Except ApiError (Option Workflow.Detail)) :=
  b.post detailPath (.obj [("space_id", .str spaceId), ("workflow_id", .str workflowId)])
    fun answer => do return (← unwrap canvasCodec answer).join

def create (b : Backend) (w : NewWorkflow) : Session (Except ApiError String) :=
  b.post createPath (NewWorkflow.codec.encode w) fun answer => do
    match Text.nonEmpty (← unwrap createdCodec answer) with
    | some id => return id
    | none => throw (.decode "create response has no workflow_id")

def save (b : Backend) (spaceId workflowId schema : String) : Session (Except ApiError Unit) :=
  b.post savePath
    (.obj [("schema", .str schema), ("space_id", .str spaceId), ("workflow_id", .str workflowId)])
    fun answer => do
      let _ ← unwrap Codec.any answer
      return ()

def register (b : Backend) (p : PluginMeta) : Session (Except ApiError Unit) :=
  b.post registerPath (PluginMeta.codec.encode p) fun answer => do
    let _ ← accepted answer
    return ()

end Backend

/-- The question to a Dify host about the app behind a connection. -/
def Connection.infoRequest (c : Connection) : Except Failure Request :=
  Request.make .get (c.baseUrl ++ "/v1/info") (some ("Bearer " ++ c.key)) none none

/-- Asks a Dify host about the app behind a connection. -/
def Connection.fetchInfo (c : Connection) : Session (Except ApiError AppInfo) := do
  match ← Http.exchange c.infoRequest with
  | .error f => return .error (.network f.message)
  | .ok r =>
    if r.isSuccess then
      return (r.read AppInfo.codec).mapError fun f => .decode f.message
    else
      return .error (.status r.status s!"Dify info endpoint returned {Http.statusText r.status}")

end Workbench
