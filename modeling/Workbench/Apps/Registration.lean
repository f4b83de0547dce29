import Workbench.Call

/-!
# Registering apps as plugins

A plan is a non-empty list of apps. The registrar asks the backend for one app after the other and
stops at the first refusal: what has been registered stays registered, the refused app carries the
reason, and the rest is skipped. If it is told to, the registrar looks at the host before each
request; what it sees there changes nothing.
-/
namespace Workbench

open Json (Codec Field Fields Choice Variant)

/-! ## Requests -/

namespace PluginMeta

/-- The user agent with which a plugin calls its app. -/
def pluginUserAgent : String := "Dify-Plugin/1.0"

/-- What a plugin does for its users, if the app does not say. -/
def describe (app : App) (c : Connection) : String :=
  if Text.isBlankText app.description then
    s!"Dify {app.kind.name} app imported from {c.baseUrl}"
  else app.description

/-- The URL that a plugin calls: the app's own one or else that of its kind. -/
def target (app : App) (c : Connection) : String :=
  match (app.endpoint.map Text.trim).filter (· != "") with
  | some url => url
  | none => app.invocationUrl c.baseUrl

/-- The request for the plugin of an app. -/
def ofApp (app : App) (c : Connection) (spaceId : Option String) : PluginMeta where
  name := app.name
  description := describe app c
  url := target app c
  icon := ⟨""⟩
  pluginType := 1
  creationMethod := 1
  authType := [1]
  subAuthType := 0
  location := 1
  key := "Authorization"
  serviceToken := "Bearer " ++ c.key
  commonParams := [("4", [⟨"User-Agent", pluginUserAgent⟩])]
  spaceId := spaceId

end PluginMeta

/-! ## Tasks and reports -/

inductive TaskStatus
  | pending
  | registered
  | failed (reason : String)
  /-- Not tried, because an earlier app was refused. -/
  | skipped
  deriving DecidableEq, Repr

def TaskStatus.codec : Codec TaskStatus :=
  let choice : Choice TaskStatus :=
    { variants :=
        [.plain "pending" .pending, .plain "registered" .registered, .text "failed" .failed,
         .plain "skipped" .skipped]
      other := none
      encode := fun
        | .pending => .str "pending"
        | .registered => .str "registered"
        | .failed reason => .obj [("failed", .str reason)]
        | .skipped => .str "skipped" }
  choice.codec

structure RegistrationTask where
  app : App
  status : TaskStatus
  deriving DecidableEq, Repr

def RegistrationTask.codec : Codec RegistrationTask :=
  .record "RegistrationTask"
    (.cons (.required "app" App.codec) <| .cons (.required "status" TaskStatus.codec) .nil)
    (fun t => (t.app, t.status, ())) fun (app, status, ()) => ⟨app, status⟩

/-- The apps to register, in this order. -/
structure RegistrationPlan where
  apps : List App
  apps_ne_nil : apps ≠ []

namespace RegistrationPlan

def ofApps? (apps : List App) : Option RegistrationPlan :=
  if h : apps = [] then none else some ⟨apps, h⟩

def tasks (p : RegistrationPlan) : List RegistrationTask := p.apps.map fun a => ⟨a, .pending⟩

end RegistrationPlan

/-- What became of each app of a plan. -/
structure RegistrationReport where
  tasks : List RegistrationTask
  deriving DecidableEq, Repr

namespace RegistrationReport

def codec : Codec RegistrationReport :=
  .record "RegistrationReport" (.cons (.required "tasks" RegistrationTask.codec.list) .nil)
    (fun r => (r.tasks, ())) fun (tasks, ()) => ⟨tasks⟩

def isSuccess (r : RegistrationReport) : Bool := r.tasks.all (·.status == .registered)

/-- The apps that were registered. -/
def succeeded (r : RegistrationReport) : List App :=
  (r.tasks.filter (·.status == .registered)).map (·.app)

/-- The app that was refused first, and why. -/
def failed? (r : RegistrationReport) : Option (App × String) :=
  r.tasks.findSome? fun t =>
    match t.status with
    | .failed reason => some (t.app, reason)
    | _ => none

def summary (r : RegistrationReport) : String :=
  let registered := r.succeeded.length
  match r.failed? with
  | some (_, reason) =>
    s!"Registration failed after {registered} of {r.tasks.length} apps: {reason}"
  | none => s!"Registered {registered} apps"

end RegistrationReport

/-! ## Running a plan -/

structure Registrar where
  /-- Look at the host before each request. -/
  checksHost : Bool
  spaceId : Option String
  deriving DecidableEq, Repr

namespace Registrar

/-- Why an app was refused. -/
def refusal (app : App) (e : ApiError) : String := s!"failed to register '{app.name}': {e.message}"

def checkHost (r : Registrar) (c : Connection) : Talk Unit := do
  if r.checksHost then let _ ← Talk.probe c

def registerAll (r : Registrar) (c : Connection) : List App → Talk (List RegistrationTask)
  | [] => return []
  | app :: rest => do
    r.checkHost c
    match ← Talk.register (PluginMeta.ofApp app c r.spaceId) with
    | .ok () => return ⟨app, .registered⟩ :: (← registerAll r c rest)
    | .error e => return ⟨app, .failed (refusal app e)⟩ :: rest.map fun a => ⟨a, .skipped⟩

def run (r : Registrar) (c : Connection) (plan : RegistrationPlan) : Talk RegistrationReport := do
  return ⟨← r.registerAll c plan.apps⟩

end Registrar

end Workbench
