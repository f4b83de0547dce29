import Workbench.Cli.Arguments

/-!
# Invocations

The commands of the program with their parameters, and what a line of arguments asks for.
-/
namespace Workbench.Cli

def programName : String := "flowdesk"

def versionText : String := "flowdesk 0.4.0\n"

inductive Format
  | text
  | json
  deriving DecidableEq, Repr

/-- How to reach a Dify host. -/
structure HostArguments where
  host : Option String
  apiKey : Option String
  offline : Bool
  deriving DecidableEq, Repr

/-- Where a list of apps comes from. -/
inductive ListSource
  | url (url : String)
  | file (path : String)
  | text (text : String)
  deriving DecidableEq, Repr

structure ImportArguments where
  source : ListSource
  apiKey : Option String
  offline : Bool
  select : List String
  register : Bool
  spaceId : Option String
  deriving DecidableEq, Repr

inductive Command
  | completions (shell : String)
  | showMenu (record : String) (userId : Option String)
  | runAction (action record : String) (userId file outDir : Option String)
  | exportWorkflow (id : String) (spaceId : Option String) (name : String) (outDir : Option String)
  | importWorkflow (file : String) (spaceId : Option String)
  | scanHost (host : HostArguments)
  | registerApps (host : HostArguments) (apps : List String) (spaceId : Option String) (check : Bool)
  | importApps (arguments : ImportArguments)
  | showSettings
  | settingsPath
  | initSettings (force : Bool)
  deriving DecidableEq, Repr

structure Invocation where
  settingsPath : Option String
  backendUrl : Option String
  token : Option String
  verbose : Bool
  format : Format
  command : Command
  deriving DecidableEq, Repr

/-! ## The commands -/

open Parameter (option switch place)

def globals : List Parameter := [
  { option "config" "config" "CONFIG" .path with environment := some "FLOWDESK_CONFIG" },
  { option "backend_url" "backend-url" "BACKEND_URL" .text with
    environment := some "FLOWDESK_BACKEND_URL" },
  { option "token" "token" "TOKEN" .text with environment := some "FLOWDESK_TOKEN" },
  { switch "verbose" "verbose" with short := some 'v' },
  { option "format" "format" "FORMAT" (.oneOf ["text", "json"]) with fallback := some "text" }]

def spaceParameter : Parameter := option "space_id" "space-id" "SPACE_ID" .text

def outDirParameter : Parameter := option "out_dir" "out-dir" "OUT_DIR" .path

def keyParameter : Parameter :=
  { option "api_key" "api-key" "API_KEY" .text with environment := some "DIFY_API_KEY" }

def offlineParameter : Parameter := switch "offline" "offline"

def viewerParameters : List Parameter := [
  { option "record" "record" "RECORD" .path with short := some 'r', required := true },
  option "user_id" "user-id" "USER_ID" .text]

def hostParameters : List Parameter := [
  { option "host" "host" "HOST" .text with environment := some "DIFY_HOST" },
  keyParameter, offlineParameter]

/-- A command that does something. -/
def leaf (name about : String) (parameters : List Parameter) (alternatives : List String) :
    CommandSpec :=
  ⟨name, about, parameters ++ globals, alternatives, []⟩

/-- A command that groups others. -/
def group (name about : String) (subcommands : List CommandSpec) : CommandSpec :=
  ⟨name, about, globals, [], subcommands⟩

def completionsSpec : CommandSpec :=
  leaf "completions" "Generate shell completions"
    [place "shell" "SHELL" (.oneOf ["bash", "elvish", "fish", "powershell", "zsh"])] []

def menuSpec : CommandSpec := group "menu" "Resource row menu" [
  leaf "show" "Show the row actions for a resource" viewerParameters [],
  leaf "run" "Run one row action for a resource"
    ([place "action" "ACTION" .text] ++ viewerParameters ++
      [option "file" "file" "FILE" .path, outDirParameter]) []]

def workflowSpec : CommandSpec := group "workflow" "Workflow export and import" [
  leaf "export" "Download a workflow as an export document"
    [place "id" "ID" .text, spaceParameter,
     { option "name" "name" "NAME" .text with fallback := some "workflow" }, outDirParameter] [],
  leaf "import" "Create a workflow from an export document"
    [place "file" "FILE" .path, spaceParameter] []]

def appsSpec : CommandSpec := group "dify" "Dify app discovery and plugin registration" [
  leaf "scan" "List the candidate app for the configured host and key" hostParameters [],
  leaf "register" "Scan, select and register apps as backend plugins"
    (hostParameters ++
      [{ option "apps" "app" "APPS" .text with repeatable := true }, spaceParameter,
       switch "check" "check"]) [],
  leaf "import" "Load an app list from a host, a file or pasted JSON"
    [option "url" "url" "URL" .text, option "file" "file" "FILE" .path,
     option "text" "text" "TEXT" .text, keyParameter, offlineParameter,
     { option "select" "select" "SELECT" .text with repeatable := true },
     switch "register" "register", spaceParameter]
    ["url", "file", "text"]]

def settingsSpec : CommandSpec := group "config" "Configuration" [
  leaf "show" "Print the effective configuration" [] [],
  leaf "path" "Print the config file path" [] [],
  leaf "init" "Write a default config file" [switch "force" "force"] []]

def program : CommandSpec :=
  group programName "FlowDesk - workflow resource menus, export/import and Dify registration"
    [completionsSpec, menuSpec, workflowSpec, appsSpec, settingsSpec]

/-! ## From a reading to an invocation -/

def Reading.host (r : Reading) : HostArguments :=
  ⟨r.get? "host", r.get? "api_key", r.isOn "offline"⟩

def Reading.source (r : Reading) : ListSource :=
  match r.get? "url", r.get? "file" with
  | some u, _ => .url u
  | none, some f => .file f
  | none, none => .text (r.get "text")

/-- The command that the names lead to. -/
def Reading.command? (r : Reading) : Option Command :=
  match r.command with
  | ["completions"] => some (.completions (r.get "shell"))
  | ["menu", "show"] => some (.showMenu (r.get "record") (r.get? "user_id"))
  | ["menu", "run"] =>
    some (.runAction (r.get "action") (r.get "record") (r.get? "user_id") (r.get? "file")
      (r.get? "out_dir"))
  | ["workflow", "export"] =>
    some (.exportWorkflow (r.get "id") (r.get? "space_id") (r.get "name") (r.get? "out_dir"))
  | ["workflow", "import"] => some (.importWorkflow (r.get "file") (r.get? "space_id"))
  | ["dify", "scan"] => some (.scanHost r.host)
  | ["dify", "register"] =>
    some (.registerApps r.host (r.all "apps") (r.get? "space_id") (r.isOn "check"))
  | ["dify", "import"] =>
    some (.importApps ⟨r.source, r.get? "api_key", r.isOn "offline", r.all "select",
      r.isOn "register", r.get? "space_id"⟩)
  | ["config", "show"] => some .showSettings
  | ["config", "path"] => some .settingsPath
  | ["config", "init"] => some (.initSettings (r.isOn "force"))
  | _ => none

/-- What a line of arguments asks for. -/
def Invocation.parse (env : String → Option String) (arguments : List String) :
    Except Halt Invocation := do
  let r ← readArguments env (some versionText) programName program (Progress.start program) arguments
  match r.command? with
  | none => Halt.fail (.nothingGiven program.about)
  | some command =>
    return ⟨r.get? "config", r.get? "backend_url", r.get? "token", r.isOn "verbose",
      if r.get "format" = "json" then .json else .text, command⟩

end Workbench.Cli
