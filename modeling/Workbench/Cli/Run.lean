import Workbench.Cli.Error
import Workbench.Cli.Invocation
import Workbench.Cli.Session
import Workbench.Table

/-!
# Running the command line

Each command is a session that may fail. A result goes to the standard output, as JSON or for
reading; alerts and errors go to the error output. The exit status is 0 after a success, 1 after an
error, and 2 if the arguments make no sense.
-/
namespace Workbench.Cli

/-- A session that may fail. -/
abbrev Job (α : Type) := ExceptT Error (Dialogue Call Call.Reply) α

namespace Job

def of {α : Type} (s : Session α) : Job α := ExceptT.lift s

def print (text : String) : Job Unit := of (Session.print text)

def printLine (text : String) : Job Unit := print (text ++ "\n")

def printJson (v : Json) : Job Unit := printLine (Json.pretty v)

/-- Goes on with what has been got, or stops with the error that `wrap` makes. -/
def get {ε α : Type} (wrap : ε → Error) (r : Except ε α) : Job α :=
  match r with
  | .ok a => return a
  | .error e => throw (wrap e)

end Job

open Job (printLine printJson)

/-! ## What commands share -/

/-- The backend is one that can be called. -/
def checkBackend (s : Settings) : Job Unit := do
  let _ ← Job.get (.invalidBackend s.backend.baseUrl) (Backend.connect s.backend)

/-- The space from the line or else from the settings. -/
def requireSpace (s : Settings) (spaceId : Option String) : Job String :=
  match spaceId.or s.user.spaceId with
  | some id => if Text.isBlankText id then throw .noSpace else return id
  | none => throw .noSpace

def loadRecord (path : String) : Job Resource := do
  let contents ← Job.get (.unreadable path) (← Job.of (Session.ofFiles (Files.read path)))
  Job.get (.notARecord path) (Resource.codec.parse contents)

/-- What stands behind conversations, with a file to pick and a directory for downloads. -/
def surroundings (s : Settings) (pickPath outDir : Option String) : Surroundings :=
  ⟨Backend.ofSettings s.backend, pickPath, outDir.getD s.downloadDir⟩

def talk {α : Type} (s : Settings) (t : Talk α) : Job α :=
  Job.of (converse (surroundings s none none) t)

def viewer (s : Settings) (userId : Option String) : Viewer :=
  ⟨(userId.or s.user.id).getD "", s.flags⟩

/-! ## Menus -/

def yesNo (b : Bool) : String := if b then "yes" else "no"

def menuTable (m : Menu) : Table where
  header := ["Action", "Label", "Visible", "Enabled"]
  rows := m.entries.map fun e => [e.action.id, e.label, yesNo e.visible, yesNo e.enabled]

def showMenu (s : Settings) (format : Format) (record : String) (userId : Option String) :
    Job Unit := do
  let r ← loadRecord record
  let menu := Menu.build r (viewer s userId) Menu.noHook
  match format with
  | .json => printJson (Menu.codec.encode menu)
  | .text =>
    let id := r.id.getD "no id"
    printLine s!"{r.name} ({id})"
    printLine (menuTable menu).render

/-- What came of an action, with the workflow that an editor would open. -/
structure ActionResult where
  action : Action
  edit : Option EditTarget
  exportedTo : Option String
  workflowId : Option String

def ActionResult.toJson (a : ActionResult) : Json :=
  let member (name : String) (v : Option Json) := v.toList.map fun v => (name, v)
  .obj (("action", .str a.action.id) ::
    (member "edit" (a.edit.map EditTarget.codec.encode) ++
      member "exported_to" (a.exportedTo.map .str) ++ member "workflow_id" (a.workflowId.map .str)))

def ActionResult.lines (a : ActionResult) : List String :=
  match a.edit, a.exportedTo, a.workflowId with
  | some e, _, _ =>
    [s!"Edit workflow {e.workflowId} in space {e.spaceId}", s!"Name:        {e.name}",
     s!"Description: {e.description}", s!"Mode:        {e.mode.name}"]
  | none, some path, _ => [s!"Exported to {path}"]
  | none, none, some id => [s!"Created workflow {id}"]
  | none, none, none => [s!"{a.action.id} done"]

/-- The result of an action, or why there is none. -/
def actionResult (action : Action) (r : Resource) : Outcome → Job ActionResult
  | .handled => return ⟨action, if action = .edit then EditTarget.of? r else none, none, none⟩
  | .exported (some path) => return ⟨action, none, some path, none⟩
  | .exported none => throw (.nothingExported none)
  | .imported (some id) => return ⟨action, none, none, some id⟩
  | .imported none => throw .nothingImported

def runAction (s : Settings) (format : Format) (now : Instant) (word record : String)
    (userId file outDir : Option String) : Job Unit := do
  let action := Action.parse word
  if action = .transferIn ∧ file.isNone then throw .noDocument
  let r ← loadRecord record
  checkBackend s
  let outcome ← Job.of (converse (surroundings s file outDir)
    (dispatch (viewer s userId) Menu.noHook now action r))
  let result ← actionResult action r (← Job.get .dispatch outcome)
  match format with
  | .json => printJson result.toJson
  | .text => for line in result.lines do printLine line

/-! ## Workflows -/

def exportTo (s : Settings) (format : Format) (now : Instant) (id : String)
    (spaceId : Option String) (name : String) (outDir : Option String) : Job Unit := do
  let spaceId ← requireSpace s spaceId
  checkBackend s
  let r := { Resource.empty with id := some id, spaceId := some spaceId, name := name }
  match ← Job.of (converse (surroundings s none outDir) (exportWorkflow r s.user.id now)) with
  | none => throw (.nothingExported (some id))
  | some path =>
    match format with
    | .json => printJson (.obj [("path", .str path), ("workflow_id", .str id)])
    | .text => printLine s!"Exported workflow {id} to {path}"

def importFrom (s : Settings) (format : Format) (now : Instant) (file : String)
    (spaceId : Option String) : Job Unit := do
  let spaceId ← requireSpace s spaceId
  checkBackend s
  match ← Job.of (converse (surroundings s (some file) none) (importWorkflow spaceId now.civil)) with
  | none => throw .nothingImported
  | some created =>
    match format with
    | .json => printJson (.obj [("space_id", .str spaceId), ("workflow_id", .str created)])
    | .text => printLine s!"Created workflow {created} in space {spaceId}"

/-! ## Apps -/

def scanner (s : Settings) (offline : Bool) : Scanner :=
  if offline then Scanner.offline
  else
    match s.host.scanMode with
    | .probe => Scanner.probing AppKind.ofKey
    | .mock => Scanner.offline

def maskLength : Nat := 8

/-- As much of an app id as a table shows, since it is a key. -/
def masked (id : String) : String :=
  if maskLength < id.length then String.ofList (id.toList.take maskLength) ++ "…" else id

def appsTable (apps : List App) : Table where
  header := ["ID", "Name", "Type", "Endpoint"]
  rows := apps.map fun a => [masked a.id, a.name, a.kind.name, a.endpoint.getD "-"]

def printApps (format : Format) (apps : List App) : Job Unit :=
  match format with
  | .json => printJson (App.codec.list.encode apps)
  | .text => if apps.isEmpty then printLine "No apps found." else printLine (appsTable apps).render

def statusText : TaskStatus → String
  | .pending => "pending"
  | .registered => "registered"
  | .failed reason => "failed: " ++ reason
  | .skipped => "skipped"

def reportTable (r : RegistrationReport) : Table where
  header := ["App", "Type", "Status"]
  rows := r.tasks.map fun t => [t.app.name, t.app.kind.name, statusText t.status]

def printReport (format : Format) (r : RegistrationReport) : Job Unit := do
  match format with
  | .json => printJson (RegistrationReport.codec.encode r)
  | .text =>
    printLine (reportTable r).render
    printLine r.summary

/-- The registrar, once the backend has been checked. -/
def registrar (s : Settings) (spaceId : Option String) (check : Bool) : Job Registrar := do
  checkBackend s
  return ⟨check, spaceId.or s.user.spaceId⟩

/-- The page after a scan of the host. -/
def scannedPage (s : Settings) (h : HostArguments) : Job Page := do
  let (page, result) ←
    talk s ((Page.start (s.connection h.host h.apiKey)).scan (scanner s h.offline))
  let _ ← Job.get .apps result
  return page

def scanHost (s : Settings) (format : Format) (h : HostArguments) : Job Unit := do
  printApps format (← scannedPage s h).scanned

/-- The page with these ids chosen one after the other. -/
def toggleAll (p : Page) : List String → Except AppsError Page
  | [] => .ok p
  | id :: rest =>
    match p.toggle id with
    | (p, .ok _) => toggleAll p rest
    | (_, .error e) => .error e

/-- Milliseconds since the start of 1970. -/
def milliseconds (t : Instant) : Int64 := Int64.ofInt (t.seconds * 1000 + t.nanos / nanosPerMilli)

def registerApps (s : Settings) (format : Format) (now : Instant) (h : HostArguments)
    (apps : List String) (spaceId : Option String) (check : Bool) : Job Unit := do
  let page ← scannedPage s h
  let chosen := if apps.isEmpty then page.scanned.map (·.id) else apps
  let page ← Job.get .apps (toggleAll page chosen)
  let registrar ← registrar s spaceId check
  let (_, result) ← talk s (page.register registrar (milliseconds now))
  match result with
  | .ok report => printReport format report
  | .error (.batchFailed report) =>
    printReport format report
    throw (.apps (.batchFailed report))
  | .error e => throw (.apps e)

/-- The dialog with its list loaded. -/
def loadedDialog (s : Settings) (a : ImportArguments) : Job ImportDialog := do
  let (dialog, result) ←
    match a.source with
    | .url url =>
      talk s (ImportDialog.empty.scanUrl (scanner s a.offline) (s.connection (some url) a.apiKey))
    | .file path => do
      let contents ← Job.get (.unreadable path) (← Job.of (Session.ofFiles (Files.read path)))
      pure (ImportDialog.empty.loadFile contents)
    | .text text => pure (ImportDialog.empty.loadText text)
  let _ ← Job.get .apps result
  return dialog

/-- The dialog with these ids chosen one after the other. -/
def selectEach (d : ImportDialog) : List String → Except AppsError ImportDialog
  | [] => .ok d
  | id :: rest =>
    match d.toggle id with
    | (d, .ok _) => selectEach d rest
    | (_, .error e) => .error e

/-- The host that a list came from, if it came from one. -/
def ListSource.url? : ListSource → Option String
  | .url u => some u
  | _ => none

/-- Registers a list of apps. -/
def registerList (s : Settings) (format : Format) (a : ImportArguments) (apps : List App) :
    Job Unit := do
  let connection := s.connection a.source.url? a.apiKey
  let () ← Job.get .apps connection.validate
  match RegistrationPlan.ofApps? apps with
  | none => throw (.apps .emptySelection)
  | some plan =>
    let registrar ← registrar s a.spaceId false
    let report ← talk s (registrar.run connection plan)
    printReport format report
    if report.isSuccess then return () else throw (.apps (.batchFailed report))

def importApps (s : Settings) (format : Format) (a : ImportArguments) : Job Unit := do
  let dialog ← loadedDialog s a
  let dialog ←
    if a.select.isEmpty then pure dialog.selectAll else Job.get .apps (selectEach dialog a.select)
  let apps ← Job.get .apps dialog.commit.2
  if a.register then registerList s format a apps else printApps format apps

/-! ## Settings -/

/-- The place for the settings if none is named. -/
def standardPath (env : String → Option String) : Option String :=
  let inDir (dir : String) := Files.joinPath (Files.joinPath dir "flowdesk") "config.toml"
  match (env "XDG_CONFIG_HOME").filter (·.startsWith "/") with
  | some dir => some (inDir dir)
  | none => ((env "HOME").filter (· ≠ "")).map fun home => inDir (Files.joinPath home ".config")

/-- The settings at a path; the standard ones if they cannot be read. -/
def loadSettings (path : Option String) : Session Settings := do
  match path with
  | none => return .standard
  | some path =>
    if ← Session.ofFiles (Files.doesExist path) then
      match ← Session.ofFiles (Files.read path) with
      | .ok contents => return .ofFile contents
      | .error _ => return .standard
    else return .standard

def showSettings (s : Settings) (format : Format) : Job Unit :=
  match format with
  | .json => printJson (Settings.codec.encode s.redacted)
  | .text => Job.print s.redacted.toToml

def settingsPath (path : Option String) (format : Format) : Job Unit := do
  match path with
  | none => throw .noSettingsPath
  | some path =>
    match format with
    | .json =>
      let isThere ← Job.of (Session.ofFiles (Files.doesExist path))
      printJson (.obj [("exists", .bool isThere), ("path", .str path)])
    | .text => printLine path

/-- Writes settings, and makes the directory for them. -/
def saveSettings (s : Settings) (path : String) : Job Unit := do
  match (Files.Path.parse path).parent? with
  | none => pure ()
  | some dir =>
    Job.get (.uncreatable dir.text) (← Job.of (Session.ofFiles (Files.makeDirectories dir.text)))
  Job.get (.unwritable path)
    (← Job.of (Session.ofFiles (Files.write path (Text.bytes s.toToml))))

def initSettings (path : Option String) (force : Bool) : Job Unit := do
  match path with
  | none => throw .noSettingsPath
  | some path =>
    if (← Job.of (Session.ofFiles (Files.doesExist path))) && !force then
      throw (.settingsExist path)
    saveSettings .standard path
    printLine s!"Wrote default config to {path}"

/-! ## The program -/

/-- Carries out a command. Making completion scripts is left to the shell's own tools. -/
def execute (s : Settings) (path : Option String) (now : Instant) (i : Invocation) : Job Unit :=
  match i.command with
  | .completions _ => return ()
  | .showMenu record userId => showMenu s i.format record userId
  | .runAction word record userId file outDir =>
    runAction s i.format now word record userId file outDir
  | .exportWorkflow id spaceId name outDir => exportTo s i.format now id spaceId name outDir
  | .importWorkflow file spaceId => importFrom s i.format now file spaceId
  | .scanHost h => scanHost s i.format h
  | .registerApps h apps spaceId check => registerApps s i.format now h apps spaceId check
  | .importApps a => importApps s i.format a
  | .showSettings => showSettings s i.format
  | .settingsPath => settingsPath path i.format
  | .initSettings force => initSettings path force

/-- Runs the program in an environment, at a time, with arguments; the exit status. -/
def run (env : String → Option String) (now : Instant) (arguments : List String) :
    Session Nat := do
  match Invocation.parse env arguments with
  | .error (.answered text) =>
    Session.print text
    return 0
  | .error (.refused e) =>
    Session.notify (e.message ++ "\n")
    return 2
  | .ok i =>
    let path := i.settingsPath.or (standardPath env)
    let settings := (← loadSettings path).withBackend i.backendUrl i.token
    match ← (execute settings path now i).run with
    | .ok () => return 0
    | .error e =>
      Session.notify e.text
      return 1

end Workbench.Cli
