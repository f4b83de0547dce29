import Workbench.Apps.Error
import Workbench.Apps.Scan

/-!
# The page for apps

The session behind the page on which an administrator connects to a host, scans it, chooses apps and
registers them. Each operation yields the page as it is afterwards and its result.

* A scan replaces the apps that were found before; a choice that is no longer among them is dropped.
* The chosen apps keep the order in which they were chosen.
* Whatever has been registered joins the imported apps, also when a later app was refused.
-/
namespace Workbench

open Json (Codec Choice)

inductive PageState
  | idle
  | scanning
  | scanned
  | registering
  | registered
  deriving DecidableEq, Repr

namespace PageState

def all : List PageState := [.idle, .scanning, .scanned, .registering, .registered]

def name : PageState → String
  | .idle => "idle"
  | .scanning => "scanning"
  | .scanned => "scanned"
  | .registering => "registering"
  | .registered => "registered"

def codec : Codec PageState := (Choice.ofNames all name none).codec

end PageState

/-- A list of ids after one of them has been switched on or off: an id that is there is taken out,
any other is put at the end. -/
def toggleId (id : String) (ids : List String) : List String :=
  if ids.contains id then ids.erase id else ids ++ [id]

structure Page where
  connection : Connection
  state : PageState
  scanned : List App
  selected : List String
  imported : List ImportedApp
  deriving DecidableEq, Repr

namespace Page

def start (c : Connection) : Page := ⟨c, .idle, [], [], []⟩

def setConnection (p : Page) (c : Connection) : Page := { p with connection := c }

/-- The state after a scan that found `apps`. -/
def stateAfterScan (p : Page) (apps : List App) : PageState :=
  if apps.isEmpty then (if p.state = .registered then .registered else .idle) else .scanned

/-- The page after a scan that found `apps`. -/
def withScanned (p : Page) (apps : List App) : Page :=
  { p with
    scanned := apps
    selected := p.selected.filter fun id => apps.any (·.id == id)
    state := p.stateAfterScan apps }

/-- Scans the connection; the result is the list of apps. -/
def scan (p : Page) (scanner : Scanner) : Talk (Page × Except AppsError (List App)) := do
  match p.connection.validate with
  | .error e => return (p, .error e)
  | .ok () =>
    let apps ← scanner p.connection
    return (p.withScanned apps, .ok apps)

/-- Chooses an app or not; the result says whether it is chosen now. -/
def toggle (p : Page) (id : String) : Page × Except AppsError Bool :=
  if p.scanned.any (·.id == id) then
    ({ p with selected := toggleId id p.selected }, .ok (!p.selected.contains id))
  else (p, .error (.unknownApp id))

/-- The chosen apps in the order in which they were chosen. -/
def selectedApps (p : Page) : List App :=
  p.selected.filterMap fun id => p.scanned.find? (·.id == id)

/-- The entries of the ledger for the apps that a report has as registered. -/
def ledger (report : RegistrationReport) (now : Int64) : List ImportedApp :=
  report.succeeded.map fun app => ⟨app, app.name, now⟩

/-- The page after a batch. -/
def withReport (p : Page) (report : RegistrationReport) (now : Int64) : Page :=
  { p with
    imported := p.imported ++ ledger report now
    selected := if report.isSuccess then [] else p.selected
    state := if report.isSuccess then .registered else .scanned }

/-- Registers the chosen apps at the time `now`. -/
def register (p : Page) (registrar : Registrar) (now : Int64) :
    Talk (Page × Except AppsError RegistrationReport) := do
  match p.connection.validate with
  | .error e => return (p, .error e)
  | .ok () =>
    match RegistrationPlan.ofApps? p.selectedApps with
    | none => return (p, .error .emptySelection)
    | some plan =>
      let report ← registrar.run p.connection plan
      return (p.withReport report now,
        if report.isSuccess then .ok report else .error (.batchFailed report))

end Page

end Workbench
