import Workbench.Call

/-!
# Scanning for apps

An API key gives access to one app, so a scan of a connection yields one app, whose id is the key.
Its name is what the host calls it or, if the host cannot be asked or does not say, a name made from
the beginning of the key.
-/
namespace Workbench

open Json (Codec Choice)

/-- How the command line scans: by asking the host, or without any network. -/
inductive ScanMode
  | probe
  | mock
  deriving DecidableEq, Repr

namespace ScanMode

def all : List ScanMode := [.probe, .mock]

def name : ScanMode → String
  | .probe => "probe"
  | .mock => "mock"

def codec : Codec ScanMode := (Choice.ofNames all name none).codec

end ScanMode

/-- How much of a key a name shows. -/
def shownKeyLength : Nat := 12

/-- A name for the app behind a key. -/
def synthesizedName (apiKey : String) : String :=
  let key := (Text.trim apiKey).toList
  let shown := String.ofList (key.take shownKeyLength)
  if shownKeyLength < key.length then s!"Dify App ({shown}…)" else s!"Dify App ({shown})"

/-- How the kind of an app follows from its key. -/
abbrev Inference := String → AppKind

/-- The app behind a connection, under the given name. -/
def Connection.candidate (c : Connection) (infer : Inference) (name description : String) : App :=
  let app : App := ⟨c.key, name, description, infer c.key, none⟩
  { app with endpoint := some (app.invocationUrl c.baseUrl) }

abbrev Scanner := Connection → Talk (List App)

namespace Scanner

/-- Asks the host for the name. -/
def probing (infer : Inference) : Scanner := fun c => do
  let (name, description) :=
    match ← Talk.probe c with
    | .ok info =>
      if Text.isBlankText info.name then (synthesizedName c.key, "")
      else (info.name, info.description)
    | .error _ => (synthesizedName c.key, "")
  return [c.candidate infer name description]

/-- Makes the name up. -/
def offline : Scanner := fun c =>
  return [c.candidate AppKind.ofKey (synthesizedName c.key) s!"Application on {c.baseUrl}"]

/-- Finds the given apps, whatever the connection. -/
def fixed (apps : List App) : Scanner := fun _ => return apps

end Scanner

end Workbench
