import Workbench.Apps.Scan
import Workbench.Backend
import Workbench.Menu
import Workbench.Toml.Reader
import Workbench.Toml.Writer

/-!
# Settings of the command line

The settings come from a TOML file. A file that is missing, is no TOML or has a value of the wrong
type counts as empty. `redacted` hides the secrets before settings are shown.
-/
namespace Workbench.Cli

open Json (Codec Field Fields)

/-- Who uses the command line. -/
structure UserSettings where
  id : Option String
  spaceId : Option String
  deriving DecidableEq, Repr

def UserSettings.codec : Codec UserSettings :=
  .record "UserConfig"
    (.cons (.nullable "id" .string) <| .cons (.nullable "space_id" .string) .nil)
    (fun u => (u.id, u.spaceId, ())) fun (id, space, ()) => ⟨id, space⟩

structure HostSettings where
  host : Option String
  apiKey : Option String
  scanMode : ScanMode
  deriving DecidableEq, Repr

def HostSettings.codec : Codec HostSettings :=
  .record "DifySection"
    (.cons (.nullable "host" .string) <| .cons (.nullable "api_key" .string) <|
     .cons (.default "scan_mode" ScanMode.codec .probe) .nil)
    (fun h => (h.host, h.apiKey, h.scanMode, ())) fun (host, key, mode, ()) => ⟨host, key, mode⟩

structure Settings where
  exportDir : Option String
  backend : BackendSettings
  user : UserSettings
  flags : Flags
  host : HostSettings
  deriving DecidableEq, Repr

namespace Settings

def standard : Settings :=
  ⟨none, .standard, ⟨none, none⟩, .standard, ⟨none, none, .probe⟩⟩

def codec : Codec Settings :=
  .record "CliConfig"
    (.cons (.optional "export_dir" .string) <|
     .cons (.default "backend" BackendSettings.codec .standard) <|
     .cons (.default "user" UserSettings.codec standard.user) <|
     .cons (.default "flags" Flags.codec .standard) <|
     .cons (.default "dify" HostSettings.codec standard.host) .nil)
    (fun s => (s.exportDir, s.backend, s.user, s.flags, s.host, ()))
    fun (dir, backend, user, flags, host, ()) => ⟨dir, backend, user, flags, host⟩

/-- The settings that a document holds. -/
def ofToml? (document : String) : Option Settings := do
  let t ← Toml.parse document
  (codec.decode t.toJson).toOption

/-- The settings that a file holds. -/
def ofFile (contents : List UInt8) : Settings :=
  ((Text.ofBytes? contents).bind ofToml?).getD standard

/-- The document of the settings. -/
def toToml (s : Settings) : String :=
  match Toml.ofJson? (codec.encode s) with
  | some (.table entries) => Toml.write entries
  | _ => ""

/-- What is shown for a secret. -/
def mask : String := "********"

/-- The settings without secrets. -/
def redacted (s : Settings) : Settings :=
  { s with
    backend :=
      { s.backend with
        token := s.backend.token.map fun _ => mask
        cookie := s.backend.cookie.map fun _ => mask }
    host := { s.host with apiKey := s.host.apiKey.map fun _ => mask } }

/-- The settings with what has been given explicitly. -/
def withBackend (s : Settings) (url token : Option String) : Settings :=
  { s with backend := { s.backend with baseUrl := url.getD s.backend.baseUrl
                                       token := token.or s.backend.token } }

/-- The connection, where explicit values go before those of the file. -/
def connection (s : Settings) (host apiKey : Option String) : Connection :=
  ⟨(host.or s.host.host).getD "", (apiKey.or s.host.apiKey).getD ""⟩

/-- The directory for downloads. -/
def downloadDir (s : Settings) : String := s.exportDir.getD "."

end Settings

end Workbench.Cli
