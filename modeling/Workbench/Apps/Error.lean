import Workbench.Apps.Listing
import Workbench.Apps.Registration
import Workbench.Url

/-!
# What can go wrong with apps

The errors of scanning, choosing and registering apps. `Connection.validate` looks at a connection
before it is used: first the host, then the key, then whether the host is a URL of the web.
-/
namespace Workbench

/-- What is wrong with the host of a connection. -/
inductive HostProblem
  | url (error : UrlError)
  | scheme (name : String)
  deriving DecidableEq, Repr

def HostProblem.message : HostProblem → String
  | .url e => e.message
  | .scheme name => s!"scheme '{name}' is not supported"

inductive AppsError
  | missingHost
  | missingKey
  | invalidHost (problem : HostProblem)
  | emptySelection
  | unknownApp (id : String)
  | invalidList (error : ListingError)
  | batchFailed (report : RegistrationReport)
  deriving DecidableEq, Repr

def AppsError.message : AppsError → String
  | .missingHost => "Dify host is required"
  | .missingKey => "Dify API key is required"
  | .invalidHost p => s!"Invalid Dify host: {p.message}"
  | .emptySelection => "No apps selected"
  | .unknownApp id => s!"App '{id}' is not in the current scan results"
  | .invalidList e => s!"Invalid app list: {e.message}"
  | .batchFailed report => report.summary

/-- The connection has a key and a host on the web. -/
def Connection.validate (c : Connection) : Except AppsError Unit :=
  if c.baseUrl = "" then .error .missingHost
  else if c.key = "" then .error .missingKey
  else
    match Url.parse c.baseUrl with
    | .error e => .error (.invalidHost (.url e))
    | .ok u =>
      if u.scheme = "http" ∨ u.scheme = "https" then .ok ()
      else .error (.invalidHost (.scheme u.scheme))

end Workbench
