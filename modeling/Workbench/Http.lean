import Workbench.Dialogue
import Workbench.Json.Codec
import Workbench.Text.Base64
import Workbench.Text.Charset
import Workbench.Url

/-!
# HTTP exchanges

A request is made from a URL, the headers it should carry and perhaps a JSON body. It can only be
made for a URL of the web and with headers that fit on a line. Whoever is at the other end answers,
or drops the connection. An answer is the last one: where the other end asks to look elsewhere,
whoever makes the exchange has done so before there is a response.
-/
namespace Workbench.Http

open Json (Codec)

inductive Method
  | get
  | post
  deriving DecidableEq, Repr

def Method.name : Method → String
  | .get => "GET"
  | .post => "POST"

structure Request where
  method : Method
  url : Url
  authorization : Option String
  cookie : Option String
  /-- The JSON text that is sent along. -/
  body : Option String
  deriving DecidableEq, Repr

/-- The type of the body, where there is one. -/
def Request.contentType (r : Request) : Option String :=
  r.body.map fun _ => "application/json"

structure Response where
  status : Nat
  /-- All of the body; nothing of one that breaks off. -/
  body : List UInt8
  /-- The charset that the response names for its body. -/
  charset : Text.Charset := .utf8
  /-- The URL that has answered, if an error in the body is to be told with it. -/
  url : Option Url := none
  deriving DecidableEq, Repr

namespace Response

def isSuccess (r : Response) : Bool := 200 ≤ r.status && r.status < 300

/-- The body as text. -/
def text (r : Response) : String := r.charset.decode r.body

end Response

/-- An exchange of requests; a dropped connection has no response. -/
abbrev Session (α : Type) := Dialogue Request (fun _ => Option Response) α

/-- Why an exchange failed before there was anything to make sense of, or because there was not. -/
inductive Failure
  /-- The request cannot be made; the URL, if that is to blame. -/
  | unsuitable (url : Option Url)
  | dropped (url : Url)
  /-- The body of the response cannot be made sense of; the URL, if it is told. -/
  | undecodable (url : Option Url)
  deriving DecidableEq, Repr

def Failure.message : Failure → String
  | .unsuitable none => "builder error"
  | .unsuitable (some u) => s!"builder error for url ({u.text})"
  | .dropped u => s!"error sending request for url ({u.text})"
  | .undecodable none => "error decoding response body"
  | .undecodable (some u) => s!"error decoding response body for url ({u.text})"

/-! ## Making requests -/

/-- A header value without control characters, tabs apart. -/
def fitsHeader (s : String) : Bool :=
  s.toList.all fun c => (0x20 ≤ c.toNat && c.toNat != 0x7F) || c == '\t'

/-- The header for the user name and password of a URL. -/
def basicAuthorization (u : Url) : Option String :=
  match u.authority with
  | none => none
  | some a =>
    if a.username = "" ∧ a.password = none then none
    else
      let plain (s : String) := Url.percentDecode (Text.bytes s)
      some ("Basic " ++ Text.base64 (plain a.username ++ 0x3A :: plain (a.password.getD "")))

/-- The request to the URL that `target` is. What the URL says about the user goes first. -/
def Request.make (method : Method) (target : String) (authorization cookie : Option String)
    (body : Option Json) : Except Failure Request :=
  match Url.parse target with
  | .error _ => .error (.unsuitable none)
  | .ok u =>
    if !u.hasHost then .error (.unsuitable (some u))
    else if !(authorization.all fitsHeader && cookie.all fitsHeader) then
      .error (.unsuitable none)
    else
      let shown := u.withoutCredentials
      if u.scheme ≠ "http" ∧ u.scheme ≠ "https" then .error (.unsuitable (some shown))
      else .ok ⟨method, shown, (basicAuthorization u).or authorization, cookie,
        body.map Json.compact⟩

/-- Makes an exchange. -/
def exchange (request : Except Failure Request) : Session (Except Failure Response) :=
  match request with
  | .error f => .done (.error f)
  | .ok r => .ask r fun
    | none => .done (.error (.dropped r.url))
    | some response => .done (.ok response)

/-- The value that a response has as its body. -/
def Response.read {α : Type} (codec : Codec α) (r : Response) : Except Failure α :=
  (codec.parse r.body).mapError fun _ => .undecodable r.url

/-- The words that go with a status code. -/
def reason : Nat → Option String
  | 100 => some "Continue"
  | 101 => some "Switching Protocols"
  | 102 => some "Processing"
  | 103 => some "Early Hints"
  | 200 => some "OK"
  | 201 => some "Created"
  | 202 => some "Accepted"
  | 203 => some "Non Authoritative Information"
  | 204 => some "No Content"
  | 205 => some "Reset Content"
  | 206 => some "Partial Content"
  | 207 => some "Multi-Status"
  | 208 => some "Already Reported"
  | 226 => some "IM Used"
  | 300 => some "Multiple Choices"
  | 301 => some "Moved Permanently"
  | 302 => some "Found"
  | 303 => some "See Other"
  | 304 => some "Not Modified"
  | 305 => some "Use Proxy"
  | 307 => some "Temporary Redirect"
  | 308 => some "Permanent Redirect"
  | 400 => some "Bad Request"
  | 401 => some "Unauthorized"
  | 402 => some "Payment Required"
  | 403 => some "Forbidden"
  | 404 => some "Not Found"
  | 405 => some "Method Not Allowed"
  | 406 => some "Not Acceptable"
  | 407 => some "Proxy Authentication Required"
  | 408 => some "Request Timeout"
  | 409 => some "Conflict"
  | 410 => some "Gone"
  | 411 => some "Length Required"
  | 412 => some "Precondition Failed"
  | 413 => some "Payload Too Large"
  | 414 => some "URI Too Long"
  | 415 => some "Unsupported Media Type"
  | 416 => some "Range Not Satisfiable"
  | 417 => some "Expectation Failed"
  | 418 => some "I'm a teapot"
  | 421 => some "Misdirected Request"
  | 422 => some "Unprocessable Entity"
  | 423 => some "Locked"
  | 424 => some "Failed Dependency"
  | 425 => some "Too Early"
  | 426 => some "Upgrade Required"
  | 428 => some "Precondition Required"
  | 429 => some "Too Many Requests"
  | 431 => some "Request Header Fields Too Large"
  | 451 => some "Unavailable For Legal Reasons"
  | 500 => some "Internal Server Error"
  | 501 => some "Not Implemented"
  | 502 => some "Bad Gateway"
  | 503 => some "Service Unavailable"
  | 504 => some "Gateway Timeout"
  | 505 => some "HTTP Version Not Supported"
  | 506 => some "Variant Also Negotiates"
  | 507 => some "Insufficient Storage"
  | 508 => some "Loop Detected"
  | 510 => some "Not Extended"
  | 511 => some "Network Authentication Required"
  | _ => none

def statusText (status : Nat) : String :=
  s!"{status} " ++ (reason status).getD "<unknown status code>"

end Workbench.Http
