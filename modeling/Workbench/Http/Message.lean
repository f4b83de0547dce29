import Workbench.Http
import Workbench.Text.Integer
import Workbench.Text.Lowercase
import Workbench.Workflow

/-!
# HTTP messages

A request as it goes over the wire in HTTP/1.1, and a response as it comes back. A request asks for
the connection to be closed after the response; `Response.ofMessage?` is given all bytes up to
there. A response whose body breaks off is a response nevertheless, with nothing as its body. Of
charsets, those of UTF-8 and UTF-16 are told apart, and any other is taken for UTF-8.
-/
namespace Workbench.Http

/-! ## Requests -/

/-- What a request asks its host for: the path and the query of the URL. -/
def resourceOf (u : Url) : String :=
  let path := u.path.text
  (if path = "" then "/" else path) ++ u.query.elim "" ("?" ++ ·)

/-- The host of a URL, with the port if this is not the default one. -/
def hostOf (u : Url) : String := (u.withoutCredentials.authority.map (·.text)).getD ""

/-- The headers of a request, each with its value. -/
def Request.headers (r : Request) : List (String × String) :=
  let present (name : String) (value : Option String) := value.toList.map fun v => (name, v)
  [("host", hostOf r.url), ("user-agent", clientName), ("accept", "*/*")] ++
    present "authorization" r.authorization ++ present "cookie" r.cookie ++
    present "content-type" r.contentType ++
    present "content-length" (r.body.map fun b => toString b.utf8ByteSize) ++
    [("connection", "close")]

def lineEnd : String := "\r\n"

/-- The message of a request. -/
def Request.message (r : Request) : String :=
  r.method.name ++ " " ++ resourceOf r.url ++ " HTTP/1.1" ++ lineEnd ++
    String.join (r.headers.map fun (name, value) => name ++ ": " ++ value ++ lineEnd) ++
    lineEnd ++ r.body.getD ""

/-! ## Responses -/

/-- `bs` cut behind its first line end. -/
def cutLine : List UInt8 → Option (List UInt8 × List UInt8)
  | [] => none
  | [_] => none
  | a :: b :: rest =>
    if a = 0x0D ∧ b = 0x0A then some ([], rest)
    else (cutLine (b :: rest)).map fun (line, rest) => (a :: line, rest)

theorem length_of_cutLine {bs line rest : List UInt8} (h : cutLine bs = some (line, rest)) :
    rest.length < bs.length := by
  fun_induction cutLine bs generalizing line rest with
  | case1 => cases h
  | case2 => cases h
  | case3 a b tail _ =>
    obtain ⟨-, rfl⟩ := Prod.mk.inj (Option.some.inj h)
    simp only [List.length_cons]
    omega
  | case4 a b tail _ ih =>
    obtain ⟨⟨line', rest'⟩, cut, eq⟩ := Option.map_eq_some_iff.1 h
    obtain ⟨-, rfl⟩ := Prod.mk.inj eq
    have := ih cut
    simp only [List.length_cons] at this ⊢
    omega

/-- The lines up to an empty one, and what follows it. -/
def cutHead (bs : List UInt8) : Option (List String × List UInt8) :=
  match _h : cutLine bs with
  | none => none
  | some ([], rest) => some ([], rest)
  | some (line, rest) => (cutHead rest).map fun (lines, body) => (Text.ofBytesLossy line :: lines, body)
termination_by bs.length
decreasing_by exact length_of_cutLine _h

/-- The status in the first line of a response. -/
def statusOf? (line : String) : Option Nat := do
  let _ :: status :: _ := Text.splitOn ' ' line.toList | none
  (String.ofList status).toNat?

/-- The value of the header of this name. -/
def headerOf? (name : String) (lines : List String) : Option String :=
  lines.findSome? fun line =>
    let (n, value) := line.toList.span (· != ':')
    if Text.lower (String.ofList n) = name then some (Text.trim (String.ofList (value.drop 1)))
    else none

/-- The number that a line of hexadecimal digits begins with. -/
def chunkSize? (line : List UInt8) : Option Nat :=
  match line.takeWhile fun b => (Json.hexValue b).isSome with
  | [] => none
  | digits => digits.foldlM (fun n b => do return n * 16 + (← Json.hexValue b)) 0

/-- The body that comes in chunks, each behind its size, up to one of no size. -/
def ofChunks? (bs : List UInt8) : Option (List UInt8) :=
  match _h : cutLine bs with
  | none => none
  | some (line, rest) =>
    match chunkSize? line with
    | none => none
    | some 0 => some []
    | some n =>
      if rest.length < n + 2 then none
      else (ofChunks? (rest.drop (n + 2))).map (rest.take n ++ ·)
termination_by bs.length
decreasing_by
  have := length_of_cutLine _h
  simp only [List.length_drop]
  omega

/-- The body behind the given lines, where `bs` is all that came. -/
def bodyOf (status : Nat) (headers : List String) (bs : List UInt8) : List UInt8 :=
  if status = 204 ∨ status = 304 then []
  else if (headerOf? "transfer-encoding" headers).any (Text.lower · = "chunked") then
    (ofChunks? bs).getD []
  else
    match (headerOf? "content-length" headers).bind String.toNat? with
    | some n => if bs.length < n then [] else bs.take n
    | none => bs

/-- The response that a message from `url` is. -/
def Response.ofMessage? (url : Url) (bs : List UInt8) : Option Response := do
  let (line :: headers, rest) ← cutHead bs | none
  let status ← statusOf? line
  let charset := (headerOf? "content-type" headers).elim .utf8 Text.Charset.ofMediaType
  return ⟨status, bodyOf status headers rest, charset, some url⟩

end Workbench.Http
