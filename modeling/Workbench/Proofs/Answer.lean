import Workbench.Backend
import Workbench.Proofs.Dialogue
import Workbench.Proofs.Json.Member
import Workbench.Proofs.Text.Charset

/-!
# What the backend's clients make of answers

Each call of the backend is one exchange, and its result depends on what came back: nothing, a
refusal, a body that is no envelope, an envelope with an error code, or one with data. Whoever
answers, the request of a call is sent if it can be made, and once.

* `yields_exchange_iff`: how an exchange can go, and `Response.text_of_says` what its text is;
* `Outcome` sorts the results of the calls that look into the envelope, one case for each kind of
  answer; `detail_outcome`, `create_outcome` and `save_outcome` are its instances, and `InfoOutcome`
  sorts those of a look at a host;
* `Envelope.parse_iff`: what a body that is an object says as an envelope, member by member;
* `no_false_success`: a call succeeds only if the answer says so.
-/
namespace Workbench

open Dialogue (Yields)
open Http (Session Failure Request Response)
open Json (Codec Field Fields Places membersOf maxNesting)

namespace Http

/-- Requests with what came back for them. -/
abbrev Exchanges := List (Dialogue.Exchange Request fun _ => Option Response)

variable {request : Except Failure Request} {log : Exchanges}

/-- The request cannot be made and is not sent, or it is sent and the connection is dropped. -/
inductive NoResponse (request : Except Failure Request) : Exchanges → Failure → Prop
  | unsent {f : Failure} (hrequest : request = .error f) : NoResponse request [] f
  | dropped {q : Request} (hrequest : request = .ok q) :
    NoResponse request [⟨q, none⟩] (.dropped q.url)

/-- The request was sent, once, and this is the response. -/
structure Responded (request : Except Failure Request) (log : Exchanges) (q : Request)
    (r : Response) : Prop where
  request_eq : request = .ok q
  log_eq : log = [⟨q, some r⟩]

theorem yields_exchange_iff {answer : Except Failure Response} :
    Yields (exchange request) log answer ↔
      (∃ f, NoResponse request log f ∧ answer = .error f) ∨
        ∃ q r, Responded request log q r ∧ answer = .ok r := by
  constructor
  · intro h
    cases request with
    | error f =>
      cases h
      exact .inl ⟨f, .unsent rfl, rfl⟩
    | ok q =>
      obtain _ | ⟨reply, h⟩ := h
      cases reply with
      | none =>
        cases h
        exact .inl ⟨_, .dropped rfl, rfl⟩
      | some r =>
        cases h
        exact .inr ⟨q, r, ⟨rfl, rfl⟩, rfl⟩
  · rintro (⟨f, hnone, rfl⟩ | ⟨q, r, ⟨rfl, rfl⟩, rfl⟩)
    · cases hnone with
      | unsent hrequest =>
        rw [hrequest]
        exact .done _
      | dropped hrequest =>
        rw [hrequest]
        exact .ask (R := fun _ => Option Response) none (.done _)
    · exact .ask (R := fun _ => Option Response) (some r) (.done _)

theorem NoResponse.not_responded {f : Failure} (h : NoResponse request log f) {q : Request}
    {r : Response} : ¬Responded request log q r := by
  rintro ⟨-, hlog⟩
  cases h <;> cases hlog

/-- The body is this text in UTF-8 or, as a mark before it tells, in another charset of Unicode. -/
inductive Response.Says (r : Response) (s : String) : Prop
  | unmarked (hcharset : r.charset = .utf8) (hmark : s.toList.head? ≠ some '\uFEFF')
    (hbody : r.body = Text.bytes s)
  | marked (hbody : r.body = Text.bytes ("\uFEFF" ++ s))
  | units {order : Text.ByteOrder} (hbody : r.body = Text.utf16Bytes order ("\uFEFF" ++ s))

theorem Response.text_of_says {r : Response} {s : String} (h : r.Says s) : r.text = s := by
  unfold Response.text
  cases h with
  | unmarked hcharset hmark hbody => rw [hcharset, hbody, Text.Charset.decode_bytes hmark]
  | marked hbody => rw [hbody, Text.Charset.decode_marked]
  | units hbody => rw [hbody, Text.Charset.decode_utf16_marked]

end Http

open Http (Exchanges NoResponse Responded)

namespace Backend

variable {α β : Type} {c : Codec α} {log : Exchanges} {body : List UInt8} {ms : Places}

/-! ## Envelopes -/

theorem Envelope.spanning (hc : c.Spanning) :
    Fields.Spanning (.cons (.default "code" .int64 0) <| .cons (.default "msg" .string "") <|
      .cons (.nullable "data" c) .nil) :=
  ⟨Json.integer_spanning, Json.string_spanning, Json.option_spanning hc, trivial⟩

/-- An object is an envelope as its members say. -/
theorem Envelope.parse_iff (hc : c.Spanning) (hms : membersOf body = .ok ms) {e : Envelope α} :
    (Envelope.codec c).parse body = .ok e ↔
      (Field.default "code" Codec.int64 0).Says (maxNesting - 1) ms e.code ∧
        (Field.default "msg" Codec.string "").Says (maxNesting - 1) ms e.message ∧
          (Field.nullable "data" c).Says (maxNesting - 1) ms e.data := by
  have hnames : List.Nodup ["code", "msg", "data"] := by decide
  refine (Json.record_parse_iff (Envelope.spanning hc) hnames hms).trans ?_
  constructor
  · rintro ⟨⟨code, message, data, _⟩, ⟨hcode, hmessage, hdata, -⟩, rfl⟩
    exact ⟨hcode, hmessage, hdata⟩
  · rintro ⟨hcode, hmessage, hdata⟩
    exact ⟨(e.code, e.message, e.data, ()), ⟨hcode, hmessage, hdata, trivial⟩, rfl⟩

/-- The body says that all went well, and gives these data. -/
structure Success (c : Codec α) (body : List UInt8) (data : Option α) : Prop where
  decodes : ∃ message, (Envelope.codec c).parse body = .ok ⟨0, message, data⟩
  /-- Members of an object say so: no code, or zero. -/
  code : ∀ {ms}, membersOf body = .ok ms → ms.found "code" = [] ∨
    ∃ s, ms.found "code" = [s] ∧ Codec.int64.ReadsAt (maxNesting - 1) s 0
  /-- The data are those of the object, where they may be absent or null. -/
  data : ∀ {ms}, membersOf body = .ok ms → ms.Holds "data" c (maxNesting - 1) data

theorem success_of_parse (hc : c.Spanning) (hblank : c.SkipsGaps) {e : Envelope α}
    (h : (Envelope.codec c).parse body = .ok e) (hcode : e.code = 0) : Success c body e.data where
  decodes := by
    obtain ⟨code, message, data⟩ := e
    obtain rfl : code = 0 := hcode
    exact ⟨message, h⟩
  code := by
    intro ms hms
    obtain ⟨hfield, -, -⟩ := (Envelope.parse_iff hc hms).mp h
    rw [hcode] at hfield
    exact hfield.imp_left And.left
  data := by
    intro ms hms
    obtain ⟨-, -, hfield⟩ := (Envelope.parse_iff hc hms).mp h
    exact Json.holds_of_says hblank hfield

/-! ## Answers -/

/-- No response came, or one that says that it went wrong. -/
inductive Rejected (request : Except Failure Request) (log : Exchanges) : ApiError → Prop
  | lost {f : Failure} (h : NoResponse request log f) : Rejected request log (.network f.message)
  | refused {q : Request} {r : Response} (h : Responded request log q r)
    (hstatus : r.isSuccess = false) : Rejected request log (.status r.status r.text)

/-- A response came that says that it went well. -/
structure Accepted (request : Except Failure Request) (log : Exchanges) (r : Response) : Prop where
  responded : ∃ q, Responded request log q r
  isSuccess : r.isSuccess = true

/-- The results of a call that wants data: `take` has what it makes of them, if it can. -/
inductive Outcome (c : Codec α) (take : Option α → Option β) (request : Except Failure Request)
    (log : Exchanges) : Except ApiError β → Prop
  | rejected {e : ApiError} (h : Rejected request log e) : Outcome c take request log (.error e)
  | undecodable {r : Response} (h : Accepted request log r)
    (hbody : ∀ e, (Envelope.codec c).parse r.body ≠ .ok e) :
    Outcome c take request log (.error (.decode (Failure.undecodable r.url).message))
  | coded {r : Response} (h : Accepted request log r) {e : Envelope α}
    (hbody : (Envelope.codec c).parse r.body = .ok e) (hcode : e.code ≠ 0) :
    Outcome c take request log (.error (.backend e.code e.message))
  | unusable {r : Response} (h : Accepted request log r) {data : Option α}
    (hbody : Success c r.body data) (hdata : take data = none) :
    Outcome c take request log (.error (.decode "create response has no workflow_id"))
  | done {r : Response} (h : Accepted request log r) {data : Option α} {b : β}
    (hbody : Success c r.body data) (hdata : take data = some b) :
    Outcome c take request log (.ok b)

section Answers

variable {request : Except Failure Request} {answer : Except Failure Response} {r r' : Response}

theorem Accepted.unique (h : Accepted request log r) (h' : Accepted request log r') : r = r' := by
  obtain ⟨⟨q, -, rfl⟩, -⟩ := h
  obtain ⟨⟨q', -, hlog⟩, -⟩ := h'
  cases hlog
  rfl

theorem Rejected.not_accepted {e : ApiError} (h : Rejected request log e) :
    ¬Accepted request log r := by
  rintro ⟨⟨q, hresponded⟩, hstatus⟩
  cases h with
  | lost hnone => exact hnone.not_responded hresponded
  | refused hother hrefused =>
    cases hother.log_eq.symm.trans hresponded.log_eq
    rw [hstatus] at hrefused
    cases hrefused

theorem accepted_cases (h : Yields (Http.exchange request) log answer) :
    (∃ e, accepted answer = .error e ∧ Rejected request log e) ∨
      ∃ r, accepted answer = .ok r ∧ Accepted request log r := by
  rcases Http.yields_exchange_iff.mp h with ⟨f, hnone, rfl⟩ | ⟨q, r, hresponded, rfl⟩
  · exact .inl ⟨_, rfl, .lost hnone⟩
  · cases hstatus : r.isSuccess with
    | false => exact .inl ⟨_, by simp only [accepted, hstatus]; rfl, .refused hresponded hstatus⟩
    | true => exact .inr ⟨r, by simp only [accepted, hstatus]; rfl, ⟨q, hresponded⟩, hstatus⟩

theorem yields_post {b : Backend} {path : String} {body : Json}
    {take : Except Failure Response → Except ApiError α} {result : Except ApiError α} :
    Yields (b.post path body take) log result ↔
      ∃ answer, Yields (Http.exchange (b.request path body)) log answer ∧ result = take answer :=
  Dialogue.yields_bind_pure fun _ => rfl

theorem unwrap_rejected {e : ApiError} (h : accepted answer = .error e) :
    unwrap c answer = .error e := by
  rw [unwrap, h]
  rfl

theorem unwrap_undecodable (h : accepted answer = .ok r) {e : Json.Error}
    (hparse : (Envelope.codec c).parse r.body = .error e) :
    unwrap c answer = .error (.decode (Failure.undecodable r.url).message) := by
  have hread : r.read (Envelope.codec c) = .error (.undecodable r.url) := by
    rw [Response.read, hparse]
    rfl
  simp only [unwrap, h, bind, Except.bind, hread]
  rfl

theorem unwrap_decoded (h : accepted answer = .ok r) {e : Envelope α}
    (hparse : (Envelope.codec c).parse r.body = .ok e) :
    unwrap c answer = if e.code = 0 then .ok e.data else .error (.backend e.code e.message) := by
  have hread : r.read (Envelope.codec c) = .ok e := by
    rw [Response.read, hparse]
    rfl
  simp only [unwrap, h, bind, Except.bind, hread]
  rfl

end Answers

/-- What a call makes of the data in an envelope. -/
def finish (take : Option α → Option β) (data : Option α) : Except ApiError β :=
  match take data with
  | some b => .ok b
  | none => .error (.decode "create response has no workflow_id")

/-- A call that opens the envelope. -/
theorem outcome_of_post (hc : c.Spanning) (hblank : c.SkipsGaps) {take : Option α → Option β}
    {b : Backend} {path : String} {request : Json} {result : Except ApiError β}
    (h : Yields (b.post path request fun answer => unwrap c answer >>= finish take) log result) :
    Outcome c take (b.request path request) log result := by
  obtain ⟨answer, hexchange, rfl⟩ := yields_post.mp h
  rcases accepted_cases hexchange with ⟨e, haccepted, hrejected⟩ | ⟨r, haccepted, hresponse⟩
  · rw [unwrap_rejected haccepted]
    exact .rejected hrejected
  · cases hparse : (Envelope.codec c).parse r.body with
    | error e =>
      rw [unwrap_undecodable haccepted hparse]
      exact .undecodable hresponse fun _ h => (nomatch hparse.symm.trans h)
    | ok e =>
      rw [unwrap_decoded haccepted hparse]
      split
      · rename_i hcode
        have hbody := success_of_parse hc hblank hparse hcode
        show Outcome c take _ _ (finish take e.data)
        unfold finish
        split
        · exact .done hresponse hbody ‹_›
        · exact .unusable hresponse hbody ‹_›
      · exact .coded hresponse hparse ‹_›

/-! ## The calls -/

def detailRequest (b : Backend) (spaceId workflowId : String) : Except Failure Request :=
  b.request detailPath (.obj [("space_id", .str spaceId), ("workflow_id", .str workflowId)])

def createRequest (b : Backend) (w : NewWorkflow) : Except Failure Request :=
  b.request createPath (NewWorkflow.codec.encode w)

def saveRequest (b : Backend) (spaceId workflowId schema : String) : Except Failure Request :=
  b.request savePath
    (.obj [("schema", .str schema), ("space_id", .str spaceId), ("workflow_id", .str workflowId)])

/-- Asks the backend to register a plugin. -/
def registration (b : Backend) (p : PluginMeta) : Except Failure Request :=
  b.request registerPath (PluginMeta.codec.encode p)

theorem detailCodec_spanning : Workflow.Detail.codec.Spanning :=
  have hstring := Json.string_spanning
  have hoption := Json.option_spanning hstring
  have htime := Json.option_spanning Json.integer_spanning
  have hcreator : Workflow.Creator.codec.Spanning :=
    Json.record_spanning ⟨hoption, hoption, trivial⟩
  Json.record_spanning ⟨hstring, hstring, hstring, hoption, hoption, htime, htime, hcreator,
    Json.Choice.codec_spanning _, hoption, hoption, trivial⟩

theorem canvasFields_spanning :
    Fields.Spanning (.cons (.nullable "workflow" Workflow.Detail.codec) .nil) :=
  ⟨Json.option_spanning detailCodec_spanning, trivial⟩

theorem createdFields_spanning :
    Fields.Spanning (.cons (.required "workflow_id" .string) .nil) :=
  ⟨Json.string_spanning, trivial⟩

variable {b : Backend} {n : Nat} {s t : List UInt8}

/-- The workflow in the data is that of the object, where it may be absent or null. -/
theorem holds_of_canvas {w : Option Workflow.Detail} (hms : Json.places s = .ok (ms, t))
    (h : canvasCodec.ReadsAt (n + 1) s w) : ms.Holds "workflow" Workflow.Detail.codec n w := by
  obtain ⟨⟨w, _⟩, ⟨hfield, -⟩, rfl⟩ :=
    (Json.record_readsAt_iff canvasFields_spanning (List.nodup_singleton _) hms).mp h
  exact Json.holds_of_says Json.record_skipsGaps hfield

/-- The id in the data is that of the object. -/
theorem found_of_created {id : String} (hms : Json.places s = .ok (ms, t))
    (h : createdCodec.ReadsAt (n + 1) s id) :
    ∃ s', ms.found "workflow_id" = [s'] ∧ Codec.string.ReadsAt n s' id := by
  obtain ⟨⟨id, _⟩, ⟨hfield, -⟩, rfl⟩ :=
    (Json.record_readsAt_iff createdFields_spanning (List.nodup_singleton _) hms).mp h
  rcases hfield with ⟨-, ⟨⟨⟩⟩ | ⟨⟨⟩⟩⟩ | hfound
  exact hfound

theorem detail_outcome {spaceId workflowId : String}
    {result : Except ApiError (Option Workflow.Detail)}
    (h : Yields (b.detail spaceId workflowId) log result) :
    Outcome canvasCodec (fun data => some data.join) (b.detailRequest spaceId workflowId) log
      result :=
  outcome_of_post (Json.record_spanning canvasFields_spanning) Json.record_skipsGaps h

theorem create_outcome {w : NewWorkflow} {result : Except ApiError String}
    (h : Yields (b.create w) log result) :
    Outcome createdCodec Text.nonEmpty (b.createRequest w) log result := by
  have hcreate : b.create w = b.post createPath (NewWorkflow.codec.encode w) fun answer =>
      unwrap createdCodec answer >>= finish Text.nonEmpty := by
    refine congrArg (b.post createPath _) (funext fun answer => ?_)
    refine congrArg (unwrap createdCodec answer >>= ·) (funext fun data => ?_)
    unfold finish
    cases Text.nonEmpty data <;> rfl
  rw [hcreate] at h
  exact outcome_of_post (Json.record_spanning createdFields_spanning) Json.record_skipsGaps h

theorem save_outcome {spaceId workflowId schema : String} {result : Except ApiError Unit}
    (h : Yields (b.save spaceId workflowId schema) log result) :
    Outcome Codec.any (fun _ => some ()) (b.saveRequest spaceId workflowId schema) log result :=
  outcome_of_post Json.any_spanning Json.any_skipsGaps h

theorem register_outcome {p : PluginMeta} {result : Except ApiError Unit}
    (h : Yields (b.register p) log result) :
    (∃ e, result = .error e ∧ Rejected (b.registration p) log e) ∨
      ∃ r, result = .ok () ∧ Accepted (b.registration p) log r := by
  obtain ⟨answer, hexchange, rfl⟩ := yields_post.mp h
  rcases accepted_cases hexchange with ⟨e, haccepted, hrejected⟩ | ⟨r, haccepted, hresponse⟩
  · exact .inl ⟨e, by rw [haccepted]; rfl, hrejected⟩
  · exact .inr ⟨r, by rw [haccepted]; rfl, hresponse⟩

/-- The results of a look at a host. -/
inductive InfoOutcome (request : Except Failure Request) (log : Exchanges) :
    Except ApiError AppInfo → Prop
  | lost {f : Failure} (h : NoResponse request log f) :
    InfoOutcome request log (.error (.network f.message))
  | refused {q : Request} {r : Response} (h : Responded request log q r)
    (hstatus : r.isSuccess = false) :
    InfoOutcome request log
      (.error (.status r.status s!"Dify info endpoint returned {Http.statusText r.status}"))
  | undecodable {r : Response} (h : Accepted request log r)
    (hbody : ∀ info, AppInfo.codec.parse r.body ≠ .ok info) :
    InfoOutcome request log (.error (.decode (Failure.undecodable r.url).message))
  | done {r : Response} (h : Accepted request log r) {info : AppInfo}
    (hbody : AppInfo.codec.parse r.body = .ok info) : InfoOutcome request log (.ok info)

theorem fetchInfo_outcome {c : Connection} {result : Except ApiError AppInfo}
    (h : Yields c.fetchInfo log result) : InfoOutcome c.infoRequest log result := by
  obtain ⟨log, rest, answer, rfl, hexchange, h⟩ := Dialogue.yields_bind.mp h
  rcases Http.yields_exchange_iff.mp hexchange with ⟨f, hnone, rfl⟩ | ⟨q, r, hresponded, rfl⟩
  · obtain ⟨rfl, rfl⟩ := Dialogue.yields_pure.mp h
    rw [List.append_nil]
    exact .lost hnone
  · dsimp only at h
    split at h
    · rename_i hstatus
      obtain ⟨rfl, rfl⟩ := Dialogue.yields_pure.mp h
      rw [List.append_nil]
      cases hparse : AppInfo.codec.parse r.body with
      | error e =>
        rw [Response.read, hparse]
        exact .undecodable ⟨⟨q, hresponded⟩, hstatus⟩ fun info hinfo =>
          (nomatch hparse.symm.trans hinfo)
      | ok info =>
        rw [Response.read, hparse]
        exact .done ⟨⟨q, hresponded⟩, hstatus⟩ hparse
    · rename_i hstatus
      obtain ⟨rfl, rfl⟩ := Dialogue.yields_pure.mp h
      rw [List.append_nil]
      exact .refused hresponded (Bool.eq_false_iff.mpr hstatus)

/-- Calls succeed only for answers that say so, and with what these say. -/
structure NoFalseSuccess (b : Backend) (c : Connection) : Prop where
  detail : ∀ {spaceId workflowId log result}, Yields (b.detail spaceId workflowId) log result →
    Outcome canvasCodec (fun data => some data.join) (b.detailRequest spaceId workflowId) log result
  /-- Data that are an object give the workflow in it, or none. -/
  workflow : ∀ {n s t ms w}, Json.places s = .ok (ms, t) → canvasCodec.ReadsAt (n + 1) s w →
    ms.Holds "workflow" Workflow.Detail.codec n w
  create : ∀ {w log result}, Yields (b.create w) log result →
    Outcome createdCodec Text.nonEmpty (b.createRequest w) log result
  /-- Data that are an object give the id in it. -/
  workflowId : ∀ {n s t ms id}, Json.places s = .ok (ms, t) → createdCodec.ReadsAt (n + 1) s id →
    ∃ s', ms.found "workflow_id" = [s'] ∧ Codec.string.ReadsAt n s' id
  save : ∀ {spaceId workflowId schema log result},
    Yields (b.save spaceId workflowId schema) log result →
      Outcome Codec.any (fun _ => some ()) (b.saveRequest spaceId workflowId schema) log result
  /-- Any body will do. -/
  register : ∀ {p log result}, Yields (b.register p) log result →
    (result = .ok () ↔ ∃ r, Accepted (b.registration p) log r) ∧
      ∀ e, result = .error e → Rejected (b.registration p) log e
  fetchInfo : ∀ {log result}, Yields c.fetchInfo log result →
    InfoOutcome c.infoRequest log result
  /-- A refusal is told in the words of its body, without the mark before them. -/
  text : ∀ {r s}, Response.Says r s → r.text = s

/-- **No false success.** Whoever answers, a call sends its request once, unless it cannot be made,
and its result is the one that goes with what came back. -/
theorem no_false_success (b : Backend) (c : Connection) : b.NoFalseSuccess c where
  detail := detail_outcome
  workflow := holds_of_canvas
  create := create_outcome
  workflowId := found_of_created
  save := save_outcome
  register := by
    intro p log result h
    rcases register_outcome h with ⟨e, rfl, hrejected⟩ | ⟨r, rfl, hresponse⟩
    · refine ⟨⟨fun h => (nomatch h), fun ⟨r, hresponse⟩ => ?_⟩, fun e' h => ?_⟩
      · exact absurd hresponse hrejected.not_accepted
      · cases h
        exact hrejected
    · exact ⟨⟨fun _ => ⟨r, hresponse⟩, fun _ => rfl⟩, fun e h => (nomatch h)⟩
  fetchInfo := fetchInfo_outcome
  text := Response.text_of_says

def sample : Backend := ⟨"http://backend.test", none, none⟩

def newFlow : NewWorkflow := ⟨"space", "Flow", "", none, .workflow⟩

/-- The answer that a workflow has been created. -/
def created : Response where
  status := 200
  body := Text.bytes "\x7b\"code\":0,\"msg\":\"\",\"data\":\x7b\"workflow_id\":\"9\"\x7d\x7d"

/-- A backend that creates whatever it is asked for. -/
def creating : Dialogue.Peer Request (fun _ => Option Response) Unit := fun _ s => (some created, s)

/-- The request of a creation is sent, and the id comes from the data of the answer. -/
theorem no_false_success_created : ∃ q, sample.createRequest newFlow = .ok q ∧
    Yields (sample.create newFlow) [⟨q, some created⟩] (.ok "9") ∧
      ∃ data, Success createdCodec created.body data ∧ Text.nonEmpty data = some "9" := by
  obtain ⟨q, hrequest, hlog⟩ : ∃ q, sample.createRequest newFlow = .ok q ∧
      (sample.create newFlow).exchanges creating () = [⟨q, some created⟩] := ⟨_, rfl, rfl⟩
  have hresult : ((sample.create newFlow).transcript creating ()).1 = .ok "9" := by decide +kernel
  have hyields := Dialogue.yields_transcript creating (sample.create newFlow) ()
  rw [hlog, hresult] at hyields
  refine ⟨q, hrequest, hyields, ?_⟩
  cases (no_false_success sample ⟨"http://dify.test", "app-1"⟩).create hyields with
  | done hresponse hbody hdata =>
    obtain ⟨_, hresponded⟩ := hresponse.responded
    cases hresponded.log_eq
    exact ⟨_, hbody, hdata⟩

end Backend

end Workbench
