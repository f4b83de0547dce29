import Workbench.Proofs.Answer

/-!
# Error codes of the backend

An answer with an error code is an error of the backend, whose code and message the caller should
see. The envelope is decoded as a whole before its code is looked at, so the caller sees them only
if the data beside the code are of the kind that the call asked for: absent, null or readable. Any
other data hide the code behind a decoding error.

* `coded_answers`: what each call makes of an answer with an error code;
* `create_hides_code`: an empty object as the data of a refused creation.
-/
namespace Workbench.Backend

open Dialogue (Yields)
open Http (Failure Request Response)
open Json (Codec Places membersOf maxNesting)

/-- The members of an object without repeated names, among them an error code and a message. -/
structure Coded (ms : Places) (code : Int64) (message : String) : Prop where
  nodup : (ms.map Prod.fst).Nodup
  hasCode : ∃ s, ms.found "code" = [s] ∧ Codec.int64.ReadsAt (maxNesting - 1) s code
  isError : code ≠ 0
  hasMessage : ∃ s, ms.found "msg" = [s] ∧ Codec.string.ReadsAt (maxNesting - 1) s message

variable {α β : Type} {c : Codec α} {ms : Places} {code : Int64} {message : String}

/-- The data are absent, null or of the codec's type. -/
def Fits (c : Codec α) (ms : Places) : Prop :=
  ∀ s, ms.found "data" = [s] → ∃ data, c.option.ReadsAt (maxNesting - 1) s data

/-- What a call that wants data of the codec's type makes of an error code. -/
structure Told (c : Codec α) (r : Response) (ms : Places) (code : Int64) (message : String)
    (result : Except ApiError β) : Prop where
  told : Fits c ms → result = .error (.backend code message)
  hidden : ¬Fits c ms → result = .error (.decode (Failure.undecodable r.url).message)

section

variable {body : List UInt8}

theorem Coded.parse (h : Coded ms code message) (hc : c.Spanning) (hms : membersOf body = .ok ms)
    (hfits : Fits c ms) : ∃ data, (Envelope.codec c).parse body = .ok ⟨code, message, data⟩ := by
  rcases Places.found_of_nodup h.nodup "data" with hnone | ⟨s, hone⟩
  · exact ⟨none, (Envelope.parse_iff hc hms).mpr
      ⟨.inr h.hasCode, .inr h.hasMessage, .inl ⟨hnone, .inl rfl⟩⟩⟩
  · obtain ⟨data, hdata⟩ := hfits s hone
    exact ⟨data, (Envelope.parse_iff hc hms).mpr
      ⟨.inr h.hasCode, .inr h.hasMessage, .inr ⟨s, hone, hdata⟩⟩⟩

theorem fits_of_parse (hc : c.Spanning) (hms : membersOf body = .ok ms) {e : Envelope α}
    (h : (Envelope.codec c).parse body = .ok e) : Fits c ms := by
  intro s hone
  obtain ⟨-, -, ⟨hnone, -⟩ | ⟨s', hone', hdata⟩⟩ := (Envelope.parse_iff hc hms).mp h
  · cases hone.symm.trans hnone
  · cases hone.symm.trans hone'
    exact ⟨e.data, hdata⟩

end

/-- A call that has a response with a status of success has it as an accepted one. -/
theorem Outcome.accepted {request : Except Failure Request} {q : Request} {r : Response}
    {take : Option α → Option β} {result : Except ApiError β}
    (h : Outcome c take request [⟨q, some r⟩] result) (hstatus : r.isSuccess = true) :
    Accepted request [⟨q, some r⟩] r := by
  have hsame {r' : Response} (hresponse : Accepted request [⟨q, some r⟩] r') :
      Accepted request [⟨q, some r⟩] r := by
    obtain ⟨q', hresponded⟩ := hresponse.responded
    cases hresponded.log_eq
    exact hresponse
  cases h with
  | rejected hrejected =>
    cases hrejected with
    | lost hnone => cases hnone
    | refused hresponded hrefused =>
      cases hresponded.log_eq
      rw [hstatus] at hrefused
      cases hrefused
  | undecodable hresponse | coded hresponse | unusable hresponse | done hresponse =>
    exact hsame hresponse

theorem Coded.told (h : Coded ms code message) (hc : c.Spanning) {r : Response}
    {request : Except Failure Request} {log : Http.Exchanges} (hresponse : Accepted request log r)
    (hms : membersOf r.body = .ok ms) {take : Option α → Option β} {result : Except ApiError β}
    (hresult : Outcome c take request log result) : Told c r ms code message result where
  told := by
    intro hfits
    obtain ⟨data, hparse⟩ := h.parse hc hms hfits
    have hnot {data : Option α} (hbody : Success c r.body data) : False := by
      obtain ⟨message', hzero⟩ := hbody.decodes
      rw [hparse] at hzero
      cases hzero
      exact h.isError rfl
    cases hresult with
    | rejected hrejected => exact absurd hresponse hrejected.not_accepted
    | undecodable hother hbody =>
      obtain rfl := hresponse.unique hother
      exact absurd hparse (hbody _)
    | coded hother hbody =>
      obtain rfl := hresponse.unique hother
      rw [hparse] at hbody
      cases hbody
      rfl
    | unusable hother hbody | done hother hbody =>
      obtain rfl := hresponse.unique hother
      exact (hnot hbody).elim
  hidden := by
    intro hfits
    have hnot {e : Envelope α} (hbody : (Envelope.codec c).parse r.body = .ok e) : False :=
      hfits (fits_of_parse hc hms hbody)
    cases hresult with
    | rejected hrejected => exact absurd hresponse hrejected.not_accepted
    | undecodable hother =>
      obtain rfl := hresponse.unique hother
      rfl
    | coded hother hbody =>
      obtain rfl := hresponse.unique hother
      exact (hnot hbody).elim
    | unusable hother hbody | done hother hbody =>
      obtain rfl := hresponse.unique hother
      exact (hnot hbody.decodes.choose_spec).elim

/-- **An error code is told unless the data hide it.** -/
theorem coded_answers {b : Backend} {q : Request} {r : Response} (hstatus : r.isSuccess = true)
    (hms : membersOf r.body = .ok ms) (hcoded : Coded ms code message) :
    (∀ {spaceId workflowId result}, Yields (b.detail spaceId workflowId) [⟨q, some r⟩] result →
        Told canvasCodec r ms code message result) ∧
      (∀ {w result}, Yields (b.create w) [⟨q, some r⟩] result →
        Told createdCodec r ms code message result) ∧
      ∀ {spaceId workflowId schema result},
        Yields (b.save spaceId workflowId schema) [⟨q, some r⟩] result →
          Told Codec.any r ms code message result :=
  ⟨fun h => hcoded.told (Json.record_spanning canvasFields_spanning)
      ((detail_outcome h).accepted hstatus) hms (detail_outcome h),
    fun h => hcoded.told (Json.record_spanning createdFields_spanning)
      ((create_outcome h).accepted hstatus) hms (create_outcome h),
    fun h => hcoded.told Json.any_spanning ((save_outcome h).accepted hstatus) hms
      (save_outcome h)⟩

/-! ## A refused creation -/

/-- An error code beside data without any members. -/
def refusal : List UInt8 :=
  Text.bytes "\x7b\"code\":7,\"msg\":\"quota\",\"data\":\x7b\x7d\x7d"

def refusalMembers : Places :=
  [("code", Text.bytes "7,\"msg\":\"quota\",\"data\":\x7b\x7d\x7d"),
    ("msg", Text.bytes "\"quota\",\"data\":\x7b\x7d\x7d"), ("data", Text.bytes "\x7b\x7d\x7d")]

def refusalTo (q : Request) : Response := { status := 200, body := refusal, url := some q.url }

/-- A backend that refuses whatever it is asked. -/
def refusing : Dialogue.Peer Request (fun _ => Option Response) Unit :=
  fun q s => (some (refusalTo q), s)

theorem membersOf_refusal : membersOf refusal = .ok refusalMembers := rfl

theorem coded_refusal : Coded refusalMembers 7 "quota" where
  nodup := by decide
  hasCode := ⟨_, rfl, _, rfl⟩
  isError := by decide
  hasMessage := ⟨_, rfl, _, rfl⟩

/-- The data fit a call that can do without a workflow, which is told the code. -/
theorem detail_tells_code :
    ∃ q, Yields (sample.detail "space" "7") [⟨q, some (refusalTo q)⟩]
      (.error (.backend 7 "quota")) := by
  have hfits : Fits canvasCodec refusalMembers := by
    intro s hs
    cases hs
    exact ⟨some none, _, rfl⟩
  have hlog : ∃ q, (sample.detail "space" "7").exchanges refusing () =
      [⟨q, some (refusalTo q)⟩] := ⟨_, rfl⟩
  obtain ⟨q, hlog⟩ := hlog
  have hyields := Dialogue.yields_transcript refusing (sample.detail "space" "7") ()
  rw [hlog] at hyields
  have htold := ((coded_answers rfl membersOf_refusal coded_refusal).1 hyields).told hfits
  rw [htold] at hyields
  exact ⟨q, hyields⟩

/-- A call that needs an id finds none in the data, and hides the code. -/
theorem create_hides_code :
    (∃ ms, membersOf refusal = .ok ms ∧ Coded ms 7 "quota") ∧
      ∃ q, Yields (sample.create newFlow) [⟨q, some (refusalTo q)⟩] (.error (.decode
        "error decoding response body for url (http://backend.test/api/workflow_api/create)")) := by
  refine ⟨⟨refusalMembers, membersOf_refusal, coded_refusal⟩, ?_⟩
  have hlog : ∃ q, (sample.create newFlow).exchanges refusing () =
      [⟨q, some (refusalTo q)⟩] := ⟨_, rfl⟩
  have hresult : ((sample.create newFlow).transcript refusing ()).1 = .error (.decode
      "error decoding response body for url (http://backend.test/api/workflow_api/create)") := by
    decide +kernel
  obtain ⟨q, hlog⟩ := hlog
  refine ⟨q, ?_⟩
  rw [← hresult, ← hlog]
  exact Dialogue.yields_transcript refusing (sample.create newFlow) ()

end Workbench.Backend
