import Workbench.Apps.Error
import Workbench.Backend
import Workbench.Proofs.Dialogue
import Workbench.Proofs.Text.Blank

/-!
# Hosts and the URLs on them

A host is typed, and what counts of it is its prefix: the blanks around it are taken off, and then
the slashes at its end. That is one pass of each. A blank between the host and its slashes survives
it, and a second prefix is then shorter than the first. The URL of an app takes the prefix again,
and that of the host's self-description does not.

* `hostPrefixOf_padded`: padding of blanks and slashes is taken off a clean host;
* `cleanHost_iff`: a host is clean exactly if its prefix is the whole of it;
* `tightHost_iff`: the prefix is clean exactly if no blank stands before the slashes at the end;
* `Connection.normalises_tight`: exactly then the prefix is final, and the two URLs of a connection
  are on one host;
* `blank_before_slash`: a valid connection with its URLs on two hosts.
-/
namespace Workbench

open Dialogue (Peer)

/-! ## Prefixes -/

/-- No blank around the host and no slash at its end. -/
structure CleanHost (host : String) : Prop where
  trimmed : Text.Trimmed host.toList
  last_ne_slash : ∀ c ∈ host.toList.getLast?, c ≠ '/'

/-- The host is a clean one with slashes right behind it and blanks around all that. -/
def TightHost (host : String) : Prop :=
  ∃ before name slashes after, host = before ++ (name ++ slashes) ++ after ∧
    Text.isBlankText before = true ∧ CleanHost name ∧ (∀ c ∈ slashes.toList, c = '/') ∧
      Text.isBlankText after = true

theorem toList_hostPrefixOf (host : String) :
    (hostPrefixOf host).toList = Text.dropEnd (· == '/') (Text.trim host).toList := by
  rw [hostPrefixOf, Text.trimSlashes, String.toList_ofList]

/-- A prefix does not begin with a blank. -/
theorem not_blank_of_head?_hostPrefixOf {host : String} {c : Char}
    (h : c ∈ (hostPrefixOf host).toList.head?) : Text.isBlank c = false := by
  rw [toList_hostPrefixOf] at h
  exact Text.not_blank_of_head?_trim (Text.head?_dropEnd h)

/-- A prefix does not end with a slash. -/
theorem ne_slash_of_getLast?_hostPrefixOf {host : String} {c : Char}
    (h : c ∈ (hostPrefixOf host).toList.getLast?) : c ≠ '/' := by
  rw [toList_hostPrefixOf, Text.dropEnd_eq_rdropWhile] at h
  have hne := List.ne_nil_of_mem (List.mem_of_getLast? h)
  have hlast := List.rdropWhile_last_not _ _ hne
  rw [List.getLast?_eq_some_getLast hne] at h
  obtain rfl := Option.some.inj h
  exact fun heq => hlast (beq_iff_eq.2 heq)

/-- All that is taken off a host: slashes, and blanks around the host with its slashes. -/
theorem exists_hostPrefixOf (host : String) : ∃ before slashes after,
    host = before ++ (hostPrefixOf host ++ slashes) ++ after ∧
      Text.isBlankText before = true ∧ Text.isBlankText after = true ∧
      (∀ c ∈ slashes.toList, c = '/') ∧ Text.Trimmed (hostPrefixOf host ++ slashes).toList := by
  obtain ⟨before, after, hhost, hbefore, hafter, htrimmed⟩ := Text.exists_trim host
  have htrim : Text.trim host =
      hostPrefixOf host ++ String.ofList ((Text.trim host).toList.rtakeWhile (· == '/')) := by
    rw [← String.toList_inj, String.toList_append, String.toList_ofList, toList_hostPrefixOf,
      Text.dropEnd_eq_rdropWhile, List.rdropWhile_append_rtakeWhile]
  generalize hslashes : (Text.trim host).toList.rtakeWhile (· == '/') = slashes at htrim
  rw [htrim] at hhost htrimmed
  refine ⟨before, String.ofList slashes, after, hhost, hbefore, hafter, fun c hc => ?_, htrimmed⟩
  rw [String.toList_ofList, ← hslashes] at hc
  have hslash := List.mem_rtakeWhile_imp hc
  exact eq_of_beq hslash

theorem hostPrefixOf_padded {before name slashes after : String}
    (hbefore : Text.isBlankText before = true) (hname : CleanHost name)
    (hslashes : ∀ c ∈ slashes.toList, c = '/') (hafter : Text.isBlankText after = true) :
    hostPrefixOf (before ++ (name ++ slashes) ++ after) = name := by
  have hblank : ∀ c ∈ slashes.toList, Text.isBlank c = false := fun c hc => by
    rw [hslashes c hc]
    decide
  have htrimmed : Text.Trimmed (name ++ slashes).toList := by
    rw [String.toList_append]
    refine ⟨fun c hc => ?_, fun c hc => ?_⟩
    · rw [List.head?_append] at hc
      rcases Option.or_eq_some_iff.1 hc with hc | ⟨-, hc⟩
      · exact hname.trimmed.first c hc
      · exact hblank c (List.mem_of_mem_head? hc)
    · rw [List.getLast?_append] at hc
      rcases Option.or_eq_some_iff.1 hc with hc | ⟨-, hc⟩
      · exact hblank c (List.mem_of_getLast? hc)
      · exact hname.trimmed.last c hc
  have hlast : ∀ c ∈ name.toList.getLast?, (c == '/') = false := fun c hc =>
    beq_eq_false_iff_ne.2 (hname.last_ne_slash c hc)
  rw [← String.toList_inj, toList_hostPrefixOf, Text.trim_padded hbefore htrimmed hafter,
    String.toList_append, Text.dropEnd_append fun c hc => beq_iff_eq.2 (hslashes c hc),
    Text.dropEnd_eq_self hlast]

/-- The clean hosts are those that a further pass leaves as they are. -/
theorem cleanHost_iff {host : String} : CleanHost host ↔ hostPrefixOf host = host := by
  constructor
  · intro h
    have hself : hostPrefixOf ("" ++ (host ++ "") ++ "") = host :=
      hostPrefixOf_padded rfl h nofun rfl
    rwa [String.append_empty, String.append_empty, String.empty_append] at hself
  · intro h
    obtain ⟨before, slashes, after, hhost, -, -, -, htrimmed⟩ := exists_hostPrefixOf host
    have hlength := congrArg (fun s => s.toList.length) hhost
    simp only [h, String.toList_append, List.length_append] at hlength
    have hslashes : slashes.toList = [] := List.eq_nil_of_length_eq_zero (by omega)
    rw [h, String.toList_append, hslashes, List.append_nil] at htrimmed
    refine ⟨htrimmed, fun c hc => ?_⟩
    rw [← h] at hc
    exact ne_slash_of_getLast?_hostPrefixOf hc

theorem tightHost_iff {host : String} : TightHost host ↔ CleanHost (hostPrefixOf host) := by
  constructor
  · rintro ⟨before, name, slashes, after, rfl, hbefore, hname, hslashes, hafter⟩
    rwa [hostPrefixOf_padded hbefore hname hslashes hafter]
  · intro h
    obtain ⟨before, slashes, after, hhost, hbefore, hafter, hslashes, -⟩ := exists_hostPrefixOf host
    exact ⟨before, _, slashes, after, hhost, hbefore, h, hslashes, hafter⟩

/-! ## The URL of an app -/

namespace App

/-- What comes behind the host in the URL of an app. -/
def invocationPath (app : App) : String :=
  match app.kind with
  | .chat => "/v1/chat-messages"
  | .completion | .workflow => "/v1/workflows/" ++ app.id ++ "/run"

theorem invocationUrl_eq (app : App) (host : String) :
    app.invocationUrl host = hostPrefixOf host ++ app.invocationPath := by
  unfold invocationUrl invocationPath
  cases app.kind <;> simp only [String.append_assoc]

theorem head?_invocationPath (app : App) : app.invocationPath.toList.head? = some '/' := by
  unfold invocationPath
  cases app.kind with
  | chat =>
    show "/v1/chat-messages".toList.head? = some '/'
    decide
  | completion | workflow =>
    rw [String.append_assoc, String.toList_append, List.head?_append]
    rfl

theorem getLast?_invocationPath (app : App) :
    ∃ c, app.invocationPath.toList.getLast? = some c ∧ Text.isBlank c = false := by
  unfold invocationPath
  cases app.kind with
  | chat =>
    show ∃ c, "/v1/chat-messages".toList.getLast? = some c ∧ Text.isBlank c = false
    exact ⟨'s', by decide, by decide⟩
  | completion | workflow =>
    rw [String.toList_append, List.getLast?_append]
    exact ⟨'n', rfl, by decide⟩

theorem trimmed_invocationUrl (app : App) (host : String) :
    Text.Trimmed (app.invocationUrl host).toList := by
  rw [invocationUrl_eq, String.toList_append]
  constructor
  · intro c hc
    rw [List.head?_append, app.head?_invocationPath] at hc
    rcases Option.or_eq_some_iff.1 hc with hc | ⟨-, hc⟩
    · exact not_blank_of_head?_hostPrefixOf hc
    · obtain rfl := Option.some.inj hc
      rfl
  · obtain ⟨d, hlast, hd⟩ := app.getLast?_invocationPath
    intro c hc
    rw [List.getLast?_append, hlast] at hc
    obtain rfl := Option.some.inj hc
    exact hd

theorem invocationUrl_ne_empty (app : App) (host : String) : app.invocationUrl host ≠ "" := by
  intro h
  have hlist := congrArg String.toList h
  rw [invocationUrl_eq, String.toList_append] at hlist
  have hpath := app.head?_invocationPath
  rw [(List.append_eq_nil_iff.1 hlist).2] at hpath
  cases hpath

/-- Two hosts give an app the same URL only if they are the same up to blanks and slashes. -/
theorem invocationUrl_eq_iff (app : App) (host host' : String) :
    app.invocationUrl host = app.invocationUrl host' ↔ hostPrefixOf host = hostPrefixOf host' := by
  rw [invocationUrl_eq, invocationUrl_eq, String.append_left_inj]

end App

/-! ## The two URLs of a connection -/

namespace Connection

/-- The path of the host's description of itself. -/
def infoPath : String := "/v1/info"

/-- The URL at which the host is asked about the app. -/
def infoUrl (c : Connection) : String := c.baseUrl ++ infoPath

/-- Asking the host sends one request to this URL, or none if no request can be made to it. -/
theorem calls_fetchInfo {σ : Type} (c : Connection)
    (peer : Peer Http.Request (fun _ => Option Http.Response) σ) (s : σ) :
    (c.fetchInfo.transcript peer s).2.1 =
      (Http.Request.make .get c.infoUrl (some ("Bearer " ++ c.key)) none none).toOption.toList := by
  rw [infoUrl, infoPath, fetchInfo, infoRequest]
  generalize Http.Request.make .get (c.baseUrl ++ "/v1/info") _ _ _ = request
  cases request with
  | error e => rfl
  | ok r =>
    rw [Dialogue.transcript_calls]
    simp only [Http.exchange, bind, Dialogue.bind, Dialogue.exchanges]
    cases (peer r s).1 with
    | none => rfl
    | some response =>
      dsimp only [Dialogue.bind]
      split <;> rfl

/-- The host is asked, and the app called, at URLs that begin with the same host. -/
def OnOneHost (c : Connection) (app : App) : Prop :=
  ∃ host, c.infoUrl = host ++ infoPath ∧ app.invocationUrl c.baseUrl = host ++ app.invocationPath

theorem onOneHost_iff {c : Connection} {app : App} :
    c.OnOneHost app ↔ hostPrefixOf c.baseUrl = c.baseUrl := by
  constructor
  · rintro ⟨host, hinfo, happ⟩
    obtain rfl : c.baseUrl = host := (String.append_left_inj _).1 hinfo
    exact (String.append_left_inj _).1 ((app.invocationUrl_eq _).symm.trans happ)
  · intro h
    exact ⟨c.baseUrl, rfl, by rw [app.invocationUrl_eq, h]⟩

/-- What taking the prefix of its host does for a connection, and when it does all there is to do. -/
structure Normalises (c : Connection) : Prop where
  /-- The URL of the host's description is the one that is asked. -/
  asks : ∀ {σ : Type} (peer : Peer Http.Request (fun _ => Option Http.Response) σ) (s : σ),
    (c.fetchInfo.transcript peer s).2.1 =
      (Http.Request.make .get c.infoUrl (some ("Bearer " ++ c.key)) none none).toOption.toList
  first_not_blank : ∀ x ∈ c.baseUrl.toList.head?, Text.isBlank x = false
  last_ne_slash : ∀ x ∈ c.baseUrl.toList.getLast?, x ≠ '/'
  clean_iff : CleanHost c.baseUrl ↔ TightHost c.host
  final_iff : hostPrefixOf c.baseUrl = c.baseUrl ↔ TightHost c.host
  onOneHost_iff : ∀ app, c.OnOneHost app ↔ TightHost c.host

/-- **One pass normalises a tight host.** The base URL of a connection never begins with a blank and
never ends with a slash. It is clean, does not change in a further pass, and is the beginning of both
URLs of the connection exactly if no blank stands before the slashes at the end of the host. -/
theorem normalises_tight (c : Connection) : c.Normalises where
  asks := c.calls_fetchInfo
  first_not_blank _ := not_blank_of_head?_hostPrefixOf
  last_ne_slash _ := ne_slash_of_getLast?_hostPrefixOf
  clean_iff := tightHost_iff.symm
  final_iff := cleanHost_iff.symm.trans tightHost_iff.symm
  onOneHost_iff _ := Connection.onOneHost_iff.trans (cleanHost_iff.symm.trans tightHost_iff.symm)

end Connection

/-! ## A blank before a slash -/

/-- A host with a slash that a blank keeps apart. -/
def looseConnection : Connection := ⟨"http://h /", "app-1"⟩

def someChat : App := ⟨"app-1", "One", "", .chat, none⟩

/-- The connection is valid, and its base URL ends with a blank. A further pass changes it, so that
the URL of the app is on another host than the one that is asked, which gets no request at all. -/
theorem blank_before_slash :
    looseConnection.validate = .ok () ∧ looseConnection.baseUrl = "http://h " ∧
      ¬CleanHost looseConnection.baseUrl ∧
      hostPrefixOf looseConnection.baseUrl ≠ looseConnection.baseUrl ∧
      looseConnection.infoUrl = "http://h /v1/info" ∧
      someChat.invocationUrl looseConnection.baseUrl = "http://h/v1/chat-messages" ∧
      ¬looseConnection.OnOneHost someChat ∧
      ∀ {σ : Type} (peer : Peer Http.Request (fun _ => Option Http.Response) σ) (s : σ),
        (looseConnection.fetchInfo.transcript peer s).2.1 = [] := by
  have hprefix : hostPrefixOf looseConnection.baseUrl ≠ looseConnection.baseUrl := by decide
  have hunsent : Http.Request.make .get looseConnection.infoUrl
      (some ("Bearer " ++ looseConnection.key)) none none = .error (.unsuitable none) := by
    decide +kernel
  refine ⟨by decide +kernel, by decide, mt cleanHost_iff.1 hprefix, hprefix, by decide, by decide,
    mt Connection.onOneHost_iff.1 hprefix, fun peer s => ?_⟩
  rw [looseConnection.calls_fetchInfo, hunsent]
  rfl

end Workbench
