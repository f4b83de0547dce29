import Workbench.Cli.Run
import Workbench.Proofs.Dialogue
import Workbench.Proofs.Json.Decoding
import Workbench.Proofs.Text.Utf8
import Workbench.Proofs.Toml.Equality
import Workbench.Proofs.Toml.Tidy

/-!
# Settings from a file

A file may give any of the keys that settings have. The settings that are loaded are then the
standard ones with the values that were given, and no key stands in the way of another, with one
exception: the section of the backend counts only with a URL in it, and one without a URL takes the
whole file with it.

* `decode_given`, `not_decode_of_no_url`: the settings that the table of a file is decoded to;
* `loaded_settings`: what is loaded from any file that is TOML with well-typed values;
* `token_without_url_loses_all`: a token without a URL beside it loses the user as well.
-/
namespace Workbench.Cli

open Dialogue (Exchange Yields)
open Json (Codec)

/-! ## What a file gives -/

/-- The keys that a file gives, each with its value. -/
structure Given where
  exportDir : Option String := none
  baseUrl : Option String := none
  token : Option String := none
  cookie : Option String := none
  timeoutSeconds : Option UInt64 := none
  userId : Option String := none
  spaceId : Option String := none
  publish : Option Bool := none
  imageflowPublish : Option Bool := none
  transferOut : Option Bool := none
  transferIn : Option Bool := none
  host : Option String := none
  apiKey : Option String := none
  scanMode : Option ScanMode := none

/-- The standard settings with the given values in their places. -/
def Given.settings (g : Given) : Settings :=
  let d := Settings.standard
  { exportDir := g.exportDir.or d.exportDir
    backend := ⟨g.baseUrl.getD d.backend.baseUrl, g.token.or d.backend.token,
      g.cookie.or d.backend.cookie, g.timeoutSeconds.getD d.backend.timeoutSeconds⟩
    user := ⟨g.userId.or d.user.id, g.spaceId.or d.user.spaceId⟩
    flags := ⟨g.publish.getD d.flags.publish, g.imageflowPublish.getD d.flags.imageflowPublish,
      g.transferOut.getD d.flags.transferOut, g.transferIn.getD d.flags.transferIn⟩
    host := ⟨g.host.or d.host.host, g.apiKey.or d.host.apiKey, g.scanMode.getD d.host.scanMode⟩ }

/-- What stands under a key of a section. -/
def under (sectionName key : String) (entries : List (String × Toml)) : Option Toml :=
  match entries.lookup sectionName with
  | some (.table inner) => inner.lookup key
  | _ => none

/-- The table of a file gives these values and, under the keys of settings, no others. -/
structure Gives (entries : List (String × Toml)) (g : Given) : Prop where
  sections : ∀ name ∈ ["backend", "user", "flags", "dify"], ∀ v, entries.lookup name = some v →
    ∃ inner, v = .table inner
  exportDir : entries.lookup "export_dir" = g.exportDir.map .string
  baseUrl : under "backend" "base_url" entries = g.baseUrl.map .string
  token : under "backend" "token" entries = g.token.map .string
  cookie : under "backend" "cookie" entries = g.cookie.map .string
  timeoutSeconds : under "backend" "timeout_secs" entries =
    g.timeoutSeconds.map fun n => .integer n.toNat
  userId : under "user" "id" entries = g.userId.map .string
  spaceId : under "user" "space_id" entries = g.spaceId.map .string
  publish : under "flags" "publish_enabled" entries = g.publish.map .boolean
  imageflowPublish : under "flags" "imageflow_publish_enabled" entries =
    g.imageflowPublish.map .boolean
  transferOut : under "flags" "export_enabled" entries = g.transferOut.map .boolean
  transferIn : under "flags" "import_enabled" entries = g.transferIn.map .boolean
  host : under "dify" "host" entries = g.host.map .string
  apiKey : under "dify" "api_key" entries = g.apiKey.map .string
  scanMode : under "dify" "scan_mode" entries = g.scanMode.map fun m => .string m.name

/-! ## Fields of a table -/

section Fields

variable {α β : Type} {es : List (String × Toml)} {name : String} {g : Option β} {toToml : β → Toml}

theorem keys_entriesToJson (es : List (String × Toml)) :
    (Toml.entriesToJson es).map Prod.fst = es.map Prod.fst := by
  induction es with
  | nil => rfl
  | cons e es ih =>
    obtain ⟨k, v⟩ := e
    rw [Toml.entriesToJson, List.map_cons, List.map_cons, ih]

theorem lookup_entriesToJson (es : List (String × Toml)) (name : String) :
    (Toml.entriesToJson es).lookup name = (es.lookup name).map Toml.toJson := by
  induction es with
  | nil => rfl
  | cons e es ih =>
    obtain ⟨k, v⟩ := e
    rw [Toml.entriesToJson, List.lookup_cons, List.lookup_cons, ih]
    split <;> rfl

/-- A field that is decoded from whatever may be given under its name. -/
theorem decodes_of_given {f : Json.Field α} {a : α} (h : es.lookup name = g.map toToml)
    (hnone : g = none → f.absent = .inObject a ∨ f.absent = .default a)
    (hsome : ∀ b, g = some b → f.codec.decode (toToml b).toJson = .ok a) :
    f.Decodes ((Toml.entriesToJson es).lookup name) a := by
  rw [lookup_entriesToJson, h]
  cases g with
  | none => exact hnone rfl
  | some b => exact hsome b rfl

theorem optional_decodes {o : Option String} (h : es.lookup name = o.map .string) :
    (Json.Field.optional name .string).Decodes ((Toml.entriesToJson es).lookup name) (o.or none) :=
  decodes_of_given h (fun hnone => .inr (by rw [hnone]; rfl)) fun b hb => by rw [hb]; rfl

theorem nullable_decodes {o : Option String} (h : es.lookup name = o.map .string) :
    (Json.Field.nullable name .string).Decodes ((Toml.entriesToJson es).lookup name) (o.or none) :=
  decodes_of_given h (fun hnone => .inl (by rw [hnone]; rfl)) fun b hb => by rw [hb]; rfl

theorem default_decodes {c : Codec β} {d : β} (h : es.lookup name = g.map toToml)
    (hdecode : ∀ b, c.decode (toToml b).toJson = .ok b) :
    (Json.Field.default name c d).Decodes ((Toml.entriesToJson es).lookup name) (g.getD d) :=
  decodes_of_given h (fun hnone => .inr (by rw [hnone]; rfl)) fun b hb => by
    rw [hb]
    exact hdecode b

end Fields

/-! ## Sections -/

section Sections

variable {σ β : Type} {entries inner : List (String × Toml)} {g : Given} {name key : String}

theorem under_of_table (h : entries.lookup name = some (.table inner)) (key : String) :
    under name key entries = inner.lookup key := by
  rw [under, h]

/-- A section that is absent gives nothing. -/
theorem not_given_of_absent {o : Option β} {toToml : β → Toml} (habsent : entries.lookup name = none)
    (h : under name key entries = o.map toToml) : o = none := by
  rw [under, habsent] at h
  exact Option.map_eq_none_iff.mp h.symm

theorem nodup_entriesToJson (h : (Toml.table inner).Tidy) :
    ((Toml.entriesToJson inner).map Prod.fst).Nodup := by
  rw [keys_entriesToJson]
  cases h
  assumption

theorem tidy_of_lookup {v : Toml} (h : (Toml.table entries).Tidy)
    (hlookup : entries.lookup name = some v) : v.Tidy := by
  obtain ⟨l₁, l₂, rfl, -⟩ := List.lookup_eq_some_iff.mp hlookup
  cases h with
  | table _ hvalues => exact hvalues (name, v) (by simp)

/-- A section, as it is decoded where it is present and as it is where it is absent. -/
theorem section_decodes {c : Codec σ} {d a : σ}
    (hname : name ∈ ["backend", "user", "flags", "dify"]) (h : Gives entries g)
    (habsent : entries.lookup name = none → a = d)
    (hpresent : ∀ inner, entries.lookup name = some (.table inner) →
      c.decode (.obj (Toml.entriesToJson inner)) = .ok a) :
    (Json.Field.default name c d).Decodes ((Toml.entriesToJson entries).lookup name) a := by
  rw [lookup_entriesToJson]
  cases hlookup : entries.lookup name with
  | none => exact .inr (by rw [habsent hlookup]; rfl)
  | some v =>
    obtain ⟨inner, rfl⟩ := h.sections name hname v hlookup
    exact hpresent inner hlookup

variable (htidy : (Toml.table inner).Tidy) (h : Gives entries g)

include htidy h

theorem backend_decode (hinner : entries.lookup "backend" = some (.table inner))
    (hurl : g.baseUrl ≠ none) :
    BackendSettings.codec.decode (.obj (Toml.entriesToJson inner)) = .ok g.settings.backend := by
  have hunder {key : String} := under_of_table hinner key
  have hbaseUrl : (Json.Field.required "base_url" .string).Decodes
      ((Toml.entriesToJson inner).lookup "base_url") (g.baseUrl.getD BackendSettings.standard.baseUrl) :=
    decodes_of_given (hunder ▸ h.baseUrl) (fun hnone => absurd hnone hurl)
      fun url heq => by rw [heq]; rfl
  have htimeout (n : UInt64) : Codec.uint64.decode (Toml.integer n.toNat).toJson = .ok n :=
    (Json.uint64_lawful n 0).rereads
  exact (Json.record_decode_iff (by decide) (nodup_entriesToJson htidy)).mpr
    ⟨(_, _, _, _, ()), ⟨hbaseUrl, optional_decodes (hunder ▸ h.token),
      optional_decodes (hunder ▸ h.cookie), default_decodes (hunder ▸ h.timeoutSeconds) htimeout,
      trivial⟩, rfl⟩

/-- A backend has to have a URL. -/
theorem not_backend_decode (hinner : entries.lookup "backend" = some (.table inner))
    (hurl : g.baseUrl = none) (b : BackendSettings) :
    BackendSettings.codec.decode (.obj (Toml.entriesToJson inner)) ≠ .ok b := by
  intro hdecode
  obtain ⟨row, ⟨hbaseUrl, -⟩, -⟩ :=
    (Json.record_decode_iff (by decide) (nodup_entriesToJson htidy)).mp hdecode
  have hmissing : inner.lookup "base_url" = none := by
    rw [← under_of_table hinner, h.baseUrl, hurl]
    rfl
  dsimp only [Json.Field.required] at hbaseUrl
  rw [lookup_entriesToJson, hmissing] at hbaseUrl
  rcases hbaseUrl with habsent | habsent <;> cases habsent

theorem user_decode (hinner : entries.lookup "user" = some (.table inner)) :
    UserSettings.codec.decode (.obj (Toml.entriesToJson inner)) = .ok g.settings.user := by
  have hunder {key : String} := under_of_table hinner key
  exact (Json.record_decode_iff (by decide) (nodup_entriesToJson htidy)).mpr
    ⟨(_, _, ()), ⟨nullable_decodes (hunder ▸ h.userId), nullable_decodes (hunder ▸ h.spaceId),
      trivial⟩, rfl⟩

theorem flags_decode (hinner : entries.lookup "flags" = some (.table inner)) :
    Flags.codec.decode (.obj (Toml.entriesToJson inner)) = .ok g.settings.flags := by
  have hunder {key : String} := under_of_table hinner key
  have hbool (b : Bool) : Codec.bool.decode (Toml.boolean b).toJson = .ok b := rfl
  exact (Json.record_decode_iff (by decide) (nodup_entriesToJson htidy)).mpr
    ⟨(_, _, _, _, ()), ⟨default_decodes (hunder ▸ h.publish) hbool,
      default_decodes (hunder ▸ h.imageflowPublish) hbool,
      default_decodes (hunder ▸ h.transferOut) hbool,
      default_decodes (hunder ▸ h.transferIn) hbool, trivial⟩, rfl⟩

theorem host_decode (hinner : entries.lookup "dify" = some (.table inner)) :
    HostSettings.codec.decode (.obj (Toml.entriesToJson inner)) = .ok g.settings.host := by
  have hunder {key : String} := under_of_table hinner key
  have hmode (m : ScanMode) : ScanMode.codec.decode (Toml.string m.name).toJson = .ok m := by
    cases m <;> rfl
  exact (Json.record_decode_iff (by decide) (nodup_entriesToJson htidy)).mpr
    ⟨(_, _, _, ()), ⟨nullable_decodes (hunder ▸ h.host), nullable_decodes (hunder ▸ h.apiKey),
      default_decodes (hunder ▸ h.scanMode) hmode, trivial⟩, rfl⟩

end Sections

/-! ## Whole files -/

section Files

variable {entries : List (String × Toml)} {g : Given}

/-- Sections that are absent are the standard ones. -/
theorem standard_of_absent (h : Gives entries g) :
    (entries.lookup "backend" = none → g.settings.backend = .standard) ∧
      (entries.lookup "user" = none → g.settings.user = Settings.standard.user) ∧
      (entries.lookup "flags" = none → g.settings.flags = .standard) ∧
      (entries.lookup "dify" = none → g.settings.host = Settings.standard.host) := by
  refine ⟨fun habsent => ?_, fun habsent => ?_, fun habsent => ?_, fun habsent => ?_⟩
  · simp only [Given.settings, not_given_of_absent habsent h.baseUrl,
      not_given_of_absent habsent h.token, not_given_of_absent habsent h.cookie,
      not_given_of_absent habsent h.timeoutSeconds]
    rfl
  · simp only [Given.settings, not_given_of_absent habsent h.userId,
      not_given_of_absent habsent h.spaceId]
    rfl
  · simp only [Given.settings, not_given_of_absent habsent h.publish,
      not_given_of_absent habsent h.imageflowPublish, not_given_of_absent habsent h.transferOut,
      not_given_of_absent habsent h.transferIn]
    rfl
  · simp only [Given.settings, not_given_of_absent habsent h.host,
      not_given_of_absent habsent h.apiKey, not_given_of_absent habsent h.scanMode]
    rfl

variable (htidy : (Toml.table entries).Tidy) (h : Gives entries g)

include htidy h

/-- The given values replace the standard ones, if a backend has a URL. -/
theorem decode_given (hurl : entries.lookup "backend" ≠ none → g.baseUrl ≠ none) :
    Settings.codec.decode (Toml.table entries).toJson = .ok g.settings := by
  obtain ⟨hbackend, huser, hflags, hhost⟩ := standard_of_absent h
  refine (Json.record_decode_iff (by decide) (nodup_entriesToJson htidy)).mpr
    ⟨(_, _, _, _, _, ()), ⟨optional_decodes h.exportDir,
      section_decodes (by decide) h hbackend fun inner hinner => ?_,
      section_decodes (by decide) h huser fun inner hinner => ?_,
      section_decodes (by decide) h hflags fun inner hinner => ?_,
      section_decodes (by decide) h hhost fun inner hinner => ?_, trivial⟩, rfl⟩
  · have hpresent : entries.lookup "backend" ≠ none := by rw [hinner]; simp
    exact backend_decode (tidy_of_lookup htidy hinner) h hinner (hurl hpresent)
  · exact user_decode (tidy_of_lookup htidy hinner) h hinner
  · exact flags_decode (tidy_of_lookup htidy hinner) h hinner
  · exact host_decode (tidy_of_lookup htidy hinner) h hinner

/-- A backend without a URL makes the whole table unreadable. -/
theorem not_decode_of_no_url (hbackend : entries.lookup "backend" ≠ none)
    (hurl : g.baseUrl = none) (s : Settings) :
    Settings.codec.decode (Toml.table entries).toJson ≠ .ok s := by
  intro hdecode
  obtain ⟨v, hlookup⟩ := Option.ne_none_iff_exists'.mp hbackend
  obtain ⟨inner, rfl⟩ := h.sections "backend" (by decide) v hlookup
  obtain ⟨row, ⟨-, hsection, -⟩, -⟩ :=
    (Json.record_decode_iff (by decide) (nodup_entriesToJson htidy)).mp hdecode
  dsimp only [Json.Field.default] at hsection
  rw [lookup_entriesToJson, hlookup] at hsection
  exact not_backend_decode (tidy_of_lookup htidy hlookup) h hlookup hurl _ hsection

end Files

/-- What is said when settings are loaded from a file that is there. -/
def reading (path : String) (contents : List UInt8) : List (Exchange Call Call.Reply) :=
  [⟨.files (.doesExist path), true⟩, ⟨.files (.read path), .ok contents⟩]

theorem yields_loadSettings {path : String} {contents : List UInt8} {s : Settings} :
    Yields (loadSettings (some path)) (reading path contents) s ↔ s = .ofFile contents := by
  constructor
  · intro h
    rcases h with _ | ⟨_, _ | ⟨_, _ | _⟩⟩
    rfl
  · rintro rfl
    exact .ask _ (.ask _ (.done _))

/-- **The settings that are loaded from a file** are the standard ones with the given values in
their places. Only a section for a backend without a URL makes the file count as empty. -/
theorem loaded_settings {path document : String} {contents : List UInt8}
    {entries : List (String × Toml)} {g : Given} {s : Settings}
    (hcontents : Text.ofBytes? contents = some document)
    (hdocument : Toml.parse document = some (.table entries)) (h : Gives entries g) :
    Yields (loadSettings (some path)) (reading path contents) s ↔
      s = if (entries.lookup "backend").isSome ∧ g.baseUrl = none then .standard
        else g.settings := by
  have htidy := Toml.tidy_of_parse hdocument
  have hfile : Settings.ofFile contents =
      ((Settings.codec.decode (Toml.table entries).toJson).toOption).getD .standard := by
    simp only [Settings.ofFile, hcontents, Option.bind_some, Settings.ofToml?, hdocument]
    rfl
  rw [yields_loadSettings, hfile]
  -- a table that cannot be decoded counts as empty, whatever else is in it
  split
  · rename_i hlost
    have hbackend : entries.lookup "backend" ≠ none := Option.isSome_iff_ne_none.mp hlost.1
    cases hdecode : Settings.codec.decode (Toml.table entries).toJson with
    | error => rfl
    | ok s => exact absurd hdecode (not_decode_of_no_url htidy h hbackend hlost.2 s)
  · rename_i hkept
    rw [decode_given htidy h fun hbackend hurl =>
      hkept ⟨Option.isSome_iff_ne_none.mpr hbackend, hurl⟩]
    rfl

/-! ## Two files -/

/-- Some keys of each section. -/
def sampleFile : String :=
  "[backend]\nbase_url = \"https://coze.internal\"\ntimeout_secs = 5\n\n[user]\nid = \"u1\"\n\n" ++
    "[flags]\npublish_enabled = true\n\n[dify]\nscan_mode = \"mock\"\n"

def sampleEntries : List (String × Toml) :=
  [("backend", .table [("base_url", .string "https://coze.internal"), ("timeout_secs", .integer 5)]),
    ("user", .table [("id", .string "u1")]), ("flags", .table [("publish_enabled", .boolean true)]),
    ("dify", .table [("scan_mode", .string "mock")])]

def sampleGiven : Given where
  baseUrl := some "https://coze.internal"
  timeoutSeconds := some 5
  userId := some "u1"
  publish := some true
  scanMode := some .mock

theorem loaded_settings_sample :
    Toml.parse sampleFile = some (.table sampleEntries) ∧ Gives sampleEntries sampleGiven ∧
      Yields (loadSettings (some "config.toml")) (reading "config.toml" (Text.bytes sampleFile))
        sampleGiven.settings := by
  have hparse : Toml.parse sampleFile = some (.table sampleEntries) := by decide +kernel
  have hgives : Gives sampleEntries sampleGiven := by
    constructor
    case sections => simp [sampleEntries, List.lookup]
    all_goals decide +kernel
  exact ⟨hparse, hgives,
    (loaded_settings (Text.ofBytes?_bytes sampleFile) hparse hgives).mpr (by decide +kernel)⟩

/-- A token for whatever backend is asked, and a user. -/
def tokenFile : String := "[backend]\ntoken = \"tok\"\n\n[user]\nid = \"u1\"\n"

def tokenEntries : List (String × Toml) :=
  [("backend", .table [("token", .string "tok")]), ("user", .table [("id", .string "u1")])]

def tokenGiven : Given where
  token := some "tok"
  userId := some "u1"

/-- A token without a URL beside it is lost, and the user with it. -/
theorem token_without_url_loses_all :
    Toml.parse tokenFile = some (.table tokenEntries) ∧ Gives tokenEntries tokenGiven ∧
      Yields (loadSettings (some "config.toml")) (reading "config.toml" (Text.bytes tokenFile))
        .standard ∧
      tokenGiven.settings ≠ .standard ∧ Settings.standard.user.id = none := by
  refine ⟨by decide +kernel, ?_, yields_loadSettings.mpr (by decide +kernel), by decide, rfl⟩
  constructor
  case sections => simp [tokenEntries, List.lookup]
  all_goals decide +kernel

end Workbench.Cli
