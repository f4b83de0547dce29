import Workbench.Proofs.Json.Lookup
import Workbench.Proofs.Text.Blank
import Workbench.Proofs.Text.Integer
import Workbench.Resource.Extension

/-!
# The fields of an extension are read apart

`StatusFrom` and `IdFrom` say, shape by shape, what the member of a field stands for when there is
one. Neither knows of the other members.

* `statusFrom_iff`, `idFrom_iff`: the two lenient readings are these relations;
* `parse_of_latest`: an object becomes the extension of what each name has in it;
* `fields_read_apart`: hence each field follows its own member, whatever else the object has, and a
  text without a value gives the empty extension.
-/
namespace Workbench

open Json (Codec Places membersOf)

/-! ## Statuses -/

namespace DraftStatus

/-- The number of a status; the unknown one has none. -/
def code? : DraftStatus → Option Int
  | .default => some 0
  | .pending => some 1
  | .approved => some 2
  | .rejected => some 3
  | .offline => some 4
  | .unknown => none

/-- The status with this key, or the unknown one if there is none. -/
def Chosen {κ : Type} (key : DraftStatus → Option κ) (k : κ) (s : DraftStatus) : Prop :=
  key s = some k ∨ (s = .unknown ∧ ∀ s', key s' ≠ some k)

/-- The status that a member stands for, or its absence. -/
inductive StatusFrom : Option Json → DraftStatus → Prop
  | absent : StatusFrom none .default
  | null : StatusFrom (some .null) .default
  | code {i : Int64} {status : DraftStatus} :
      Chosen code? i.toInt status → StatusFrom (some (.num (.int i.toInt))) status
  | writtenCode {s : String} {i : Int64} {status : DraftStatus} :
      Text.Signed (Text.trim s).toList i.toInt → Chosen code? i.toInt status →
      StatusFrom (some (.str s)) status
  | name {s : String} {status : DraftStatus} :
      (∀ i : Int64, ¬Text.Signed (Text.trim s).toList i.toInt) →
      Chosen (fun status => some status.name) (Text.trim s) status →
      StatusFrom (some (.str s)) status
  | other {v : Json} : v ≠ .null → (∀ i : Int64, v ≠ .num (.int i.toInt)) → (∀ s, v ≠ .str s) →
      StatusFrom (some v) .unknown

theorem chosen_code_iff {i : Int} {s : DraftStatus} : Chosen code? i s ↔ s = ofCode i := by
  unfold Chosen ofCode
  constructor
  · rintro (h | ⟨rfl, h⟩)
    · cases s <;> cases h <;> rfl
    · have h0 := h .default
      have h1 := h .pending
      have h2 := h .approved
      have h3 := h .rejected
      have h4 := h .offline
      simp only [code?, ne_eq, Option.some.injEq, eq_comm (b := i)] at h0 h1 h2 h3 h4
      simp only [h0, h1, h2, h3, h4, if_false]
  · rintro rfl
    split_ifs with h0 h1 h2 h3 h4
    · exact .inl (congrArg some h0.symm)
    · exact .inl (congrArg some h1.symm)
    · exact .inl (congrArg some h2.symm)
    · exact .inl (congrArg some h3.symm)
    · exact .inl (congrArg some h4.symm)
    · refine .inr ⟨rfl, fun s h => ?_⟩
      cases s <;> cases h <;> contradiction

theorem ofName_name (s : DraftStatus) : ofName s.name = s := by
  cases s <;> decide

theorem ofName_of_not_name {name : String} (h : ∀ s : DraftStatus, s.name ≠ name) :
    ofName name = .unknown := by
  have hnone : choice.variants.find? (·.name == name) = none := by
    rw [List.find?_eq_none]
    intro v hv
    obtain ⟨s, -, rfl⟩ := List.mem_map.mp hv
    rw [beq_iff_eq]
    exact h s
  unfold ofName Json.Choice.lookup
  rw [hnone]
  rfl

theorem chosen_name_iff {name : String} {s : DraftStatus} :
    Chosen (fun s => some s.name) name s ↔ s = ofName name := by
  unfold Chosen
  constructor
  · rintro (h | ⟨rfl, h⟩)
    · cases h
      exact (ofName_name s).symm
    · exact (ofName_of_not_name fun s hs => h s (congrArg some hs)).symm
  · rintro rfl
    by_cases h : ∃ s : DraftStatus, s.name = name
    · obtain ⟨s, rfl⟩ := h
      rw [ofName_name]
      exact .inl rfl
    · rw [not_exists] at h
      exact .inr ⟨ofName_of_not_name h, fun s hs => h s (Option.some.inj hs)⟩

theorem ofCode_of_beyond {i : Int} (h : i < 0 ∨ 5 ≤ i) : ofCode i = .unknown := by
  unfold ofCode
  split_ifs <;> first | omega | rfl

/-- A code that no 64 bits hold is negative or too large for a status to have it. -/
theorem ofJson_int_of_ne {n : Int} (h : ∀ i : Int64, n ≠ i.toInt) :
    ofJson (.num (.int n)) = .unknown := by
  rw [ofJson]
  split
  · rename_i hlt
    have hlow : n < -0x8000000000000000 := by
      by_contra hge
      exact h (Int64.ofInt n) (Int64.toInt_ofInt_of_le (not_lt.mp hge) hlt).symm
    exact ofCode_of_beyond (.inl (by omega))
  · rfl

theorem ofJson_int (i : Int64) : ofJson (.num (.int i.toInt)) = ofCode i.toInt := by
  have hlt : i.toInt < 0x8000000000000000 := Int64.toInt_lt i
  rw [ofJson, if_pos hlt]

theorem ofJson_writtenCode {s : String} {i : Int64}
    (h : Text.Signed (Text.trim s).toList i.toInt) : ofJson (.str s) = ofCode i.toInt := by
  simp only [ofJson, Text.int64?_eq_some_iff.mpr h]

theorem ofJson_name {s : String} (h : ∀ i : Int64, ¬Text.Signed (Text.trim s).toList i.toInt) :
    ofJson (.str s) = ofName (Text.trim s) := by
  have hnone : Text.int64? (Text.trim s) = none := by
    rw [Option.eq_none_iff_forall_not_mem]
    exact fun i hi => h i (Text.int64?_eq_some_iff.mp hi)
  simp only [ofJson, hnone]

theorem statusFrom_ofJson (v : Json) : StatusFrom (some v) (ofJson v) := by
  cases v with
  | null => exact .null
  | num x =>
    cases x with
    | int n =>
      -- an integer of more than 64 bits is none that a code could be
      by_cases h : ∃ i : Int64, n = i.toInt
      · obtain ⟨i, rfl⟩ := h
        rw [ofJson_int]
        exact .code (chosen_code_iff.mpr rfl)
      · rw [not_exists] at h
        rw [ofJson_int_of_ne h]
        exact .other (by simp) (by simpa using h) (by simp)
    | float x => exact .other (by simp) (by simp) (by simp)
  | str s =>
    by_cases h : ∃ i : Int64, Text.Signed (Text.trim s).toList i.toInt
    · obtain ⟨i, hi⟩ := h
      rw [ofJson_writtenCode hi]
      exact .writtenCode hi (chosen_code_iff.mpr rfl)
    · rw [not_exists] at h
      rw [ofJson_name h]
      exact .name h (chosen_name_iff.mpr rfl)
  | bool | arr | obj => exact .other (by simp) (by simp) (by simp)

theorem StatusFrom.eq_ofJson {v : Json} {status : DraftStatus} (h : StatusFrom (some v) status) :
    status = ofJson v := by
  cases h with
  | null => rfl
  | code h => exact (chosen_code_iff.mp h).trans (ofJson_int _).symm
  | writtenCode hs h => exact (chosen_code_iff.mp h).trans (ofJson_writtenCode hs).symm
  | name hs h => exact (chosen_name_iff.mp h).trans (ofJson_name hs).symm
  | other hnull hint hstr =>
    cases v with
    | null => exact absurd rfl hnull
    | str s => exact absurd rfl (hstr s)
    | num x =>
      cases x with
      | int n => exact (ofJson_int_of_ne fun i hi => hint i (hi ▸ rfl)).symm
      | float x => rfl
    | bool | arr | obj => rfl

/-- A member stands for the status that it is read as, and for no other. -/
theorem statusFrom_iff {m : Option Json} {status : DraftStatus} :
    StatusFrom m status ↔ status = (m.map ofJson).getD .default := by
  cases m with
  | none =>
    constructor
    · rintro ⟨⟩
      rfl
    · rintro rfl
      exact .absent
  | some v => exact ⟨StatusFrom.eq_ofJson, fun h => h ▸ statusFrom_ofJson v⟩

end DraftStatus

/-! ## Plugin ids -/

namespace Extension

/-- The plugin id that a member stands for, or its absence. -/
inductive IdFrom : Option Json → UInt64 → Prop
  | number (id : UInt64) : IdFrom (some (.num (.int id.toNat))) id
  | written {s : String} {id : UInt64} :
      Text.Unsigned (Text.trim s).toList id.toNat → IdFrom (some (.str s)) id
  | other {m : Option Json} : (∀ id : UInt64, m ≠ some (.num (.int id.toNat))) →
      (∀ s, m = some (.str s) → ∀ id : UInt64, ¬Text.Unsigned (Text.trim s).toList id.toNat) →
      IdFrom m 0

theorem idOfJson_number (id : UInt64) : idOfJson (.num (.int id.toNat)) = id := by
  have hbounds := Json.uint64_bounds id
  rw [idOfJson_int, if_pos ⟨hbounds.1, by omega⟩]
  exact UInt64.ofNat_toNat

theorem toNat_ofNat_toNat {n : Int} (hn : 0 ≤ n ∧ n < 0x10000000000000000) :
    ((UInt64.ofNat n.toNat).toNat : Int) = n := by
  rw [UInt64.toNat_ofNat_of_lt' (by simp [UInt64.size]; omega)]
  omega

theorem idOfJson_int_of_ne {n : Int} (h : ∀ id : UInt64, n ≠ id.toNat) :
    idOfJson (.num (.int n)) = 0 := by
  rw [idOfJson_int, if_neg]
  intro hn
  exact h (UInt64.ofNat n.toNat) (toNat_ofNat_toNat hn).symm

theorem idOfJson_written {s : String} {id : UInt64}
    (h : Text.Unsigned (Text.trim s).toList id.toNat) : idOfJson (.str s) = id := by
  rw [idOfJson, Text.uint64?_eq_some_iff.mpr h]
  rfl

theorem idOfJson_not_written {s : String}
    (h : ∀ id : UInt64, ¬Text.Unsigned (Text.trim s).toList id.toNat) :
    idOfJson (.str s) = 0 := by
  have hnone : Text.uint64? (Text.trim s) = none := by
    rw [Option.eq_none_iff_forall_not_mem]
    exact fun id hid => h id (Text.uint64?_eq_some_iff.mp hid)
  rw [idOfJson, hnone]
  rfl

theorem idFrom_idOfJson (v : Json) : IdFrom (some v) (idOfJson v) := by
  cases v with
  | num x =>
    cases x with
    | int n =>
      by_cases h : ∃ id : UInt64, n = id.toNat
      · obtain ⟨id, rfl⟩ := h
        rw [idOfJson_number]
        exact .number id
      · rw [not_exists] at h
        rw [idOfJson_int_of_ne h]
        exact .other (by simpa using h) (by simp)
    | float x => exact .other (by simp) (by simp)
  | str s =>
    by_cases h : ∃ id : UInt64, Text.Unsigned (Text.trim s).toList id.toNat
    · obtain ⟨id, hid⟩ := h
      rw [idOfJson_written hid]
      exact .written hid
    · rw [not_exists] at h
      rw [idOfJson_not_written h]
      exact .other (by simp) (by simpa using h)
  | null | bool | arr | obj => exact .other (by simp) (by simp)

theorem IdFrom.eq_idOfJson {v : Json} {id : UInt64} (h : IdFrom (some v) id) :
    id = idOfJson v := by
  cases h with
  | number => exact (idOfJson_number id).symm
  | written h => exact (idOfJson_written h).symm
  | other hnumber hwritten =>
    cases v with
    | num x =>
      cases x with
      | int n => exact (idOfJson_int_of_ne fun id hid => hnumber id (hid ▸ rfl)).symm
      | float x => rfl
    | str s => exact (idOfJson_not_written (hwritten s rfl)).symm
    | null | bool | arr | obj => rfl

/-- A member stands for the id that it is read as, and for no other. -/
theorem idFrom_iff {m : Option Json} {id : UInt64} :
    IdFrom m id ↔ id = (m.map idOfJson).getD 0 := by
  cases m with
  | none =>
    constructor
    · rintro ⟨⟩
      rfl
    · rintro rfl
      exact .other (by simp) (by simp)
  | some v => exact ⟨IdFrom.eq_idOfJson, fun h => h ▸ idFrom_idOfJson v⟩

/-! ## Extensions -/

variable {text : String} {vs : List (String × Json)} {ms : Places}

theorem fields_spanning : fields.Spanning :=
  ⟨Json.lenient_spanning, Json.lenient_spanning, trivial⟩

theorem parse_some (h : Text.trim text ≠ "") {e : Extension}
    (hparse : codec.parse (Text.bytes (Text.trim text)) = .ok e) : parse (some text) = e := by
  rw [parse, Option.map_some, Option.filter_some, if_pos (bne_iff_ne.mpr h)]
  simp only [hparse]

/-- An object becomes the extension of the members that its fields have. -/
theorem parse_of_once {status id : Option Json}
    (hms : membersOf (Text.bytes (Text.trim text)) = .ok ms)
    (hstatus : ms.Once (Json.maxNesting - 1) "product_draft_status" status)
    (hid : ms.Once (Json.maxNesting - 1) "plugin_id" id) :
    parse (some text) =
      ⟨(status.map DraftStatus.ofJson).getD .default, (id.map idOfJson).getD 0⟩ := by
  have hne : Text.trim text ≠ "" := by
    intro hempty
    rw [hempty] at hms
    cases hms
  apply parse_some hne
  refine (Json.record_parse_iff fields_spanning (by decide) hms).mpr ?_
  exact ⟨(_, _, ()), ⟨(Json.lenient_says_iff hstatus).mpr rfl,
    (Json.lenient_says_iff hid).mpr rfl, trivial⟩, rfl⟩

/-- An object becomes the extension of what each name has in it. -/
theorem parse_of_latest (hms : membersOf (Text.bytes (Text.trim text)) = .ok ms)
    (hlatest : ms.Latest (Json.maxNesting - 1) vs)
    (hstatus : (ms.found "product_draft_status").length ≤ 1)
    (hid : (ms.found "plugin_id").length ≤ 1) :
    parse (some text) =
      ⟨((vs.lookup "product_draft_status").map DraftStatus.ofJson).getD .default,
        ((vs.lookup "plugin_id").map idOfJson).getD 0⟩ :=
  parse_of_once hms (Json.once_of_latest hlatest hstatus) (Json.once_of_latest hlatest hid)

theorem parse_of_not_isJson (h : ¬Json.IsJson (Text.bytes (Text.trim text))) :
    parse (some text) = empty := by
  rw [parse]
  split
  · rfl
  · rename_i trimmed htrimmed
    obtain ⟨htrim, -⟩ := Option.filter_eq_some_iff.mp htrimmed
    cases htrim
    cases hparse : codec.parse (Text.bytes (Text.trim text)) with
    | ok e => exact absurd (Json.isJson_of_parse (Json.record_spanning fields_spanning) hparse) h
    | error => rfl

/-- **The fields of an extension are read apart.** In an object that repeats neither of their names,
each follows its own member, whatever the other and all further members are; a text that is absent,
blank or no JSON gives the empty extension. -/
theorem fields_read_apart (raw : Option String) :
    (∀ text vs, raw = some text → Json.read (Text.bytes (Text.trim text)) = .ok (.obj vs) →
      ∃ ms, membersOf (Text.bytes (Text.trim text)) = .ok ms ∧
        ((ms.found "product_draft_status").length ≤ 1 → (ms.found "plugin_id").length ≤ 1 →
          (∀ id, IdFrom (vs.lookup "plugin_id") id ↔ (parse raw).pluginId = id) ∧
          ∀ status, DraftStatus.StatusFrom (vs.lookup "product_draft_status") status ↔
            (parse raw).draftStatus = status)) ∧
    ((∀ text, raw = some text →
        Text.isBlankText text = true ∨ ¬Json.IsJson (Text.bytes (Text.trim text))) →
      parse raw = empty) := by
  constructor
  · rintro text vs rfl hread
    obtain ⟨ms, hms, hlatest⟩ := Json.latest_of_read hread
    refine ⟨ms, hms, fun hstatus hid => ?_⟩
    rw [parse_of_latest hms hlatest hstatus hid]
    exact ⟨fun id => idFrom_iff.trans eq_comm,
      fun status => DraftStatus.statusFrom_iff.trans eq_comm⟩
  · intro h
    cases raw with
    | none => rfl
    | some text =>
      rcases h text rfl with hblank | hno
      · rw [parse, Option.map_some, Text.trim_of_isBlankText hblank]
        rfl
      · exact parse_of_not_isJson hno

/-- An id in digits beside a status of no known shape. -/
def sample : String :=
  "\x7b\"plugin_id\":\" +88\",\"x\":[null],\"product_draft_status\":\x7b\x7d\x7d"

/-- A text that breaks off. -/
def broken : String := "\x7b\"plugin_id\":88"

theorem fields_read_apart_sample :
    (∃ vs, Json.read (Text.bytes (Text.trim sample)) = .ok (.obj vs)) ∧
      (parse (some sample)).pluginId = 88 ∧ (parse (some sample)).draftStatus = .unknown ∧
      ¬Json.IsJson (Text.bytes (Text.trim broken)) ∧ parse (some broken) = empty := by
  have htrim : Text.trim sample = sample := by decide +kernel
  have hread : Json.read (Text.bytes sample) = .ok (.obj [("plugin_id", .str " +88"),
      ("product_draft_status", .obj []), ("x", .arr [.null])]) := rfl
  rw [← htrim] at hread
  have hmembers : membersOf (Text.bytes sample) = .ok [
      ("plugin_id", Text.bytes "\" +88\",\"x\":[null],\"product_draft_status\":\x7b\x7d\x7d"),
      ("x", Text.bytes "[null],\"product_draft_status\":\x7b\x7d\x7d"),
      ("product_draft_status", Text.bytes "\x7b\x7d\x7d")] := rfl
  obtain ⟨ms, hms, hfields⟩ := (fields_read_apart (some sample)).1 _ _ rfl hread
  rw [htrim, hmembers, Except.ok.injEq] at hms
  subst hms
  obtain ⟨hid, hstatus⟩ := hfields (by decide) (by decide)
  have hwritten : IdFrom (some (.str " +88")) 88 := by
    have hplus : (Text.trim " +88").toList = ['+', '8', '8'] := by decide +kernel
    apply IdFrom.written
    rw [hplus]
    exact .plus ⟨by simp, by simp, by decide⟩
  have hbroken : ¬Json.IsJson (Text.bytes (Text.trim broken)) := by
    have htrim : Text.trim broken = broken := by decide +kernel
    rw [htrim]
    exact fun h => nomatch h
  refine ⟨⟨_, hread⟩, (hid 88).mp hwritten, ?_, hbroken, ?_⟩
  · exact (hstatus .unknown).mp (.other (by simp) (by simp) (by simp))
  · exact (fields_read_apart (some broken)).2 fun text htext => by
      cases htext
      exact .inr hbroken

end Extension

end Workbench
