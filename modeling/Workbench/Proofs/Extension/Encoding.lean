import Workbench.Proofs.Extension
import Workbench.Proofs.Json.Items
import Workbench.Proofs.Json.Notation

/-!
# Integers as numbers and as texts

The fields of an extension hold integers, some front ends writing them as numbers and others as
texts. The two are read along different ways: a number keeps its sign and size only within 64 bits
and is a float beyond, while the digits of a text are put together anew, with limits of their own.

* `parse_of_written`: an extension is made of the values that its text has for the two fields, be
  the text an object or an array (`Written`);
* `toNat_idOfJson_number`, `toNat_idOfJson_text`: an id of 64 bits is taken either way, and all else
  stands for none;
* `ofJson_number`, `ofJson_text`: the status is that of the code either way;
* `encodings_agree`: hence it does not matter which way an integer is written.
-/
namespace Workbench

open Json (Codec Places membersOf)

variable {i : Int} {before after text : String} {v : Json} {status id : Option Json}

/-- There is no blank in the notation of an integer. -/
theorem trimmed_toString (i : Int) : Text.Trimmed (toString i).toList := by
  apply Text.trimmed_of_forall
  intro c hc
  rw [Text.toList_toString, List.mem_append] at hc
  rcases hc with hsign | hdigit
  · split at hsign
    · obtain rfl := List.mem_singleton.mp hsign
      rfl
    · cases hsign
  · exact Json.not_blank_of_isDigit (Nat.isDigit_of_mem_toDigits (by decide) (by decide) hdigit)

theorem trim_toString (hbefore : Text.isBlankText before = true)
    (hafter : Text.isBlankText after = true) :
    Text.trim (before ++ toString i ++ after) = toString i :=
  Text.trim_padded hbefore (trimmed_toString i) hafter

/-! ## Statuses -/

namespace DraftStatus

/-- A number has the status of its code, also where it is too large to be one. -/
theorem ofJson_number (h : Json.read (Text.bytes (toString i)) = .ok v) : ofJson v = ofCode i := by
  rcases Json.number_of_read_toString h with ⟨-, rfl⟩ | ⟨hbeyond, x, rfl⟩
  · rw [ofJson]
    split
    · rfl
    · exact (ofCode_of_beyond (.inr (by omega))).symm
  · have hout : i < 0 ∨ 5 ≤ i := by
      by_contra hin
      exact hbeyond ⟨by omega, by omega⟩
    exact (ofCode_of_beyond hout).symm

theorem not_signed_name (s : DraftStatus) : ¬Text.Signed s.name.toList i := by
  cases s <;> exact Text.not_signed_cons rfl (by decide) (by decide)

/-- So has a text; if it is no code of 64 bits, it is no name of a status either. -/
theorem ofJson_text (hbefore : Text.isBlankText before = true)
    (hafter : Text.isBlankText after = true) :
    ofJson (.str (before ++ toString i ++ after)) = ofCode i := by
  have hwritten (k : Int64) :
      Text.Signed (Text.trim (before ++ toString i ++ after)).toList k.toInt ↔ k.toInt = i := by
    rw [trim_toString hbefore hafter, Text.signed_toString_iff]
  by_cases hcode : -0x8000000000000000 ≤ i ∧ i < 0x8000000000000000
  · have hk : (Int64.ofInt i).toInt = i := Int64.toInt_ofInt_of_le hcode.1 hcode.2
    rw [ofJson_writtenCode ((hwritten _).mpr hk), hk]
  · have hno (k : Int64) : k.toInt ≠ i := by
      rintro rfl
      exact hcode ⟨Int64.le_toInt k, Int64.toInt_lt k⟩
    have hname (s : DraftStatus) : s.name ≠ toString i := by
      intro h
      exact not_signed_name s (h ▸ Text.signed_toString_iff.mpr rfl)
    rw [ofJson_name fun k => (hwritten k).not.mpr (hno k), trim_toString hbefore hafter,
      ofName_of_not_name hname, ofCode_of_beyond (by omega)]

end DraftStatus

/-! ## Plugin ids -/

namespace Extension

theorem toNat_idOfJson_number (h : Json.read (Text.bytes (toString i)) = .ok v) :
    ((idOfJson v).toNat : Int) = if 0 ≤ i ∧ i < 0x10000000000000000 then i else 0 := by
  rcases Json.number_of_read_toString h with ⟨-, rfl⟩ | ⟨hbeyond, x, rfl⟩
  · rw [idOfJson_int]
    split
    · rename_i hid
      exact toNat_ofNat_toNat hid
    · rfl
  · rw [if_neg]
    · rfl
    · rintro ⟨hpos, hlt⟩
      exact hbeyond ⟨by omega, hlt⟩

theorem toNat_idOfJson_text (hbefore : Text.isBlankText before = true)
    (hafter : Text.isBlankText after = true) :
    ((idOfJson (.str (before ++ toString i ++ after))).toNat : Int) =
      if 0 ≤ i ∧ i < 0x10000000000000000 then i else 0 := by
  have hwritten (k : UInt64) :
      Text.Unsigned (Text.trim (before ++ toString i ++ after)).toList k.toNat ↔
        (k.toNat : Int) = i := by
    rw [trim_toString hbefore hafter, Text.unsigned_toString_iff]
  by_cases hid : 0 ≤ i ∧ i < 0x10000000000000000
  · have hk : ((UInt64.ofNat i.toNat).toNat : Int) = i := toNat_ofNat_toNat hid
    rw [if_pos hid, idOfJson_written ((hwritten _).mpr hk), hk]
  · have hno (k : UInt64) : (k.toNat : Int) ≠ i := by
      have hlt := k.toNat_lt
      rintro rfl
      exact hid ⟨by omega, by omega⟩
    rw [if_neg hid, idOfJson_not_written fun k => (hwritten k).not.mpr (hno k)]
    rfl

/-! ## Extensions -/

/-- What a text has for the two fields: the members of their names, or the items in their places. -/
inductive Written (text : String) : Option Json → Option Json → Prop
  | object {ms : Places} {status id : Option Json}
      (hms : membersOf (Text.bytes (Text.trim text)) = .ok ms)
      (hstatus : ms.Once (Json.maxNesting - 1) "product_draft_status" status)
      (hid : ms.Once (Json.maxNesting - 1) "plugin_id" id) : Written text status id
  | array {vs : List Json} {status id : Option Json}
      (hread : Json.read (Text.bytes (Text.trim text)) = .ok (.arr vs)) (hlength : vs.length ≤ 2)
      (hstatus : vs[0]? = status) (hid : vs[1]? = id) : Written text status id

theorem parse_of_written (h : Written text status id) : parse (some text) =
    ⟨(status.map DraftStatus.ofJson).getD .default, (id.map idOfJson).getD 0⟩ := by
  cases h with
  | object hms hstatus hid => exact parse_of_once hms hstatus hid
  | array hread hlength hstatus hid =>
    rename_i vs
    have hne : Text.trim text ≠ "" := by
      intro hempty
      rw [hempty] at hread
      cases hread
    subst hstatus hid
    have hmake : fields.Make (Json.maxNesting - 1) vs
        ((vs[0]?.map DraftStatus.ofJson).getD .default, (vs[1]?.map idOfJson).getD 0, ()) := by
      match vs, hlength with
      | [], _ => exact ⟨rfl, rfl, rfl⟩
      | [v], _ => exact ⟨Json.lenient_makes, rfl, rfl⟩
      | [v, w], _ => exact ⟨Json.lenient_makes, Json.lenient_makes, rfl⟩
    exact parse_some hne (Json.record_parse_of_items hread hmake)

/-- **It does not matter how an integer is written.** Where a text has an integer for the id or for
the status, it may have it as a number or, between blanks, as a text: the id is the integer itself
if it has 64 bits without a sign, and is none otherwise, and the status is that of its code. -/
theorem encodings_agree {x : Json.Number}
    (hread : Json.read (Text.bytes (toString i)) = .ok (.num x))
    (hbefore : Text.isBlankText before = true) (hafter : Text.isBlankText after = true) :
    (∀ number text status status', Written number status (some (.num x)) →
      Written text status' (some (.str (before ++ toString i ++ after))) →
      (parse (some text)).pluginId = (parse (some number)).pluginId ∧
        ((parse (some number)).pluginId.toNat : Int) =
          if 0 ≤ i ∧ i < 0x10000000000000000 then i else 0) ∧
    (∀ number text id id', Written number (some (.num x)) id →
      Written text (some (.str (before ++ toString i ++ after))) id' →
      (parse (some text)).draftStatus = (parse (some number)).draftStatus ∧
        (parse (some number)).draftStatus = DraftStatus.ofCode i) := by
  constructor
  · intro number text status status' hnumber htext
    have hid := toNat_idOfJson_number hread
    have hid' := toNat_idOfJson_text (i := i) hbefore hafter
    rw [parse_of_written hnumber, parse_of_written htext]
    simp only [Option.map_some, Option.getD_some]
    rw [← UInt64.toNat_inj, ← Int.natCast_inj]
    exact ⟨hid'.trans hid.symm, hid⟩
  · intro number text id id' hnumber htext
    have hstatus := DraftStatus.ofJson_number hread
    have hstatus' := DraftStatus.ofJson_text (i := i) hbefore hafter
    rw [parse_of_written hnumber, parse_of_written htext]
    simp only [Option.map_some, Option.getD_some]
    exact ⟨hstatus'.trans hstatus.symm, hstatus⟩

/-- The least integer that is an id but no code of 64 bits, as a number for both fields. -/
def numbers : String :=
  "\x7b\"product_draft_status\":9223372036854775808,\"plugin_id\":9223372036854775808\x7d"

/-- The same integer as a text for both, in an array. -/
def texts : String := "[\" 9223372036854775808\\n\",\" 9223372036854775808\\n\"]"

theorem encodings_agree_boundary :
    Written numbers (some (.num (.int 9223372036854775808)))
        (some (.num (.int 9223372036854775808))) ∧
      Written texts (some (.str (" " ++ toString (9223372036854775808 : Int) ++ "\n")))
        (some (.str (" " ++ toString (9223372036854775808 : Int) ++ "\n"))) ∧
      Json.read (Text.bytes (toString (9223372036854775808 : Int))) =
        .ok (.num (.int 9223372036854775808)) ∧
      (parse (some texts)).pluginId = (parse (some numbers)).pluginId ∧
      (parse (some numbers)).pluginId.toNat = 9223372036854775808 ∧
      (parse (some texts)).draftStatus = (parse (some numbers)).draftStatus ∧
      (parse (some numbers)).draftStatus = .unknown := by
  have hnumbers : Written numbers (some (.num (.int 9223372036854775808)))
      (some (.num (.int 9223372036854775808))) := by
    have htrim : Text.trim numbers = numbers := by decide +kernel
    have hmembers : membersOf (Text.bytes numbers) = .ok [
        ("product_draft_status",
          Text.bytes "9223372036854775808,\"plugin_id\":9223372036854775808\x7d"),
        ("plugin_id", Text.bytes "9223372036854775808\x7d")] := rfl
    rw [← htrim] at hmembers
    exact .object hmembers (.cons ⟨_, rfl⟩ .nil) (.cons ⟨_, rfl⟩ .nil)
  have htexts : Written texts (some (.str " 9223372036854775808\n"))
      (some (.str " 9223372036854775808\n")) := by
    have htrim : Text.trim texts = texts := by decide +kernel
    have hread : Json.read (Text.bytes texts) = .ok (.arr [.str " 9223372036854775808\n",
        .str " 9223372036854775808\n"]) := rfl
    rw [← htrim] at hread
    exact .array hread (by decide) rfl rfl
  have hread : Json.read (Text.bytes (toString (9223372036854775808 : Int))) =
      .ok (.num (.int 9223372036854775808)) := Json.read_toString ⟨by decide, by decide⟩
  have hspace : Text.isBlankText " " = true := by decide
  have hbreak : Text.isBlankText "\n" = true := by decide
  have hpadded : " 9223372036854775808\n" =
      " " ++ toString (9223372036854775808 : Int) ++ "\n" := by decide +kernel
  rw [hpadded] at htexts
  obtain ⟨hid, hstatus⟩ := encodings_agree hread hspace hbreak
  obtain ⟨hsame, hvalue⟩ := hid _ _ _ _ hnumbers htexts
  obtain ⟨hsame', hcode⟩ := hstatus _ _ _ _ hnumbers htexts
  refine ⟨hnumbers, htexts, hread, hsame, ?_, hsame', hcode⟩
  rw [if_pos (by decide)] at hvalue
  exact Int.natCast_inj.mp hvalue

end Extension

end Workbench
