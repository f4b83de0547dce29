import Workbench.Json.Codec.Choice
import Workbench.Proofs.Json.Decoding
import Workbench.Proofs.Json.Readable

/-!
# The shapes of values

Whether a codec makes something of a value depends on the shape of the value: a text, an integer of
some width, one of a few names. A structure is an object with its fields under their names, or an
array with its fields in their places, and each of these parts has a shape of its own.

* `string_takes`, `int64_takes` and so on: the shape that a codec asks for;
* `ofItems_iff`: what the items of an array say, field by field;
* `default_decodes`, `optional_decodes`: what a field says, if it does;
* `list_decode_iff`: what the items of a list are decoded to;
* `record_decode_iff_parts`: the structure that an object or array is decoded to;
* `record_takes`: there is one exactly if the value fits the parts of the structure.
-/
namespace Workbench.Json

variable {α : Type} {ts : List Type} {name : String} {v : Json} {ms : List (String × Json)}

/-! ## Scalars -/

def isText : Json → Bool
  | .str _ => true
  | _ => false

def isInt64 : Json → Bool
  | .num (.int n) => -0x8000000000000000 ≤ n ∧ n ≤ 0x7FFFFFFFFFFFFFFF
  | _ => false

/-- The name of a variant, as a text or as the only member of an object, with `null` under it. -/
def variantName? : Json → Option String
  | .str s => some s
  | .obj [(s, .null)] => some s
  | _ => none

def isName (names : List String) (v : Json) : Bool := v.variantName?.any (names.contains ·)

def orNull (shape : Json → Bool) (v : Json) : Bool := v.isNull || shape v

/-- The codec makes something of the value. -/
def Codec.takes (c : Codec α) (v : Json) : Bool := (c.decode v).isOk

theorem isOk_iff {ε : Type} {x : Except ε α} : x.isOk = true ↔ ∃ a, x = .ok a := by
  cases x <;> simp [Except.isOk, Except.toBool]

theorem isOk_map {β ε : Type} (f : α → β) (x : Except ε α) : (x.map f).isOk = x.isOk := by
  cases x <;> rfl

theorem any_takes : Codec.any.takes = fun _ => true := rfl

theorem string_takes : Codec.string.takes = isText := by
  funext v
  cases v <;> rfl

theorem int64_takes : Codec.int64.takes = isInt64 := by
  funext v
  match v with
  | .num (.int n) =>
    show ((Codec.within "i64" _ _ (.int n)).map Int64.ofInt).isOk = _
    rw [isOk_map, Codec.within, isInt64]
    split <;> simp_all [Except.isOk, Except.toBool]
  | .num (.float x) => rfl
  | .null | .bool _ | .str _ | .arr _ | .obj _ => rfl

theorem option_takes (c : Codec α) : c.option.takes = orNull c.takes := by
  funext v
  cases v with
  | null => rfl
  | _ => exact isOk_map some _

theorem optionString_takes : Codec.string.option.takes = orNull isText :=
  (option_takes Codec.string).trans (congrArg orNull string_takes)

section Names

variable (all : List α) (nameOf : α → String)

theorem ofNames_lookup (s : String) :
    (Choice.ofNames all nameOf none).lookup s = match all.find? (nameOf · == s) with
      | some a => .ok (.plain (nameOf a) a)
      | none => .error (.unknownVariant s (all.map nameOf)) := by
  have hfind : (all.map fun a => Variant.plain (nameOf a) a).find? (·.name == s) =
      (all.find? (nameOf · == s)).map fun a => .plain (nameOf a) a := List.find?_map ..
  simp only [Choice.lookup, Choice.ofNames, hfind]
  cases all.find? (nameOf · == s) with
  | none => simp [Variant.name, Function.comp_def]
  | some a => rfl

/-- An enumeration is decoded from the names of its values. -/
theorem ofNames_decode_iff {a : α} : (Choice.ofNames all nameOf none).codec.decode v = .ok a ↔
    (v.variantName?.bind fun s => all.find? (nameOf · == s)) = some a := by
  have hplain {payload : Option Json} (h : payload = none ∨ payload = some .null) (s : String) :
      (Choice.ofNames all nameOf none).variantOf s payload = .ok a ↔
        all.find? (nameOf · == s) = some a := by
    simp only [Choice.variantOf, ofNames_lookup]
    cases all.find? (nameOf · == s) with
    | none => simp [bind, Except.bind]
    | some b => rcases h with rfl | rfl <;> simp [bind, Except.bind, pure, Except.pure]
  have hother {s : String} {w : Json} (h : w ≠ .null) :
      (Choice.ofNames all nameOf none).variantOf s (some w) ≠ .ok a := by
    simp only [Choice.variantOf, ofNames_lookup]
    cases all.find? (nameOf · == s) with
    | none => simp [bind, Except.bind]
    | some b => cases w <;> simp_all [bind, Except.bind, throw, throwThe, MonadExceptOf.throw]
  match v with
  | .str s => exact hplain (.inl rfl) s
  | .obj [(s, .null)] => exact hplain (.inr rfl) s
  | .obj [(s, .bool _)] | .obj [(s, .num _)] | .obj [(s, .str _)] | .obj [(s, .arr _)]
  | .obj [(s, .obj _)] =>
    refine iff_of_false (hother (by simp)) (by simp [variantName?])
  | .null | .bool _ | .num _ | .arr _ | .obj [] | .obj (_ :: _ :: _) =>
    refine iff_of_false ?_ (by simp [variantName?])
    intro h
    cases h

/-- The names of an enumeration without any other variants. -/
theorem ofNames_takes : (Choice.ofNames all nameOf none).codec.takes = isName (all.map nameOf) := by
  funext v
  rw [Bool.eq_iff_iff, Codec.takes, isOk_iff]
  simp only [ofNames_decode_iff, isName, ← Option.isSome_iff_exists]
  cases v.variantName? with
  | none => rfl
  | some s => simp [List.find?_isSome]

end Names

/-! ## Parts of structures -/

/-- What a structure wants under a name, or in the place that goes with it. -/
structure Part where
  name : String
  required : Bool
  shape : Json → Bool

def Part.met (p : Part) : Option Json → Bool
  | none => ! p.required
  | some v => p.shape v

/-- What an object has under a name, or an array in the place that goes with it. -/
def part? (place : Nat) (name : String) : Json → Option Json
  | .obj ms => ms.lookup name
  | .arr vs => vs[place]?
  | _ => none

/-- An object, or an array of no more than `n` items. -/
def isStructure (n : Nat) : Json → Bool
  | .obj _ => true
  | .arr vs => vs.length ≤ n
  | _ => false

/-- All parts are there, as far as they are required, and in their shapes; `place` is that of the
first. -/
def meets (v : Json) (place : Nat) : List Part → Bool
  | [] => true
  | p :: parts => p.met (v.part? place p.name) && v.meets (place + 1) parts

/-- A structure with these parts. -/
def fits (parts : List Part) (v : Json) : Bool := v.isStructure parts.length && v.meets 0 parts

/-- The two parts are the same for values that are read. -/
structure Part.Alike (p q : Part) : Prop where
  name_eq : p.name = q.name
  required_eq : p.required = q.required
  shape_eq : ∀ {v}, Ordered v → p.shape v = q.shape v

theorem Part.alike_of_takes {c : Codec α} {shape : Json → Bool} (h : c.takes = shape)
    (name : String) (required : Bool) :
    Part.Alike ⟨name, required, c.takes⟩ ⟨name, required, shape⟩ :=
  ⟨rfl, rfl, fun _ => congrFun h _⟩

theorem mem_of_lookup (h : ms.lookup name = some v) : (name, v) ∈ ms := by
  induction ms with
  | nil => cases h
  | cons m ms ih =>
    rw [lookup_cons_ite] at h
    split at h
    · rename_i hname
      cases h
      rw [hname]
      exact List.mem_cons_self
    · exact List.mem_cons_of_mem _ (ih h)

theorem Ordered.part? {place : Nat} {w : Json} (h : Ordered v) (hw : v.part? place name = some w) :
    Ordered w := by
  cases h with
  | obj _ hms => exact hms _ (mem_of_lookup hw)
  | arr hvs => exact hvs w (List.mem_of_getElem? hw)
  | null | bool | num | str => cases hw

theorem fits_congr {ps qs : List Part} (h : List.Forall₂ Part.Alike ps qs) (hv : Ordered v) :
    v.fits ps = v.fits qs := by
  have hmet {p q : Part} (hpq : p.Alike q) (place : Nat) :
      p.met (v.part? place p.name) = q.met (v.part? place q.name) := by
    rw [hpq.name_eq]
    cases hpart : v.part? place q.name with
    | none => rw [Part.met, Part.met, hpq.required_eq]
    | some w => exact hpq.shape_eq (hv.part? hpart)
  have hmeets (place : Nat) : v.meets place ps = v.meets place qs := by
    induction h generalizing place with
    | nil => rfl
    | cons hpq _ ih => rw [meets, meets, hmet hpq, ih]
  rw [fits, fits, h.length_eq, hmeets]

/-! ## Structures part by part -/

/-- The part that goes with a field. -/
def Field.part (f : Field α) : Part := ⟨f.name, f.absent matches .required, f.codec.takes⟩

namespace Fields

variable {fields : Fields ts} {row : Row ts} {place : Nat}

/-- The values of the fields in an object or array, of which `place` parts have been seen. -/
def DecodeParts (v : Json) : {ts : List Type} → Nat → Fields ts → Row ts → Prop
  | _, _, .nil, _ => True
  | _, place, .cons f rest, (a, row) =>
    f.Decodes (v.part? place f.name) a ∧ rest.DecodeParts v (place + 1) row

/-- No field is required in an array that may be absent in an object. -/
def isUniform : {ts : List Type} → Fields ts → Bool
  | _, .nil => true
  | _, .cons f rest => !(f.absent matches .inObject _) && rest.isUniform

/-- The parts that a structure with these fields wants. -/
def parts : {ts : List Type} → Fields ts → List Part
  | _, .nil => []
  | _, .cons f rest => f.part :: rest.parts

theorem length_parts (fields : Fields ts) : fields.parts.length = ts.length := by
  induction fields with
  | nil => rfl
  | cons f rest ih => rw [parts, List.length_cons, ih, List.length_cons]

theorem decodeParts_obj (fields : Fields ts) (row : Row ts) (place : Nat) :
    fields.DecodeParts (.obj ms) place row ↔ fields.Decode ms row := by
  induction fields generalizing place with
  | nil => rfl
  | cons f rest ih =>
    obtain ⟨a, row⟩ := row
    exact and_congr_right fun _ => ih row (place + 1)

theorem item_iff {a : α} {x : Except Problem α}
    {y : Except Problem (Row ts × List Json)} {rest : List Json} :
    (do let a ← x; let (row, vs) ← y; return ((a, row), vs) :
      Except Problem (Row (α :: ts) × List Json)) = .ok ((a, row), rest) ↔
      x = .ok a ∧ y = .ok (row, rest) := by
  cases x with
  | error p => exact ⟨fun h => (nomatch h), fun h => (nomatch h.1)⟩
  | ok b =>
    cases y with
    | error p => exact ⟨fun h => (nomatch h), fun h => (nomatch h.2)⟩
    | ok found =>
      constructor
      · intro h
        cases h
        exact ⟨rfl, rfl⟩
      · rintro ⟨⟨⟩, ⟨⟩⟩
        rfl

/-- The items from a place on fill the fields from this place on. -/
theorem ofItems_iff (huniform : fields.isUniform = true) {vs rest : List Json} (expected : String)
    (place seen : Nat) :
    fields.ofItems expected seen (vs.drop place) = .ok (row, rest) ↔
      fields.DecodeParts (.arr vs) place row ∧ rest = vs.drop (place + ts.length) := by
  induction fields generalizing place seen with
  | nil =>
    constructor
    · intro h
      cases h
      exact ⟨trivial, rfl⟩
    · rintro ⟨-, rfl⟩
      rfl
  | @cons _ ts f others ih =>
    obtain ⟨a, row⟩ := row
    obtain ⟨hf, hothers⟩ := Bool.and_eq_true_iff.mp huniform
    have hnext : others.ofItems expected (seen + 1) (vs.drop (place + 1)) = .ok (row, rest) ↔ _ :=
      ih hothers (place + 1) (seen + 1)
    rw [Nat.add_right_comm, Nat.add_assoc] at hnext
    rw [DecodeParts, and_assoc, List.length_cons, ← hnext, part?]
    cases hitem : vs[place]? with
    | some v =>
      obtain ⟨hlt, rfl⟩ := List.getElem?_eq_some_iff.mp hitem
      rw [List.drop_eq_getElem_cons hlt, ofItems]
      exact item_iff
    | none =>
      have hend := List.getElem?_eq_none_iff.mp hitem
      rw [List.drop_eq_nil_of_le hend, List.drop_eq_nil_of_le (hend.trans (Nat.le_succ place)),
        ofItems]
      cases habsent : f.absent with
      | required =>
        refine iff_of_false (fun h => ?_) (by simp [Field.Decodes, habsent])
        cases h
      | inObject b =>
        rw [habsent] at hf
        cases hf
      | default b =>
        refine item_iff.trans (and_congr_left fun _ => ?_)
        simp [Field.Decodes, habsent, pure, Except.pure]

/-- What a field is decoded to is there exactly if its part is in its shape. -/
theorem exists_decodes_iff (f : Field α) (o : Option Json) :
    (∃ a, f.Decodes o a) ↔ f.part.met o = true := by
  cases o with
  | none => cases habsent : f.absent <;> simp [Field.Decodes, Field.part, Part.met, habsent]
  | some v => exact isOk_iff.symm

theorem exists_decodeParts_iff :
    (∃ row, fields.DecodeParts v place row) ↔ v.meets place fields.parts = true := by
  induction fields generalizing place with
  | nil => exact ⟨fun _ => rfl, fun _ => ⟨(), trivial⟩⟩
  | cons f rest ih =>
    rw [parts, meets, Bool.and_eq_true, ← ih, ← exists_decodes_iff]
    constructor
    · rintro ⟨⟨a, row⟩, ha, hrow⟩
      exact ⟨⟨a, ha⟩, row, hrow⟩
    · rintro ⟨⟨a, ha⟩, row, hrow⟩
      exact ⟨(a, row), ha, hrow⟩

end Fields

section Views

variable {c : Codec α} {view : Json → Option α} {member : Option Json} {a b : α}

theorem str?_eq_some_iff {s : String} : v.str? = some s ↔ v = .str s := by
  cases v <;> simp [str?]

theorem str?_of_decode {s : String} (h : Codec.string.decode v = .ok s) : v.str? = some s := by
  cases v with
  | str => exact congrArg some (Except.ok.inj h)
  | null | bool | num | arr | obj => cases h

/-- What is seen of a field that may be absent. -/
theorem default_decodes (hview : ∀ {v a}, c.decode v = .ok a → view v = some a)
    (h : (Field.default name c b).Decodes member a) : a = (member.bind view).getD b := by
  cases member with
  | none =>
    rcases h with h | h <;> cases h
    rfl
  | some v =>
    rw [Option.bind_some, hview h]
    rfl

theorem optional_decodes {o : Option α} (hnull : view .null = none)
    (hview : ∀ {v a}, c.decode v = .ok a → view v = some a)
    (h : (Field.optional name c).Decodes member o) : o = member.bind view := by
  cases member with
  | none =>
    rcases h with h | h <;> cases h
    rfl
  | some v =>
    rw [Option.bind_some]
    cases v with
    | null =>
      cases h
      exact hnull.symm
    | bool | num | str | arr | obj =>
      obtain ⟨a, ha, rfl⟩ := map_eq_ok_iff.mp h
      exact (hview ha).symm

end Views

/-- A list is decoded item by item, and not at all if this fails for one item. -/
theorem list_decode_iff {c : Codec α} {P : Json → Prop} {f : Json → α} {vs : List Json}
    {as : List α} (h : ∀ v ∈ vs, ∀ a, c.decode v = .ok a ↔ P v ∧ a = f v) :
    c.list.decode (.arr vs) = .ok as ↔ (∀ v ∈ vs, P v) ∧ as = vs.map f := by
  show vs.mapM c.decode = .ok as ↔ _
  induction vs generalizing as with
  | nil =>
    constructor
    · rintro ⟨⟩
      exact ⟨nofun, rfl⟩
    · rintro ⟨-, rfl⟩
      rfl
  | cons v vs ih =>
    obtain ⟨hv, hvs⟩ := List.forall_mem_cons.mp h
    rw [List.mapM_cons, List.forall_mem_cons, List.map_cons]
    simp only [bind_eq_ok_iff, hv, ih hvs]
    constructor
    · rintro ⟨a, ⟨hp, rfl⟩, as', ⟨hps, rfl⟩, ⟨⟩⟩
      exact ⟨⟨hp, hps⟩, rfl⟩
    · rintro ⟨⟨hp, hps⟩, rfl⟩
      exact ⟨_, ⟨hp, rfl⟩, _, ⟨hps, rfl⟩, rfl⟩

section Record

variable {σ : Type} {fields : Fields ts} {toRow : σ → Row ts} {ofRow : Row ts → σ} {a : σ}

theorem SortedNames.nodup {ms : List (String × α)} (h : SortedNames ms) :
    (ms.map Prod.fst).Nodup :=
  h.imp fun hlt => ne_of_lt hlt

/-- **A structure is what its parts say**, under their names or in their places. -/
theorem record_decode_iff_parts (hnd : fields.names.Nodup) (huniform : fields.isUniform = true)
    (hv : Ordered v) : (Codec.record name fields toRow ofRow).decode v = .ok a ↔
      v.isStructure ts.length = true ∧ ∃ row, fields.DecodeParts v 0 row ∧ ofRow row = a := by
  cases hv with
  | obj hnames _ =>
    rw [record_decode_iff hnd hnames.nodup]
    simp only [isStructure, true_and, Fields.decodeParts_obj]
  | @arr vs _ =>
    have hitems {row : Row ts} {rest : List Json} :
        fields.ofItems (sized name fields.count) 0 vs = .ok (row, rest) ↔
          fields.DecodeParts (.arr vs) 0 row ∧ rest = vs.drop ts.length := by
      simpa using Fields.ofItems_iff huniform (sized name fields.count) 0 0
    simp only [Codec.record, bind_eq_ok_iff, Prod.exists, hitems, isStructure, decide_eq_true_eq]
    constructor
    · rintro ⟨row, rest, ⟨hrow, rfl⟩, h⟩
      split at h
      · rename_i hnone
        cases h
        exact ⟨List.drop_eq_nil_iff.mp hnone, row, hrow, rfl⟩
      · cases h
    · rintro ⟨hlength, row, hrow, rfl⟩
      exact ⟨row, _, ⟨hrow, rfl⟩, if_pos (List.drop_eq_nil_of_le hlength)⟩
  | null | bool | num | str =>
    refine iff_of_false (fun h => ?_) (fun h => ?_)
    · cases h
    · cases h.1

theorem record_takes (hnd : fields.names.Nodup) (huniform : fields.isUniform = true)
    (hv : Ordered v) : (Codec.record name fields toRow ofRow).takes v = v.fits fields.parts := by
  rw [Bool.eq_iff_iff, Codec.takes, isOk_iff, fits, Bool.and_eq_true, Fields.length_parts,
    ← Fields.exists_decodeParts_iff]
  simp only [record_decode_iff_parts hnd huniform hv]
  constructor
  · rintro ⟨a, hstructure, row, hrow, -⟩
    exact ⟨hstructure, row, hrow⟩
  · rintro ⟨hstructure, row, hrow⟩
    exact ⟨ofRow row, hstructure, row, hrow, rfl⟩

end Record

end Workbench.Json
