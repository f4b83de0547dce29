import Workbench.Json.Codec.Choice
import Workbench.Json.Codec.Record
import Workbench.Proofs.Json.Value

/-!
# Structures read back from values

A structure that has been written and read as a value is taken apart field by field, whatever the
order of the members is by then.

* `rereadMembers_perm`: with distinct names, writing and reading only reorders the members.
* `record_rereads`: if each field comes back, then so does the structure.
-/
namespace Workbench.Json

/-! ## Association lists -/

theorem insert_perm {α : Type} {name : String} {acc : List (String × α)} (a : α)
    (h : name ∉ acc.map Prod.fst) : (insert name a acc).Perm ((name, a) :: acc) := by
  induction acc with
  | nil => exact .refl _
  | cons m acc ih =>
    obtain ⟨n, b⟩ := m
    rw [List.map_cons, List.mem_cons, not_or] at h
    unfold insert
    rw [if_neg h.1]
    split
    · exact .refl _
    · exact ((ih h.2).cons (n, b)).trans (.swap (name, a) (n, b) acc)

theorem lookup_eq_some_of_mem {α : Type} {ms : List (String × α)} (hnd : (ms.map Prod.fst).Nodup)
    {m : String × α} (hm : m ∈ ms) : ms.lookup m.1 = some m.2 := by
  induction ms with
  | nil => cases hm
  | cons m' ms ih =>
    obtain ⟨n, b⟩ := m'
    rw [List.map_cons, List.nodup_cons] at hnd
    rcases List.mem_cons.mp hm with rfl | hm
    · exact List.lookup_cons_self
    · have hne : (m.1 == n) = false :=
        beq_eq_false_iff_ne.mpr fun h => hnd.1 (List.mem_map.mpr ⟨m, hm, h⟩)
      rw [List.lookup_cons, hne]
      exact ih hnd.2 hm

theorem rereadMembers_perm_append {ms acc : List (String × Json)}
    (hnd : ((acc ++ ms).map Prod.fst).Nodup) :
    (rereadMembers acc ms).Perm (acc ++ ms.map rereadMember) := by
  induction ms generalizing acc with
  | nil => simp [rereadMembers]
  | cons m ms ih =>
    obtain ⟨n, v⟩ := m
    have hmiddle : (acc ++ (n, v) :: ms).Perm ((n, v) :: (acc ++ ms)) := List.perm_middle
    have hnd' := (hmiddle.map Prod.fst).nodup_iff.mp hnd
    rw [List.map_cons, List.nodup_cons, List.map_append, List.mem_append, not_or] at hnd'
    obtain ⟨⟨hacc, hms⟩, hrest⟩ := hnd'
    have hinsert := insert_perm v.reread hacc
    have hnd'' : ((insert n v.reread acc ++ ms).map Prod.fst).Nodup := by
      rw [((hinsert.append_right ms).map Prod.fst).nodup_iff, List.cons_append, List.map_cons,
        List.nodup_cons, List.map_append, List.mem_append, not_or]
      exact ⟨⟨hacc, hms⟩, hrest⟩
    rw [rereadMembers]
    refine (ih hnd'').trans ((hinsert.append_right _).trans ?_)
    exact List.perm_middle.symm

/-- With distinct names no member is lost. -/
theorem rereadMembers_perm {ms : List (String × Json)} (hnd : (ms.map Prod.fst).Nodup) :
    (rereadMembers [] ms).Perm (ms.map rereadMember) :=
  rereadMembers_perm_append hnd

theorem nodup_rereadMembers {ms : List (String × Json)} (hnd : (ms.map Prod.fst).Nodup) :
    ((rereadMembers [] ms).map Prod.fst).Nodup := by
  rw [((rereadMembers_perm hnd).map Prod.fst).nodup_iff, List.map_map]
  exact hnd

theorem mem_rereadMembers {ms : List (String × Json)} (hnd : (ms.map Prod.fst).Nodup)
    {m : String × Json} : m ∈ rereadMembers [] ms ↔ ∃ v, (m.1, v) ∈ ms ∧ m.2 = v.reread := by
  rw [(rereadMembers_perm hnd).mem_iff, List.mem_map]
  constructor
  · rintro ⟨m', hm', rfl⟩
    exact ⟨m'.2, hm', rfl⟩
  · rintro ⟨v, hv, heq⟩
    exact ⟨(m.1, v), hv, by rw [rereadMember, ← heq]⟩

/-! ## Codecs -/

/-- What comes back of `a` is `b`. -/
def Codec.Rereads {α : Type} (c : Codec α) (a b : α) : Prop :=
  c.decode (c.encode a).reread = .ok b

theorem isNull_reread (v : Json) : v.reread.isNull = v.isNull := by
  cases v <;> rfl

theorem string_rereads (s : String) : Codec.string.Rereads s s := rfl

theorem any_rereads (v : Json) : Codec.any.Rereads v v.reread := rfl

theorem some_rereads {α : Type} {c : Codec α} {a b : α} (h : c.Rereads a b)
    (hnull : (c.encode a).isNull = false) : c.option.Rereads (some a) (some b) := by
  rw [← isNull_reread] at hnull
  simp only [Codec.Rereads, Codec.option] at h ⊢
  split
  · rename_i heq
    rw [heq] at hnull
    cases hnull
  · rw [h]
    rfl

/-- A list comes back item by item, also as items of another type. -/
theorem decode_list {α β : Type} {c : Codec α} {d : Codec β} {f : α → β} {as : List α}
    (h : ∀ a ∈ as, d.decode (c.encode a).reread = .ok (f a)) :
    d.list.decode (c.list.encode as).reread = .ok (as.map f) := by
  show (rereadItems (as.map c.encode)).mapM d.decode = _
  induction as with
  | nil => rfl
  | cons a as ih =>
    obtain ⟨ha, has⟩ := List.forall_mem_cons.mp h
    rw [List.map_cons, rereadItems, List.mapM_cons, ha, ih has]
    rfl

/-- The entries of a dictionary come back one by one. -/
theorem foldlM_entries {α : Type} {c : Codec α} {as : List (String × α)}
    (h : ∀ m ∈ as, c.Rereads m.2 m.2) (acc : List (String × α)) :
    ((as.map fun (n, a) => (n, c.encode a)).map rereadMember).foldlM
      (fun acc (n, v) => do return insert n (← c.decode v) acc) acc =
      .ok (as.foldl (fun acc m => insert m.1 m.2 acc) acc) := by
  induction as generalizing acc with
  | nil => rfl
  | cons m as ih =>
    obtain ⟨hm, has⟩ := List.forall_mem_cons.mp h
    have hdecode : c.decode (c.encode m.2).reread = .ok m.2 := hm
    simp only [List.map_cons, List.foldlM_cons, rereadMember, hdecode]
    exact ih has _

theorem dictionary_rereads {α : Type} {c : Codec α} {as : List (String × α)}
    (hnames : SortedNames as) (h : ∀ m ∈ as, c.Rereads m.2 m.2) : c.dictionary.Rereads as as := by
  have hsorted : SortedNames (as.map fun (n, a) => (n, c.encode a)) := by
    rw [SortedNames, List.map_map]
    exact hnames
  show (rereadMembers [] (as.map fun (n, a) => (n, c.encode a))).foldlM _ [] = _
  rw [rereadMembers_of_sorted hsorted, foldlM_entries h, foldl_insert_eq_self hnames]

theorem depth_option {α : Type} {c : Codec α} {n : Nat} (h : ∀ a, (c.encode a).depth ≤ n)
    (o : Option α) : (c.option.encode o).depth ≤ n := by
  cases o with
  | none => exact Nat.zero_le n
  | some a => exact h a

theorem depth_optionString (o : Option String) (n : Nat) :
    (Codec.string.option.encode o).depth ≤ n :=
  depth_option (c := Codec.string) (fun _ => Nat.zero_le n) o

/-! ## Fields -/

/-- The same for a field, which need not be written. -/
def Field.Rereads {α : Type} (f : Field α) (a b : α) : Prop :=
  if f.hidden a then f.absent = .inObject b ∨ f.absent = .default b else f.codec.Rereads a b

namespace Fields

def names : {ts : List Type} → Fields ts → List String
  | _, .nil => []
  | _, .cons f rest => f.name :: rest.names

def Rereads : {ts : List Type} → Fields ts → Row ts → Row ts → Prop
  | _, .nil, _, _ => True
  | _, .cons f rest, (a, row), (b, row') => f.Rereads a b ∧ rest.Rereads row row'

/-- The values of `row` that are not written are those of `row'` where a field is absent. -/
def Hides : {ts : List Type} → Fields ts → Row ts → Row ts → Prop
  | _, .nil, _, _ => True
  | _, .cons f rest, (a, row), (b, row') =>
    (f.hidden a = true → f.absent = .inObject b ∨ f.absent = .default b) ∧ rest.Hides row row'

theorem Rereads.hides {ts : List Type} {fields : Fields ts} {row row' : Row ts}
    (h : fields.Rereads row row') : fields.Hides row row' := by
  induction fields with
  | nil => trivial
  | cons f rest ih =>
    obtain ⟨a, row⟩ := row
    obtain ⟨b, row'⟩ := row'
    refine ⟨fun hhidden => ?_, ih h.2⟩
    have hf := h.1
    rwa [Field.Rereads, if_pos hhidden] at hf

/-- The values of all fields, as they are written. -/
def Each (P : Json → Prop) : {ts : List Type} → Fields ts → Row ts → Prop
  | _, .nil, _ => True
  | _, .cons f rest, (a, row) => P (f.codec.encode a) ∧ rest.Each P row

/-- The slots once the fields with these names have been seen. -/
def seen : {ts : List Type} → Fields ts → (String → Bool) → Row ts → Slots ts
  | _, .nil, _, _ => ()
  | _, .cons f rest, p, (a, row) => (if p f.name then some a else none, rest.seen p row)

theorem encode_names_sublist {ts : List Type} (fields : Fields ts) (row : Row ts) :
    ((fields.encode row).map Prod.fst).Sublist fields.names := by
  induction fields with
  | nil => exact .refl _
  | cons f rest ih =>
    obtain ⟨a, row⟩ := row
    rw [encode, names]
    split
    · exact (ih row).cons f.name
    · exact (ih row).cons_cons f.name

theorem nodup_encode {ts : List Type} {fields : Fields ts} (hnd : fields.names.Nodup)
    (row : Row ts) : ((fields.encode row).map Prod.fst).Nodup :=
  (fields.encode_names_sublist row).nodup hnd

theorem name_mem_of_mem_encode {ts : List Type} {fields : Fields ts} {row : Row ts}
    {m : String × Json} (hm : m ∈ fields.encode row) : m.1 ∈ fields.names :=
  (encode_names_sublist fields row).subset (List.mem_map_of_mem hm)

theorem seen_congr {ts : List Type} {fields : Fields ts} {p q : String → Bool}
    (h : ∀ n ∈ fields.names, p n = q n) (row : Row ts) : fields.seen p row = fields.seen q row := by
  induction fields with
  | nil => rfl
  | cons f rest ih =>
    obtain ⟨a, row⟩ := row
    obtain ⟨hname, hrest⟩ := List.forall_mem_cons.mp h
    rw [seen, seen, hname, ih hrest row]

theorem empty_eq_seen {ts : List Type} (fields : Fields ts) (row : Row ts) :
    fields.empty = fields.seen (fun _ => false) row := by
  induction fields with
  | nil => rfl
  | cons f rest ih =>
    obtain ⟨a, row⟩ := row
    rw [empty, seen, ih row]
    rfl

theorem mem_encode_cons {α : Type} {ts : List Type} {f : Field α} {rest : Fields ts} {a : α}
    {row : Row ts} {m : String × Json} (hm : m ∈ (cons f rest).encode (a, row)) :
    (f.hidden a = false ∧ m = (f.name, f.codec.encode a)) ∨ m ∈ rest.encode row := by
  rw [encode] at hm
  split at hm
  · exact .inr hm
  · rename_i hshown
    exact (List.mem_cons.mp hm).imp_left fun heq => ⟨Bool.eq_false_iff.mpr hshown, heq⟩

theorem forall_mem_encode {P : Json → Prop} {ts : List Type} {fields : Fields ts} {row : Row ts}
    (h : fields.Each P row) : ∀ m ∈ fields.encode row, P m.2 := by
  induction fields with
  | nil => exact fun _ hm => nomatch hm
  | cons f rest ih =>
    obtain ⟨a, row⟩ := row
    obtain ⟨hf, hrest⟩ := h
    intro m hm
    rcases mem_encode_cons hm with ⟨-, rfl⟩ | hm
    · exact hf
    · exact ih hrest m hm

/-- A member that comes back fills the slot of its field and no other. -/
theorem take_seen {ts : List Type} {fields : Fields ts} (hnd : fields.names.Nodup)
    {row row' : Row ts} (h : fields.Rereads row row') {n : String} {v : Json}
    (hmem : (n, v) ∈ fields.encode row) {p : String → Bool} (hp : p n = false) :
    fields.take (fields.seen p row') n v.reread =
      .ok (fields.seen (fun x => p x || x == n) row') := by
  induction fields with
  | nil => cases hmem
  | cons f rest ih =>
    obtain ⟨a, row⟩ := row
    obtain ⟨b, row'⟩ := row'
    obtain ⟨hf, hrest⟩ := h
    rw [names, List.nodup_cons] at hnd
    rcases mem_encode_cons hmem with ⟨hshown, heq⟩ | hmem
    · cases heq
      have hdecode : f.codec.decode (f.codec.encode a).reread = .ok b := by
        rwa [Field.Rereads, hshown, if_neg Bool.false_ne_true] at hf
      have hothers : rest.seen (fun x => p x || x == f.name) row' = rest.seen p row' :=
        seen_congr (fun x hx => by
          have hne : x ≠ f.name := fun h => hnd.1 (h ▸ hx)
          rw [beq_eq_false_iff_ne.mpr hne, Bool.or_false]) row'
      simp [seen, take, hp, hdecode, hothers]
      rfl
    · have hne : n ≠ f.name := fun h => hnd.1 (h ▸ name_mem_of_mem_encode hmem)
      have hslot : (p f.name || f.name == n) = p f.name := by
        rw [beq_eq_false_iff_ne.mpr hne.symm, Bool.or_false]
      simp [seen, take, hne, hslot, ih hnd.2 hrest hmem]
      rfl

/-- The members of a structure fill the slots of their fields, in any order. -/
theorem foldlM_take {ts : List Type} {fields : Fields ts} (hnd : fields.names.Nodup)
    {row row' : Row ts} (h : fields.Rereads row row') {ms : List (String × Json)}
    (hms : ∀ m ∈ ms, ∃ v, (m.1, v) ∈ fields.encode row ∧ m.2 = v.reread)
    (hnames : (ms.map Prod.fst).Nodup) {p : String → Bool} (hp : ∀ m ∈ ms, p m.1 = false) :
    ms.foldlM (fun slots (n, v) => fields.take slots n v) (fields.seen p row') =
      .ok (fields.seen (fun x => p x || ms.any (·.1 == x)) row') := by
  induction ms generalizing p with
  | nil => simp [pure, Except.pure]
  | cons m ms ih =>
    obtain ⟨n, w⟩ := m
    obtain ⟨⟨v, hmem, heq⟩, hrest⟩ := List.forall_mem_cons.mp hms
    obtain ⟨hpn, hprest⟩ := List.forall_mem_cons.mp hp
    rw [List.map_cons, List.nodup_cons] at hnames
    obtain rfl : w = v.reread := heq
    have htake := take_seen hnd h hmem hpn
    dsimp only at htake
    rw [List.foldlM_cons]
    dsimp only
    rw [htake]
    refine (ih hrest hnames.2 fun m hm => ?_).trans ?_
    · rw [hprest m hm, Bool.false_or]
      exact beq_eq_false_iff_ne.mpr fun h => hnames.1 (List.mem_map.mpr ⟨m, hm, h⟩)
    · congr 2
      funext x
      rw [List.any_cons, Bool.or_assoc, Bool.beq_comm]

/-- Once all written fields have been seen, all fields are there. -/
theorem complete_seen {ts : List Type} {fields : Fields ts} {row row' : Row ts}
    (h : fields.Hides row row') {p : String → Bool} (hp : ∀ m ∈ fields.encode row, p m.1 = true) :
    fields.complete (fields.seen p row') = .ok row' := by
  induction fields with
  | nil => rfl
  | cons f rest ih =>
    obtain ⟨a, row⟩ := row
    obtain ⟨b, row'⟩ := row'
    obtain ⟨hf, hrest⟩ := h
    have hp' : ∀ m ∈ rest.encode row, p m.1 = true := fun m hm => hp m (by
      rw [encode]
      split
      · exact hm
      · exact List.mem_cons_of_mem _ hm)
    have hslot : p f.name = true ∨ f.absent = .inObject b ∨ f.absent = .default b := by
      by_cases hhidden : f.hidden a = true
      · exact .inr (hf hhidden)
      · exact .inl (hp (f.name, f.codec.encode a) (by rw [encode, if_neg hhidden]; simp))
    have ih' := ih hrest hp'
    by_cases hseen : p f.name = true
    · simp only [seen, complete, hseen, if_true]
      rw [ih']
      rfl
    · rcases hslot.resolve_left hseen with habsent | habsent
      · simp only [seen, complete, hseen, habsent]
        rw [ih']
        rfl
      · simp only [seen, complete, hseen, habsent]
        rw [ih']
        rfl

end Fields

/-- **Structures come back field by field.** -/
theorem record_rereads {σ : Type} {ts : List Type} {name : String} {fields : Fields ts}
    {toRow : σ → Row ts} {ofRow : Row ts → σ} {a b : σ} (hnd : fields.names.Nodup)
    (hb : ofRow (toRow b) = b) (h : fields.Rereads (toRow a) (toRow b)) :
    (Codec.record name fields toRow ofRow).Rereads a b := by
  have hencode := Fields.nodup_encode hnd (toRow a)
  have hfold := Fields.foldlM_take hnd h (fun m hm => (mem_rereadMembers hencode).mp hm)
    (nodup_rereadMembers hencode) (p := fun _ => false) fun _ _ => rfl
  have hcomplete := Fields.complete_seen h.hides
    (p := fun x => false || (rereadMembers [] (fields.encode (toRow a))).any (·.1 == x))
    fun m hm => by
      rw [Bool.false_or, List.any_eq_true]
      exact ⟨(m.1, m.2.reread), (mem_rereadMembers hencode).mpr ⟨m.2, hm, rfl⟩, by simp⟩
  rw [← Fields.empty_eq_seen] at hfold
  simp only [Codec.Rereads, Codec.record, reread]
  rw [hfold]
  show (do return ofRow (← fields.complete (fields.seen _ (toRow b)))) = _
  rw [hcomplete]
  exact congrArg Except.ok hb

end Workbench.Json
