import Workbench.Proofs.Json.Record

/-!
# Lawful codecs

A codec is lawful at a value if both ways of reading undo the writing of it: from the value that
comes back, and from the text, whatever blanks stand between its parts and whatever follows it. The
reader of a text has to allow as many arrays and objects as the value opens.

* Scalars and enumerations open none, a variant with a text opens one.
* Lists, dictionaries and structures open one more than what they hold.
* `LawfulAt.parse`: a whole text is read as the value it was written for.
-/
namespace Workbench.Json

open Text (bytes)

namespace Codec

/-- Both ways of reading come back to `a`, where `n` arrays and objects may be open. -/
structure LawfulAt {α : Type} (c : Codec α) (n : Nat) (a : α) : Prop where
  held : Held (c.encode a)
  rereads : c.Rereads a a
  reader : ∀ {l : Layout}, l.Blank → ∀ {nesting : Nat}, n ≤ nesting → ∀ (level : Nat)
    {g rest : List UInt8}, Gaps g → Ends rest →
      c.reader nesting (g ++ (bytes (write l level (c.encode a)) ++ rest)) = .ok (a, rest)

section

variable {α : Type} {c : Codec α} {n : Nat} {a : α}

/-- The text of an item is read as the item. -/
theorem LawfulAt.readsItem (h : c.LawfulAt n a) {l : Layout} (hl : l.Blank) {nesting : Nat}
    (hn : n ≤ nesting) : ReadsItem l (c.reader nesting) (fun _ => True) (c.encode a) a :=
  ⟨h.held, fun level _ hrest => .of_ok (h.reader hl hn level gaps_nil hrest)⟩

/-- A whole text is read as the value it was written for. -/
theorem LawfulAt.parse (h : c.LawfulAt n a) (hn : n ≤ maxNesting) {l : Layout} (hl : l.Blank)
    (level : Nat) : c.parse (bytes (write l level (c.encode a))) = .ok a := by
  have hread := h.reader hl hn level gaps_nil ends_nil
  rw [List.append_nil, List.nil_append] at hread
  rw [Codec.parse, Reader.run, bind_of_ok hread]
  rfl

/-- The texts of `a` are read as `a`. -/
def Lossless (c : Codec α) (a : α) : Prop :=
  c.parse (bytes (c.text a)) = .ok a ∧ c.parse (bytes (c.prettyText a)) = .ok a

theorem LawfulAt.lossless (h : c.LawfulAt n a) (hn : n ≤ maxNesting) : c.Lossless a :=
  ⟨h.parse hn blank_compact 0, h.parse hn blank_pretty 0⟩

end

end Codec

/-! ## Scalars -/

theorem head_writeString {g : List UInt8} (hg : Gaps g) (s : String) (rest : List UInt8) :
    head (g ++ (bytes (writeString s) ++ rest)) = .ok (.quote, bytes (writeString s) ++ rest) := by
  obtain ⟨tail, htail⟩ := starts_writeString s rest
  rw [htail]
  exact head_at hg rfl

theorem string_lawful (s : String) (n : Nat) : Codec.string.LawfulAt n s where
  held := .str s
  rereads := string_rereads s
  reader := by
    intro l hl nesting hn level g rest hg hrest
    have hhead := head_writeString hg s rest
    exact (bind_of_ok hhead).trans (string_writeString s rest)

theorem bool_lawful (b : Bool) (n : Nat) : Codec.bool.LawfulAt n b where
  held := .bool b
  rereads := rfl
  reader := by
    intro l hl nesting hn level g rest hg hrest
    cases b with
    | true => exact bind_of_ok (head_at (s := 0x72 :: 0x75 :: 0x65 :: rest) hg rfl)
    | false => exact bind_of_ok (head_at (s := 0x61 :: 0x6C :: 0x73 :: 0x65 :: rest) hg rfl)

theorem integer_lawful {α : Type} {name : String} {lo hi : Int} {toInt : α → Int} {ofInt : Int → α}
    {a : α} (hlo : lo ≤ toInt a) (hhi : toInt a ≤ hi) (hwhole : Number.Whole (toInt a))
    (hof : ofInt (toInt a) = a) (n : Nat) :
    (Codec.integer name lo hi toInt ofInt).LawfulAt n a := by
  have hwithin : Codec.within name lo hi (.int (toInt a)) = .ok (toInt a) := if_pos ⟨hlo, hhi⟩
  refine ⟨.num hwhole, ?_, ?_⟩
  · show (Codec.within name lo hi (.int (toInt a))).map ofInt = _
    rw [hwithin]
    exact congrArg Except.ok hof
  · intro l hl nesting hn level g rest hg hrest
    obtain ⟨b, tail, htext, hb, hread⟩ := number_writeNumber (n := .int (toInt a)) hwhole
    have hgap : isGap b = false := by
      rcases hb with rfl | hb
      · rfl
      · exact isGap_of_isDigit hb
    have hhead : Head.of b = .minus ∨ Head.of b = .digit := by
      rcases hb with rfl | hb
      · exact .inl rfl
      · exact .inr (head_of_digit hb)
    have htext' : bytes (write l level (.num (.int (toInt a)))) ++ rest = b :: (tail ++ rest) := by
      rw [write, htext, List.cons_append]
    show (Codec.integer name lo hi toInt ofInt).reader nesting
      (g ++ (bytes (write l level (.num (.int (toInt a)))) ++ rest)) = _
    rw [htext']
    refine (bind_of_ok (head_at hg hgap)).trans ?_
    rw [if_pos hhead]
    refine (bind_of_ok (hread rest hrest)).trans ?_
    simp only [Number.reread, hwithin, hof, pure_apply]

theorem int64_bounds (n : Int64) :
    -0x8000000000000000 ≤ n.toInt ∧ n.toInt ≤ 0x7FFFFFFFFFFFFFFF :=
  ⟨Int64.le_toInt n, Int64.toInt_le n⟩

theorem int64_lawful (i : Int64) (n : Nat) : Codec.int64.LawfulAt n i := by
  obtain ⟨hlo, hhi⟩ := int64_bounds i
  exact integer_lawful hlo hhi ⟨hlo, by omega⟩ (Int64.ofInt_toInt i) n

theorem int32_lawful (i : Int32) (n : Nat) : Codec.int32.LawfulAt n i := by
  have hlo : -0x80000000 ≤ i.toInt := Int32.le_toInt i
  have hhi : i.toInt ≤ 0x7FFFFFFF := Int32.toInt_le i
  exact integer_lawful hlo hhi ⟨by omega, by omega⟩ (Int32.ofInt_toInt i) n

theorem uint64_bounds (u : UInt64) :
    0 ≤ (u.toNat : Int) ∧ (u.toNat : Int) ≤ 0xFFFFFFFFFFFFFFFF := by
  have h := u.toNat_lt
  omega

theorem uint64_lawful (u : UInt64) (n : Nat) : Codec.uint64.LawfulAt n u := by
  obtain ⟨hlo, hhi⟩ := uint64_bounds u
  have hwhole : Number.Whole (u.toNat : Int) := ⟨by omega, by omega⟩
  apply integer_lawful
  · exact hlo
  · exact hhi
  · exact hwhole
  · exact UInt64.ofNat_toNat

theorem any_lawful {v : Json} (hheld : Held v) (hsame : v.reread = v) {n : Nat}
    (hdepth : v.depth ≤ n) : Codec.any.LawfulAt n v where
  held := hheld
  rereads := by rw [Codec.Rereads, Codec.any, hsame]
  reader := by
    intro l hl nesting hn level g rest hg hrest
    have h := (value_write hl hheld nesting level hrest).ok (hdepth.trans hn)
    rw [hsame] at h
    show value nesting _ = _
    rw [value_gaps hg]
    exact h

theorem lenient_lawful {α : Type} {encode : α → Json} {ofJson : Json → α} {a : α} {n : Nat}
    (hheld : Held (encode a)) (hdepth : (encode a).depth ≤ n) (hof : ofJson (encode a).reread = a) :
    (Codec.lenient encode ofJson).LawfulAt n a where
  held := hheld
  rereads := congrArg Except.ok hof
  reader := by
    intro l hl nesting hn level g rest hg hrest
    have h := (value_write hl hheld nesting level hrest).ok (hdepth.trans hn)
    rw [← value_gaps hg] at h
    refine (bind_of_ok h).trans ?_
    rw [hof, pure_apply]

/-! ## Collections -/

section Collections

variable {α : Type} {c : Codec α} {n : Nat}

theorem option_lawful {o : Option α}
    (h : ∀ a ∈ o, c.LawfulAt n a ∧ (c.encode a).isNull = false) : c.option.LawfulAt n o := by
  cases o with
  | none =>
    refine ⟨.null, rfl, ?_⟩
    intro l hl nesting hn level g rest hg hrest
    exact bind_of_ok (peek_at (s := 0x75 :: 0x6C :: 0x6C :: rest) hg rfl)
  | some a =>
    obtain ⟨ha, hnull⟩ := h a rfl
    refine ⟨ha.held, some_rereads ha.rereads hnull, ?_⟩
    intro l hl nesting hn level g rest hg hrest
    obtain ⟨b, tail, htext, hgap, -, hb⟩ := write_eq_cons l level ha.held
    have hb : b ≠ 0x6E := by simpa [hnull] using hb
    have hread := ha.reader hl hn level gaps_nil hrest
    show c.option.reader nesting (g ++ (bytes (write l level (c.encode a)) ++ rest)) = _
    rw [htext, List.cons_append] at hread ⊢
    rw [List.nil_append] at hread
    refine (bind_of_ok (peek_at hg hgap)).trans ?_
    simp [hb, bind_of_ok hread]

/-- The items of a list take one level less than the list. -/
theorem list_lawful {as : List α} (h : ∀ a ∈ as, c.LawfulAt n a) : c.list.LawfulAt (n + 1) as := by
  refine ⟨.arr (List.forall_mem_map.mpr fun a ha => (h a ha).held), ?_, ?_⟩
  · have hdecode := decode_list (f := id) fun a ha => (h a ha).rereads
    rwa [List.map_id] at hdecode
  · intro l hl nesting hn level g rest hg hrest
    obtain ⟨nesting, rfl⟩ := Nat.exists_eq_add_of_le' (Nat.le_of_add_left_le hn)
    have hitems : List.Forall₂ (ReadsItem l (c.reader nesting) fun _ => True)
        (as.map c.encode) as := by
      rw [List.forall₂_map_left_iff, List.forall₂_same]
      exact fun a ha => (h a ha).readsItem hl (Nat.le_of_succ_le_succ hn)
    obtain ⟨body, hbody, hread⟩ := items_write hl level hitems rest
    show c.list.reader (nesting + 1)
      (g ++ (bytes (write l level (.arr (as.map c.encode))) ++ rest)) = _
    rw [hbody, List.cons_append]
    refine (bind_of_ok (head_at hg rfl)).trans ?_
    exact (hread.enclosed endOfList rfl).ok fun _ _ => trivial

theorem entry_write {a : α} (h : c.LawfulAt n a) {l : Layout} (hl : l.Blank) {nesting : Nat}
    (hn : n ≤ nesting) (acc : List (String × α)) (name : String) :
    ReadsMember l (Codec.entry (c.reader nesting)) (fun _ => True) acc (name, c.encode a)
      (insert name a acc) := by
  intro level rest hrest
  obtain ⟨g, hg, hcolon⟩ := colon_write hl (bytes (write l level (c.encode a)) ++ rest)
  refine .of_ok ?_
  rw [Codec.entry, bind_of_ok hcolon, bind_of_ok (h.reader hl hn level hg hrest)]
  rfl

theorem entries_write {as : List (String × α)} (h : ∀ m ∈ as, c.LawfulAt n m.2) {l : Layout}
    (hl : l.Blank) {nesting : Nat} (hn : n ≤ nesting) (acc : List (String × α)) :
    ReadsFrom l (Codec.entry (c.reader nesting)) (fun _ => True) acc
      (as.map fun (name, a) => (name, c.encode a))
      (as.foldl (fun acc m => insert m.1 m.2 acc) acc) := by
  induction as generalizing acc with
  | nil => exact .nil acc
  | cons m as ih =>
    obtain ⟨hm, has⟩ := List.forall_mem_cons.mp h
    exact .cons (entry_write hm hl hn acc m.1) (ih has _)

theorem dictionary_lawful {as : List (String × α)} (hnames : SortedNames as)
    (h : ∀ m ∈ as, c.LawfulAt n m.2) : c.dictionary.LawfulAt (n + 1) as := by
  refine ⟨.obj (List.forall_mem_map.mpr fun m hm => (h m hm).held),
    dictionary_rereads hnames fun m hm => (h m hm).rereads, ?_⟩
  intro l hl nesting hn level g rest hg hrest
  obtain ⟨nesting, rfl⟩ := Nat.exists_eq_add_of_le' (Nat.le_of_add_left_le hn)
  have hentries := entries_write h hl (Nat.le_of_succ_le_succ hn) []
  rw [foldl_insert_eq_self hnames] at hentries
  obtain ⟨body, hbody, hread⟩ := members_write hl level hentries rest
  show c.dictionary.reader (nesting + 1)
    (g ++ (bytes (write l level (.obj (as.map fun (name, a) => (name, c.encode a)))) ++ rest)) = _
  rw [hbody, List.cons_append]
  refine (bind_of_ok (head_at hg rfl)).trans ?_
  exact (hread.enclosed endOfObject rfl).ok fun _ _ => trivial

end Collections

/-! ## Enumerations -/

section Enumerations

variable {α : Type} {c : Choice α} {a : α} {name : String}

theorem nameReader_write {g : List UInt8} (hg : Gaps g) {v : Variant α}
    (hlookup : c.lookup name = .ok v) (rest : List UInt8) :
    c.nameReader (g ++ (bytes (writeString name) ++ rest)) = .ok (v, rest) := by
  refine (bind_of_ok (head_writeString hg name rest)).trans ?_
  refine (bind_of_ok (string_writeString name rest)).trans ?_
  simp only [hlookup, pure_apply]

/-- A variant that is written as its name. -/
theorem plain_lawful {named : String} (hencode : c.encode a = .str name)
    (hlookup : c.lookup name = .ok (.plain named a)) (n : Nat) : c.codec.LawfulAt n a := by
  refine ⟨?_, ?_, ?_⟩
  · show Held (c.encode a)
    rw [hencode]
    exact .str name
  · show c.decode (c.encode a).reread = .ok a
    rw [hencode]
    show (c.lookup name >>= _) = _
    rw [hlookup]
    rfl
  · intro l hl nesting hn level g rest hg hrest
    show c.reader nesting (g ++ (bytes (write l level (c.encode a)) ++ rest)) = _
    have hread := nameReader_write gaps_nil hlookup rest
    obtain ⟨tail, htail⟩ := starts_writeString name rest
    rw [hencode, write]
    rw [List.nil_append, htail] at hread
    rw [htail]
    refine (bind_of_ok (peek_at hg rfl)).trans ?_
    exact bind_of_ok hread

/-- The object form of a variant with a text. -/
theorem objectReader_write {l : Layout} (hl : l.Blank) (level : Nat) {named : String}
    {make : String → α} (hlookup : c.lookup name = .ok (.text named make)) (text : String)
    (rest : List UInt8) :
    ∃ body, bytes (write l level (.obj [(name, .str text)])) = 0x7B :: body ∧
      c.objectReader (0x7B :: (body ++ rest)) = .ok (make text, rest) := by
  refine ⟨bytes (l.gap (level + 1)) ++ (bytes (writeString name) ++ (bytes l.colon ++
    (bytes (writeString text) ++ (bytes (l.gap level) ++ [0x7D])))), ?_, ?_⟩
  · simp only [write, writeMembers, Text.bytes_append, List.append_assoc]
    rfl
  · obtain ⟨g, hg, hcolon⟩ := colon_write hl
      (bytes (writeString text) ++ (bytes (l.gap level) ++ 0x7D :: rest))
    have hname := nameReader_write (hl.gap (level + 1)) hlookup
      (bytes l.colon ++ (bytes (writeString text) ++ (bytes (l.gap level) ++ 0x7D :: rest)))
    have hvalue : Codec.string.reader 0
        (g ++ (bytes (writeString text) ++ (bytes (l.gap level) ++ 0x7D :: rest))) =
          .ok (text, bytes (l.gap level) ++ 0x7D :: rest) :=
      (bind_of_ok (head_writeString hg text _)).trans (string_writeString text _)
    have hclose := peek_at (s := rest) (b := 0x7D) (hl.gap level) rfl
    simp only [List.append_assoc, List.singleton_append]
    rw [Choice.objectReader, advance_bind, List.tail_cons, bind_of_ok hname, bind_of_ok hcolon]
    refine (bind_of_ok hvalue).trans ?_
    rw [pure_bind]
    exact bind_of_ok hclose

/-- A variant that is written with a text. -/
theorem text_lawful {named text : String} {make : String → α}
    (hencode : c.encode a = .obj [(name, .str text)])
    (hlookup : c.lookup name = .ok (.text named make)) (hmake : make text = a) (n : Nat) :
    c.codec.LawfulAt (n + 1) a := by
  refine ⟨?_, ?_, ?_⟩
  · show Held (c.encode a)
    rw [hencode]
    simp
  · show c.decode (c.encode a).reread = .ok a
    rw [hencode]
    show (c.lookup name >>= _) = _
    rw [hlookup, ← hmake]
    rfl
  · intro l hl nesting hn level g rest hg hrest
    obtain ⟨body, hbody, hread⟩ := objectReader_write hl level hlookup text rest
    show c.reader nesting (g ++ (bytes (write l level (c.encode a)) ++ rest)) = _
    rw [hencode, hbody, List.cons_append]
    refine (bind_of_ok (peek_at hg rfl)).trans ?_
    -- the level that the object opens is still there
    show (if nesting = 0 then _ else c.objectReader) _ = _
    rw [if_neg (by omega), hread, hmake]

end Enumerations

/-! ## Structures -/

/-- A value that is not written is the one for which the absent field stands. -/
def Field.LawfulAt {α : Type} (f : Field α) (n : Nat) (a : α) : Prop :=
  if f.hidden a then f.absent = .inObject a ∨ f.absent = .default a else f.codec.LawfulAt n a

namespace Fields

/-- The same for the values of all fields. -/
def LawfulAt (n : Nat) : {ts : List Type} → Fields ts → Row ts → Prop
  | _, .nil, _ => True
  | _, .cons f rest, (a, row) => f.LawfulAt n a ∧ rest.LawfulAt n row

variable {ts : List Type} {fields : Fields ts} {row : Row ts} {n : Nat}

theorem LawfulAt.rereads (h : fields.LawfulAt n row) : fields.Rereads row row := by
  induction fields with
  | nil => trivial
  | cons f rest ih =>
    obtain ⟨a, row⟩ := row
    obtain ⟨hf, hrest⟩ := h
    refine ⟨?_, ih hrest⟩
    rw [Field.Rereads]
    by_cases hhidden : f.hidden a = true
    · rw [Field.LawfulAt, if_pos hhidden] at hf
      rwa [if_pos hhidden]
    · rw [Field.LawfulAt, if_neg hhidden] at hf
      rw [if_neg hhidden]
      exact hf.rereads

theorem LawfulAt.held (h : fields.LawfulAt n row) : ∀ m ∈ fields.encode row, Held m.2 := by
  induction fields with
  | nil => exact fun _ hm => nomatch hm
  | cons f rest ih =>
    obtain ⟨a, row⟩ := row
    obtain ⟨hf, hrest⟩ := h
    intro m hm
    rcases mem_encode_cons hm with ⟨hshown, rfl⟩ | hm
    · rw [Field.LawfulAt, hshown, if_neg Bool.false_ne_true] at hf
      exact hf.held
    · exact ih hrest m hm

section Text

variable {l : Layout} {nesting : Nat}

theorem readMember_own {α : Type} (f : Field α) (others : Fields ts) (slots : Slots ts) :
    (cons f others).readMember nesting (none, slots) f.name =
      (do colon; let a ← f.codec.reader nesting; return (some a, slots)) := if_pos rfl

theorem readMember_other {α : Type} {f : Field α} {name : String} (hne : name ≠ f.name)
    (others : Fields ts) (slot : Option α) (slots : Slots ts) :
    (cons f others).readMember nesting (slot, slots) name =
      (do return (slot, ← others.readMember nesting slots name)) := if_neg hne

/-- A written member fills the slot of its field and no other. -/
theorem readMember_write (hnd : fields.names.Nodup) (h : fields.LawfulAt n row) (hl : l.Blank)
    (hn : n ≤ nesting) {m : String × Json} (hmem : m ∈ fields.encode row) {p : String → Bool}
    (hp : p m.1 = false) :
    ReadsMember l (fields.readMember nesting) (fun _ => True) (fields.seen p row) m
      (fields.seen (fun x => p x || x == m.1) row) := by
  intro level rest hrest
  refine .of_ok ?_
  induction fields with
  | nil => cases hmem
  | cons f others ih =>
    obtain ⟨a, row⟩ := row
    obtain ⟨hf, hothers⟩ := h
    rw [names, List.nodup_cons] at hnd
    rcases mem_encode_cons hmem with ⟨hshown, rfl⟩ | hmem
    · rw [Field.LawfulAt, hshown, if_neg Bool.false_ne_true] at hf
      have hothers' : others.seen (fun x => p x || x == f.name) row = others.seen p row :=
        seen_congr (fun x hx => by
          have hne : x ≠ f.name := fun h => hnd.1 (h ▸ hx)
          rw [beq_eq_false_iff_ne.mpr hne, Bool.or_false]) row
      have hbefore : (cons f others).seen p (a, row) = (none, others.seen p row) := by
        rw [seen, if_neg (by rw [hp]; exact Bool.false_ne_true)]
      have hafter : (cons f others).seen (fun x => p x || x == f.name) (a, row) =
          (some a, others.seen p row) := by
        rw [seen, hothers', if_pos (by rw [beq_self_eq_true, Bool.or_true])]
      obtain ⟨g, hg, hcolon⟩ := colon_write hl (bytes (write l level (f.codec.encode a)) ++ rest)
      have hread := hf.reader hl hn level hg hrest
      rw [hbefore, hafter, readMember_own, bind_of_ok hcolon, bind_of_ok hread]
      rfl
    · have hne : m.1 ≠ f.name := fun h => hnd.1 (h ▸ name_mem_of_mem_encode hmem)
      have hslot : (p f.name || f.name == m.1) = p f.name := by
        rw [beq_eq_false_iff_ne.mpr hne.symm, Bool.or_false]
      rw [seen, seen, hslot, readMember_other hne]
      exact bind_of_ok (ih hnd.2 hothers hmem)

/-- Written members fill the slots of their fields. -/
theorem readMembers_write (hnd : fields.names.Nodup) (h : fields.LawfulAt n row) (hl : l.Blank)
    (hn : n ≤ nesting) {ms : List (String × Json)} (hms : ∀ m ∈ ms, m ∈ fields.encode row)
    (hnames : (ms.map Prod.fst).Nodup) {p : String → Bool} (hp : ∀ m ∈ ms, p m.1 = false) :
    ReadsFrom l (fields.readMember nesting) (fun _ => True) (fields.seen p row) ms
      (fields.seen (fun x => p x || ms.any (·.1 == x)) row) := by
  induction ms generalizing p with
  | nil =>
    simp only [List.any_nil, Bool.or_false]
    exact .nil _
  | cons m ms ih =>
    obtain ⟨hm, hms⟩ := List.forall_mem_cons.mp hms
    obtain ⟨hpm, hpms⟩ := List.forall_mem_cons.mp hp
    rw [List.map_cons, List.nodup_cons] at hnames
    have hrest := ih hms hnames.2 (p := fun x => p x || x == m.1) fun m' hm' => by
      rw [hpms m' hm', Bool.false_or]
      exact beq_eq_false_iff_ne.mpr fun h => hnames.1 (List.mem_map.mpr ⟨m', hm', h⟩)
    refine .cons (readMember_write hnd h hl hn hm hpm) ?_
    convert hrest using 3 with x
    rw [List.any_cons, Bool.or_assoc, Bool.beq_comm]

end Text

end Fields

/-- The fields of a structure take one level less than the structure. -/
theorem record_lawful {σ : Type} {ts : List Type} {name : String} {fields : Fields ts}
    {toRow : σ → Row ts} {ofRow : Row ts → σ} {a : σ} {n : Nat} (hnd : fields.names.Nodup)
    (ha : ofRow (toRow a) = a) (h : fields.LawfulAt n (toRow a)) :
    (Codec.record name fields toRow ofRow).LawfulAt (n + 1) a := by
  refine ⟨.obj h.held, record_rereads hnd ha h.rereads, ?_⟩
  intro l hl nesting hn level g rest hg hrest
  obtain ⟨nesting, rfl⟩ := Nat.exists_eq_add_of_le' (Nat.le_of_add_left_le hn)
  have hmembers := Fields.readMembers_write hnd h hl (Nat.le_of_succ_le_succ hn)
    (fun m hm => hm) (Fields.nodup_encode hnd (toRow a)) (p := fun _ => false) fun _ _ => rfl
  rw [← Fields.empty_eq_seen] at hmembers
  have hcomplete := Fields.complete_seen h.rereads.hides
    (p := fun x => false || (fields.encode (toRow a)).any (·.1 == x)) fun m hm => by
      rw [Bool.false_or, List.any_eq_true]
      exact ⟨m, hm, beq_self_eq_true m.1⟩
  obtain ⟨body, hbody, hread⟩ := members_write hl level hmembers rest
  have hobject : fields.readObject nesting (body ++ rest) = .ok (toRow a, 0x7D :: rest) := by
    refine (bind_of_ok (hread.ok fun _ _ => trivial)).trans ?_
    rw [hcomplete]
    rfl
  show (Codec.record name fields toRow ofRow).reader (nesting + 1)
    (g ++ (bytes (write l level (.obj (fields.encode (toRow a)))) ++ rest)) = _
  rw [hbody, List.cons_append]
  refine (bind_of_ok (head_at hg rfl)).trans ?_
  have hnested : nested endOfObject fields.readObject (nesting + 1) (0x7B :: (body ++ rest)) =
      .ok (toRow a, rest) := ((Outcome.of_ok hobject).enclosed endOfObject rfl).ok trivial
  refine (bind_of_ok hnested).trans ?_
  rw [ha, pure_apply]

end Workbench.Json
