import Mathlib.Data.List.Nodup
import Workbench.Toml.Reader

/-!
# Each key of a document once

A table may be written in pieces: under several headers, by dotted keys, within braces. However it
came together, no key is in it twice.

* `set_tidy`, `within_tidy`, `add_tidy`: each change of the tables in the making keeps this;
* `yields_line`, `yields_linesUpTo`: hence a line keeps it, and by induction all lines do;
* `tidy_of_parse`: the table that a document is has each key once, at every level.
-/
namespace Workbench.Toml

/-! ## Values and tables in the making -/

/-- In every table within, each key is there once. -/
inductive Tidy : Toml → Prop
  | string (s : String) : Tidy (.string s)
  | integer (n : Int) : Tidy (.integer n)
  | float (x : Option Binary64) : Tidy (.float x)
  | boolean (b : Bool) : Tidy (.boolean b)
  | datetime (t : String) : Tidy (.datetime t)
  | array {items : List Toml} : (∀ v ∈ items, Tidy v) → Tidy (.array items)
  | table {entries : List (String × Toml)} :
      (entries.map Prod.fst).Nodup → (∀ e ∈ entries, Tidy e.2) → Tidy (.table entries)

inductive Node.Tidy : Node → Prop
  | value {v : Toml} : v.Tidy → Tidy (.value v)
  | section_ {origin : Origin} {es : Entries} :
      (es.map Prod.fst).Nodup → (∀ e ∈ es, Tidy e.2) → Tidy (.section_ origin es)
  | series {before : List Entries} {last : Entries} :
      (∀ es ∈ before, (es.map Prod.fst).Nodup) → (∀ es ∈ before, ∀ e ∈ es, Tidy e.2) →
      (last.map Prod.fst).Nodup → (∀ e ∈ last, Tidy e.2) → Tidy (.series before last)

/-- Each key is there once, and so it is in all that stands under the keys. -/
structure Entries.Tidy (es : Entries) : Prop where
  nodup : (es.map Prod.fst).Nodup
  nodes : ∀ e ∈ es, e.2.Tidy

variable {es es' inner : Entries} {k : String} {node : Node} {v : Toml}

theorem Node.tidy_section {origin : Origin} :
    (Node.section_ origin inner).Tidy ↔ inner.Tidy := by
  constructor
  · rintro ⟨⟩
    exact ⟨‹_›, ‹_›⟩
  · exact fun h => .section_ h.nodup h.nodes

theorem Node.tidy_series {before : List Entries} {last : Entries} :
    (Node.series before last).Tidy ↔ (∀ es ∈ before, es.Tidy) ∧ last.Tidy := by
  constructor
  · rintro ⟨⟩
    rename_i hbefore hnodes hlast hlastNodes
    exact ⟨fun es hes => ⟨hbefore es hes, hnodes es hes⟩, hlast, hlastNodes⟩
  · rintro ⟨hbefore, hlast⟩
    exact .series (fun es hes => (hbefore es hes).nodup) (fun es hes => (hbefore es hes).nodes)
      hlast.nodup hlast.nodes

theorem entriesToToml_eq_map (es : Entries) :
    entriesToToml es = es.map fun e => (e.1, e.2.toToml) := by
  induction es with
  | nil => rfl
  | cons e es ih => rw [entriesToToml, ih, List.map_cons]

theorem itemsToToml_eq_map (items : List Entries) :
    itemsToToml items = items.map fun es => .table (entriesToToml es) := by
  induction items with
  | nil => rfl
  | cons es items ih => rw [itemsToToml, ih, List.map_cons]

theorem tidy_table_of_map (hnodup : (es.map Prod.fst).Nodup)
    (hnodes : ∀ e ∈ es, e.2.toToml.Tidy) : (Toml.table (entriesToToml es)).Tidy := by
  rw [entriesToToml_eq_map]
  refine .table (by rwa [List.map_map]) fun e he => ?_
  obtain ⟨e', he', rfl⟩ := List.mem_map.mp he
  exact hnodes e' he'

theorem Node.Tidy.toToml (h : node.Tidy) : node.toToml.Tidy := by
  induction h with
  | value h => exact h
  | section_ hnodup _ ih => exact tidy_table_of_map hnodup ih
  | @series before last hbefore _ hlast _ ihbefore ihlast =>
    refine .array fun v hv => ?_
    rcases List.mem_append.mp hv with hv | hv
    · rw [itemsToToml_eq_map] at hv
      obtain ⟨es, hes, rfl⟩ := List.mem_map.mp hv
      exact tidy_table_of_map (hbefore es hes) (ihbefore es hes)
    · rw [List.mem_singleton.mp hv]
      exact tidy_table_of_map hlast ihlast

theorem Entries.Tidy.toToml (h : es.Tidy) : (Toml.table (entriesToToml es)).Tidy :=
  tidy_table_of_map h.nodup fun e he => (h.nodes e he).toToml

/-! ## Changes of tables -/

namespace Entries

theorem tidy_nil : Tidy [] := ⟨List.nodup_nil, fun _ he => nomatch he⟩

theorem Tidy.of_lookup (h : es.Tidy) (hlookup : es.lookup k = some node) : node.Tidy := by
  obtain ⟨l₁, l₂, rfl, -⟩ := List.lookup_eq_some_iff.mp hlookup
  exact h.nodes (k, node) (by simp)

theorem mem_keys_set {k' : String} (h : k' ∈ (es.set k node).map Prod.fst) :
    k' = k ∨ k' ∈ es.map Prod.fst := by
  induction es with
  | nil => exact .inl (List.mem_singleton.mp h)
  | cons e es ih =>
    unfold set at h
    split at h
    · exact .inr h
    · rw [List.map_cons, List.mem_cons] at h ⊢
      rcases h with h | h
      · exact .inr (.inl h)
      · exact (ih h).imp_right .inr

theorem set_tidy (h : es.Tidy) (hnode : node.Tidy) : (es.set k node).Tidy := by
  induction es with
  | nil => exact ⟨List.nodup_singleton k, fun e he => List.mem_singleton.mp he ▸ hnode⟩
  | cons e es ih =>
    obtain ⟨k', n⟩ := e
    obtain ⟨hnodup, hnodes⟩ := h
    have hcons := List.nodup_cons.mp hnodup
    obtain ⟨hfirst, hrest⟩ := List.forall_mem_cons.mp hnodes
    unfold set
    split
    · exact ⟨hnodup, List.forall_mem_cons.mpr ⟨hnode, hrest⟩⟩
    · rename_i hne
      obtain ⟨hnodup', hnodes'⟩ := ih ⟨hcons.2, hrest⟩
      refine ⟨List.nodup_cons.mpr ⟨fun hmem => ?_, hnodup'⟩,
        List.forall_mem_cons.mpr ⟨hfirst, hnodes'⟩⟩
      exact (mem_keys_set hmem).elim hne hcons.1

theorem openTable_tidy (h : es.Tidy) (hopen : openTable k es = some es') : es'.Tidy := by
  unfold openTable at hopen
  split at hopen
  · cases hopen
    exact set_tidy h (Node.tidy_section.mpr tidy_nil)
  · rename_i inner hlookup
    cases hopen
    exact set_tidy h (Node.tidy_section.mpr (Node.tidy_section.mp (h.of_lookup hlookup)))
  · cases hopen

theorem openItem_tidy (h : es.Tidy) (hopen : openItem k es = some es') : es'.Tidy := by
  unfold openItem at hopen
  split at hopen
  · cases hopen
    exact set_tidy h (Node.tidy_series.mpr ⟨fun _ hmem => (nomatch hmem), tidy_nil⟩)
  · rename_i before last hlookup
    cases hopen
    obtain ⟨hbefore, hlast⟩ := Node.tidy_series.mp (h.of_lookup hlookup)
    refine set_tidy h (Node.tidy_series.mpr ⟨fun es hes => ?_, tidy_nil⟩)
    rcases List.mem_append.mp hes with hes | hes
    · exact hbefore es hes
    · exact List.mem_singleton.mp hes ▸ hlast
  · cases hopen

/-- A change that keeps the table at the end of a path tidy keeps all tables tidy. -/
theorem within_tidy {change : Entries → Option Entries} {path : List String}
    (hchange : ∀ {es es'}, Tidy es → change es = some es' → Tidy es')
    (h : es.Tidy) (hwithin : within change path es = some es') : es'.Tidy := by
  induction path generalizing es es' with
  | nil => exact hchange h hwithin
  | cons k path ih =>
    rw [within] at hwithin
    split at hwithin
    · obtain ⟨inner, hinner, heq⟩ := Option.bind_eq_some_iff.mp hwithin
      cases heq
      exact set_tidy h (Node.tidy_section.mpr (ih tidy_nil hinner))
    · rename_i origin inner hlookup
      obtain ⟨inner', hinner, heq⟩ := Option.bind_eq_some_iff.mp hwithin
      cases heq
      have hbefore := Node.tidy_section.mp (h.of_lookup hlookup)
      exact set_tidy h (Node.tidy_section.mpr (ih hbefore hinner))
    · rename_i before last hlookup
      obtain ⟨last', hlast', heq⟩ := Option.bind_eq_some_iff.mp hwithin
      cases heq
      obtain ⟨hbefore, hlast⟩ := Node.tidy_series.mp (h.of_lookup hlookup)
      exact set_tidy h (Node.tidy_series.mpr ⟨hbefore, ih hlast hlast'⟩)
    · cases hwithin

theorem add_tidy {path : List String} (hv : v.Tidy) (h : es.Tidy)
    (hadd : add v path es = some es') : es'.Tidy := by
  induction path generalizing es es' with
  | nil => cases hadd
  | cons k path ih =>
    cases path with
    | nil =>
      rw [add] at hadd
      split at hadd
      · cases hadd
      · cases hadd
        exact set_tidy h (.value hv)
    | cons k' path =>
      rw [add] at hadd
      · split at hadd
        · obtain ⟨inner, hinner, heq⟩ := Option.bind_eq_some_iff.mp hadd
          cases heq
          exact set_tidy h (Node.tidy_section.mpr (ih tidy_nil hinner))
        · rename_i inner hlookup
          obtain ⟨inner', hinner, heq⟩ := Option.bind_eq_some_iff.mp hadd
          cases heq
          have hbefore := Node.tidy_section.mp (h.of_lookup hlookup)
          exact set_tidy h (Node.tidy_section.mpr (ih hbefore hinner))
        · rename_i inner hlookup
          split at hadd
          · obtain ⟨inner', hinner, heq⟩ := Option.bind_eq_some_iff.mp hadd
            cases heq
            have hbefore := Node.tidy_section.mp (h.of_lookup hlookup)
            exact set_tidy h (Node.tidy_section.mpr (ih hbefore hinner))
          · cases hadd
        · cases hadd
      · simp

end Entries

/-! ## Readers -/

/-- Whatever `r` reads satisfies `P`. -/
def Scan.Yields {α : Type} (P : α → Prop) (r : Scan α) : Prop :=
  ∀ cs a rest, r cs = some (a, rest) → P a

section Yields

open Scan

variable {α β : Type} {P : α → Prop} {Q : β → Prop} {r : Scan α} {f : α → Scan β}

theorem yields_bind (hr : r.Yields P) (hf : ∀ a, P a → (f a).Yields Q) : (r >>= f).Yields Q := by
  intro cs b rest h
  obtain ⟨⟨a, cs'⟩, ha, h⟩ := Option.bind_eq_some_iff.mp h
  exact hf a (hr cs a cs' ha) cs' b rest h

/-- What comes before does not matter. -/
theorem yields_after (hf : ∀ a, (f a).Yields Q) : (r >>= f).Yields Q :=
  yields_bind (P := fun _ => True) (fun _ _ _ _ => trivial) fun a _ => hf a

theorem yields_pure {a : α} (h : P a) : (pure a : Scan α).Yields P := by
  intro cs a' rest heq
  cases heq
  exact h

theorem yields_fail : (fail : Scan α).Yields P := fun _ _ _ h => nomatch h

theorem yields_lift {o : Option α} (h : ∀ a, o = some a → P a) : (lift o).Yields P := by
  intro cs a rest heq
  obtain ⟨a', ha, heq⟩ := Option.map_eq_some_iff.mp heq
  cases heq
  exact h _ ha

end Yields

theorem tidy_of_word? {cs : List Char} (h : word? cs = some v) : v.Tidy := by
  unfold word? at h
  split_ifs at h
  · cases h
    exact .boolean true
  · cases h
    exact .boolean false
  · cases h
    exact .datetime _
  · split at h
    · cases h
      exact .integer _
    · obtain ⟨x, -, rfl⟩ := Option.map_eq_some_iff.mp h
      exact .float x

theorem yields_word : word.Yields Tidy := by
  refine yields_after fun w => ?_
  extract_lets rest
  have hrest (w : List Char) : (rest w).Yields Tidy := by
    dsimp only [rest]
    split
    · rename_i v hv
      exact yields_pure (tidy_of_word? hv)
    · exact yields_fail
  split
  · refine yields_after fun cs => ?_
    split
    · split
      · exact yields_after fun _ => yields_after fun _ => yields_after hrest
      · exact yields_after hrest
    · exact yields_after hrest
  · exact yields_after hrest

theorem yields_arrayItems {item : Scan Toml} (hitem : item.Yields Tidy) (fuel : Nat) :
    (arrayItems item fuel).Yields fun vs => ∀ v ∈ vs, v.Tidy := by
  induction fuel with
  | zero => exact yields_fail
  | succ fuel ih =>
    refine yields_after fun _ => yields_after fun closed => ?_
    split
    · exact yields_pure fun _ hv => nomatch hv
    · refine yields_bind hitem fun v hv => yields_after fun _ => yields_after fun more => ?_
      split
      · exact yields_bind ih fun vs hvs => yields_pure (List.forall_mem_cons.mpr ⟨hv, hvs⟩)
      · exact yields_after fun _ => yields_pure fun w hw => List.mem_singleton.mp hw ▸ hv

theorem yields_inlineEntries {item : Scan Toml} (hitem : item.Yields Tidy) (fuel : Nat)
    (h : es.Tidy) : (inlineEntries item fuel es).Yields Entries.Tidy := by
  induction fuel generalizing es with
  | zero => exact yields_fail
  | succ fuel ih =>
    refine yields_after fun _ => yields_after fun closed => ?_
    split
    · exact yields_pure h
    · refine yields_after fun path => yields_after fun _ => yields_after fun _ =>
        yields_bind hitem fun v hv => ?_
      split
      · exact yields_fail
      · rename_i es' hadd
        have hes' := Entries.add_tidy hv h hadd
        refine yields_after fun _ => yields_after fun more => ?_
        split
        · exact ih hes'
        · exact yields_after fun _ => yields_pure hes'

theorem yields_valueUpTo (fuel : Nat) : (valueUpTo fuel).Yields Tidy := by
  induction fuel with
  | zero => exact yields_fail
  | succ fuel ih =>
    refine yields_after fun next => ?_
    split
    · exact yields_after fun s => yields_pure (.string s)
    · exact yields_after fun s => yields_pure (.string s)
    · exact yields_after fun _ => yields_bind (yields_arrayItems ih _) fun vs hvs =>
        yields_pure (.array hvs)
    · exact yields_after fun _ => yields_bind (yields_inlineEntries ih _ Entries.tidy_nil)
        fun es hes => yields_pure hes.toToml
    · exact yields_word

theorem yields_value : value.Yields Tidy := fun cs => yields_valueUpTo _ cs

/-! ## Documents -/

variable {d : Draft}

/-- A line keeps the tables tidy. -/
theorem yields_line (h : d.tables.Tidy) : (line d).Yields fun d => d.tables.Tidy := by
  refine yields_after fun _ => yields_after fun next => ?_
  split
  · exact yields_pure h
  · exact yields_after fun _ => yields_pure h
  · exact yields_after fun _ => yields_pure h
  · exact yields_after fun _ => yields_pure h
  · refine yields_after fun double => ?_
    split
    · exact yields_after fun path => yields_bind
        (yields_lift fun es => Entries.within_tidy Entries.openItem_tidy h) fun es hes =>
          yields_pure hes
    · exact yields_after fun _ => yields_after fun path => yields_bind
        (yields_lift fun es => Entries.within_tidy Entries.openTable_tidy h) fun es hes =>
          yields_pure hes
  · refine yields_after fun path => yields_after fun _ => yields_after fun _ =>
      yields_bind yields_value fun v hv => yields_after fun _ => ?_
    exact yields_bind (yields_lift fun es => Entries.within_tidy (Entries.add_tidy hv) h)
      fun es hes => yields_pure hes

theorem yields_linesUpTo (fuel : Nat) (h : d.tables.Tidy) :
    (linesUpTo fuel d).Yields fun d => d.tables.Tidy := by
  induction fuel generalizing d with
  | zero => exact yields_pure h
  | succ fuel ih =>
    refine yields_after fun next => ?_
    split
    · exact yields_pure h
    · exact yields_bind (yields_line h) fun d hd => ih hd

/-- **A document is a table that has each key once, at every level.** -/
theorem tidy_of_parse {document : String} (h : parse document = some v) : v.Tidy := by
  simp only [parse] at h
  split at h
  · rename_i d hlines
    cases h
    exact (yields_linesUpTo _ Entries.tidy_nil _ _ _ hlines).toToml
  · cases h

end Workbench.Toml
