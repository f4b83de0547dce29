import Workbench.Proofs.Menu

/-!
# The first word of the backend

Of the permissions of a row its menu takes in, for each known key, the first word (`firstWord`).
Permissions are rephrased (`Rephrased`) by words on unknown keys, by further words on a key that has
had its word, and by another order of words on different keys, in whatever number.

* `Rephrased.firstWord_eq`: no rephrasing changes the first word on a known key;
* `gated_eq_iff`: an entry shows the first word on its key, and nothing else of the permissions;
* `menu_of_first_words`: hence rows that differ in nothing but permissions have one menu if the
  first words are the same, and for a workflow only then; and rephrasing never changes the menu.
-/
namespace Workbench

/-- The first word on a key, if there is one: whether the action is allowed. -/
def firstWord (ps : List Permission) (key : ActionKey) : Option Bool :=
  (ps.find? (·.key == key)).map (·.enable)

/-- The same permissions in other words. -/
inductive Rephrased : List Permission → List Permission → Prop
  | unknown (before after : List Permission) {p : Permission} (h : p.key = .unknown) :
      Rephrased (before ++ p :: after) (before ++ after)
  | again (before after : List Permission) {p : Permission} (h : p.key ∈ before.map (·.key)) :
      Rephrased (before ++ p :: after) (before ++ after)
  | swap (before after : List Permission) {p q : Permission} (h : p.key ≠ q.key) :
      Rephrased (before ++ p :: q :: after) (before ++ q :: p :: after)
  | refl (ps : List Permission) : Rephrased ps ps
  | symm {ps qs : List Permission} (h : Rephrased ps qs) : Rephrased qs ps
  | trans {ps qs rs : List Permission} (h : Rephrased ps qs) (h' : Rephrased qs rs) :
      Rephrased ps rs

variable {ps qs before after : List Permission} {p q : Permission} {r r' : Resource}
  {viewer : Viewer} {key : ActionKey} {action : Action} {label : String}

/-! ## Rephrasing -/

/-- A word on another key is passed over. -/
theorem firstWord_other (h : p.key ≠ key) :
    firstWord (before ++ p :: after) key = firstWord (before ++ after) key := by
  simp [firstWord, List.find?_append, h]

/-- What has been said on a key settles it. -/
theorem firstWord_again (h : p.key ∈ before.map (·.key)) :
    firstWord (before ++ p :: after) key = firstWord (before ++ after) key := by
  by_cases hkey : p.key = key
  · obtain ⟨q, hq, hsame⟩ := List.mem_map.mp h
    have hfound : (before.find? (·.key == key)).isSome = true :=
      List.find?_isSome.mpr ⟨q, hq, by simp [hsame, hkey]⟩
    obtain ⟨first, hfirst⟩ := Option.isSome_iff_exists.mp hfound
    simp [firstWord, List.find?_append, hfirst]
  · exact firstWord_other hkey

theorem firstWord_swap (h : p.key ≠ q.key) :
    firstWord (before ++ p :: q :: after) key = firstWord (before ++ q :: p :: after) key := by
  by_cases hp : p.key = key
  · have hq : q.key ≠ key := fun hq => h (hp.trans hq.symm)
    simp [firstWord, List.find?_append, hp, hq]
  · simp [firstWord, List.find?_append, List.find?_cons, hp]

/-- **Rephrasing leaves the first word on every known key as it is.** -/
theorem Rephrased.firstWord_eq (h : Rephrased ps qs) (hkey : key ≠ .unknown) :
    firstWord ps key = firstWord qs key := by
  induction h with
  | unknown _ _ h => exact firstWord_other fun hsame => hkey (hsame.symm.trans h)
  | again _ _ h => exact firstWord_again h
  | swap _ _ h => exact firstWord_swap h
  | refl ps => rfl
  | symm _ ih => exact ih.symm
  | trans _ _ ih ih' => exact ih.trans ih'

/-! ## Menus -/

theorem gated_eq : Menu.gated r key action label =
    match firstWord r.permissions key with
    | some enable => .make action label true enable
    | none => .hidden action label := by
  unfold Menu.gated firstWord Resource.permission
  cases r.permissions.find? (·.key == key) <;> rfl

/-- An entry shows whether there is a word on its key, and what the first one is. -/
theorem gated_eq_iff : Menu.gated r key action label = Menu.gated r' key action label ↔
    firstWord r.permissions key = firstWord r'.permissions key := by
  rw [gated_eq, gated_eq]
  cases firstWord r.permissions key <;> cases firstWord r'.permissions key <;>
    simp [Entry.make, Entry.hidden]

theorem build_congr (h : ∀ key, key ≠ .unknown → firstWord ps key = firstWord qs key) :
    Menu.build { r with permissions := ps } viewer Menu.noHook =
      Menu.build { r with permissions := qs } viewer Menu.noHook := by
  have hentry {key : ActionKey} (action : Action) (label : String) (hkey : key ≠ .unknown) :
      Menu.gated { r with permissions := ps } key action label =
        Menu.gated { r with permissions := qs } key action label := gated_eq_iff.mpr (h key hkey)
  have hrows : Menu.builtInRows { r with permissions := ps } viewer =
      Menu.builtInRows { r with permissions := qs } viewer := by
    unfold Menu.builtInRows
    rw [hentry .edit "Edit" (by decide),
      hentry .switchToChatflow "Switch to chatflow" (by decide),
      hentry .switchToWorkflow "Switch to workflow" (by decide)]
    rfl
  have hcopy : Menu.copyEntry { r with permissions := ps } =
      Menu.copyEntry { r with permissions := qs } := hentry .copy "Copy" (by decide)
  have hdelete : Menu.deleteEntry { r with permissions := ps } =
      Menu.deleteEntry { r with permissions := qs } := hentry .delete "Delete" (by decide)
  unfold Menu.build
  rw [hrows, hcopy, hdelete]
  rfl

/-- The menu of a workflow shows the first word on every known key. -/
theorem firstWord_of_build_eq (hkind : r.kind = .workflow) (hkind' : r'.kind = .workflow)
    (h : Menu.build r viewer Menu.noHook = Menu.build r' viewer Menu.noHook)
    (hkey : key ≠ .unknown) : firstWord r.permissions key = firstWord r'.permissions key := by
  simp only [Menu.build, hkind, hkind', if_true, Menu.builtInRows, Menu.noHook, Menu.copyEntry,
    Menu.deleteEntry, List.append_nil, Menu.mk.injEq, Control.mk.injEq, List.cons.injEq] at h
  obtain ⟨⟨hedit, hchatflow, hworkflow, -⟩, hcopy, hdelete⟩ := h
  cases key with
  | edit => exact gated_eq_iff.mp hedit
  | copy => exact gated_eq_iff.mp hcopy
  | delete => exact gated_eq_iff.mp hdelete
  | switchToChatflow => exact gated_eq_iff.mp hchatflow
  | switchToWorkflow => exact gated_eq_iff.mp hworkflow
  | unknown => exact absurd rfl hkey

/-- **The first words make the menu.** For rows that differ in nothing but permissions, the menus
are the same if the first words on all known keys are, and for a workflow only then. No rephrasing
changes the menu. -/
theorem menu_of_first_words (r : Resource) (viewer : Viewer) (ps qs : List Permission) :
    ((∀ key, key ≠ .unknown → firstWord ps key = firstWord qs key) →
      Menu.build { r with permissions := ps } viewer Menu.noHook =
        Menu.build { r with permissions := qs } viewer Menu.noHook) ∧
    (Rephrased ps qs →
      Menu.build { r with permissions := ps } viewer Menu.noHook =
        Menu.build { r with permissions := qs } viewer Menu.noHook) ∧
    (r.kind = .workflow →
      Menu.build { r with permissions := ps } viewer Menu.noHook =
        Menu.build { r with permissions := qs } viewer Menu.noHook →
      ∀ key, key ≠ .unknown → firstWord ps key = firstWord qs key) := by
  refine ⟨build_congr, ?_, ?_⟩
  · intro h
    exact build_congr fun key hkey => h.firstWord_eq hkey
  · intro hkind hmenu key hkey
    have hps : ({ r with permissions := ps } : Resource).kind = .workflow := hkind
    have hqs : ({ r with permissions := qs } : Resource).kind = .workflow := hkind
    exact firstWord_of_build_eq hps hqs hmenu hkey

/-- Deleting is refused, and allowed too late. -/
def lengthyWords : List Permission :=
  [⟨.delete, false⟩, ⟨.unknown, true⟩, ⟨.edit, true⟩, ⟨.delete, true⟩]

def conciseWords : List Permission := [⟨.edit, true⟩, ⟨.delete, false⟩]

theorem rephrased_lengthy : Rephrased lengthyWords conciseWords := by
  have hagain : Rephrased lengthyWords [⟨.delete, false⟩, ⟨.unknown, true⟩, ⟨.edit, true⟩] :=
    .again [_, _, _] [] (by decide)
  have hunknown : Rephrased [⟨.delete, false⟩, ⟨.unknown, true⟩, ⟨.edit, true⟩]
      [⟨.delete, false⟩, ⟨.edit, true⟩] := .unknown [_] [_] rfl
  have hswap : Rephrased [⟨.delete, false⟩, ⟨.edit, true⟩] conciseWords := .swap [] [] (by decide)
  exact (hagain.trans hunknown).trans hswap

/-- Said the other way round, the same words allow deleting. -/
theorem menu_of_first_words_lengthy :
    (∀ key, key ≠ .unknown → firstWord lengthyWords key = firstWord conciseWords key) ∧
    Rephrased lengthyWords conciseWords ∧
    Menu.build { Resource.empty with permissions := lengthyWords } ⟨"u1", .standard⟩ Menu.noHook =
      Menu.build { Resource.empty with permissions := conciseWords } ⟨"u1", .standard⟩
        Menu.noHook ∧
    Menu.build { Resource.empty with permissions := lengthyWords.reverse } ⟨"u1", .standard⟩
        Menu.noHook ≠
      Menu.build { Resource.empty with permissions := conciseWords } ⟨"u1", .standard⟩
        Menu.noHook := by
  have hfirst (key : ActionKey) (hkey : key ≠ .unknown) :
      firstWord lengthyWords key = firstWord conciseWords key :=
    rephrased_lengthy.firstWord_eq hkey
  refine ⟨hfirst, rephrased_lengthy, (menu_of_first_words _ _ _ _).1 hfirst, fun hmenu => ?_⟩
  have hdelete := (menu_of_first_words _ _ _ _).2.2 rfl hmenu .delete (by decide)
  exact absurd hdelete (by decide)

end Workbench
