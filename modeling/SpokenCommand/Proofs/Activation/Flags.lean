import Mathlib.Data.List.Nodup
import SpokenCommand.Recognizer
/-!
The flags of the recognizer.

Switching grammars on and off never changes what is loaded, nor its order.  As long as no number is
loaded twice, switching a list of numbers sets the flags of exactly these (`mem_enabled_setAllEnabled`),
and the enabled grammars are the loaded ones less those that are off, in the order of loading
(`enabled_eq_filter`).  What is loaded and which numbers are enabled is all that there is to a recognizer
(`eq_of_mem_enabled_iff`).
-/

namespace SpokenCommand.Recognizer

variable {r : Recognizer} {gs : List LoadedGrammar} {id x : Nat} {b : Bool}

/-- What is loaded, in order: the numbers and their grammars. -/
def loaded (r : Recognizer) : List (Nat × Grammar.Sequence) :=
  r.grammars.map fun g => (g.id, g.grammar)

/-- The numbers that are loaded, in order. -/
def ids (r : Recognizer) : List Nat := r.grammars.map (·.id)

theorem ids_eq_map_loaded : r.ids = r.loaded.map Prod.fst := by
  simp [ids, loaded]

theorem mem_enabled : x ∈ r.enabled ↔ ∃ g ∈ r.grammars, g.isEnabled = true ∧ g.id = x := by
  simp only [enabled, List.mem_map, List.mem_filter, and_assoc]

/-! ## Switching -/

theorem loaded_setFirst :
    (setFirst id b gs).map (fun g => (g.id, g.grammar)) = gs.map fun g => (g.id, g.grammar) := by
  induction gs with
  | nil => rfl
  | cons g rest ih =>
    rw [setFirst]
    split
    · rfl
    · rw [List.map_cons, List.map_cons, ih]

@[simp] theorem loaded_setEnabled : (r.setEnabled id b).loaded = r.loaded := loaded_setFirst

@[simp] theorem ids_setEnabled : (r.setEnabled id b).ids = r.ids := by
  rw [ids_eq_map_loaded, loaded_setEnabled, ids_eq_map_loaded]

@[simp] theorem loaded_setAllEnabled {switched : List Nat} :
    (r.setAllEnabled switched b).loaded = r.loaded := by
  induction switched generalizing r with
  | nil => rfl
  | cons id rest ih => exact ih.trans loaded_setEnabled

/-- When no number is loaded twice, switching the first grammar of a number switches them all. -/
theorem setFirst_eq_map (hnodup : (gs.map (·.id)).Nodup) :
    setFirst id b gs = gs.map fun g => if g.id = id then { g with isEnabled := b } else g := by
  induction gs with
  | nil => rfl
  | cons g rest ih =>
    rw [List.map_cons, List.nodup_cons] at hnodup
    obtain ⟨hnot, hrest⟩ := hnodup
    rw [setFirst, List.map_cons, ← ih hrest]
    by_cases hg : g.id = id
    · rw [if_pos hg, if_pos hg, ih hrest]
      -- no other grammar has the number, so that the rest stays as it is
      have hothers : rest.map (fun g => if g.id = id then { g with isEnabled := b } else g) = rest := by
        conv_rhs => rw [← List.map_id rest]
        apply List.map_congr_left
        intro g' hg'
        apply if_neg
        intro heq
        exact hnot (hg.trans heq.symm ▸ List.mem_map_of_mem hg')
      rw [hothers]
    · rw [if_neg hg, if_neg hg]

/-- Switching one number sets its flag and no other. -/
theorem mem_enabled_setEnabled (hnodup : r.ids.Nodup) :
    x ∈ (r.setEnabled id b).enabled ↔ if x = id then b = true ∧ x ∈ r.ids else x ∈ r.enabled := by
  rw [mem_enabled, setEnabled, setFirst_eq_map hnodup]
  constructor
  · rintro ⟨g', hg', hflag, rfl⟩
    obtain ⟨g, hg, rfl⟩ := List.mem_map.mp hg'
    by_cases hid : g.id = id
    · rw [if_pos hid] at hflag ⊢
      rw [if_pos hid]
      have hmem : g.id ∈ r.ids := List.mem_map_of_mem hg
      exact ⟨hflag, hmem⟩
    · rw [if_neg hid] at hflag ⊢
      rw [if_neg hid]
      exact mem_enabled.mpr ⟨g, hg, hflag, rfl⟩
  · intro h
    by_cases hx : x = id
    · rw [if_pos hx] at h
      obtain ⟨hb, hmem⟩ := h
      obtain ⟨g, hg, hid⟩ := List.mem_map.mp hmem
      refine ⟨_, List.mem_map_of_mem hg, ?_⟩
      rw [if_pos (hid.trans hx)]
      exact ⟨hb, hid⟩
    · rw [if_neg hx] at h
      obtain ⟨g, hg, hflag, hid⟩ := mem_enabled.mp h
      refine ⟨_, List.mem_map_of_mem hg, ?_⟩
      rw [if_neg (hid ▸ hx)]
      exact ⟨hflag, hid⟩

/-- **Switching** several numbers sets their flags and no others. -/
theorem mem_enabled_setAllEnabled (hnodup : r.ids.Nodup) {switched : List Nat} :
    x ∈ (r.setAllEnabled switched b).enabled ↔
      if x ∈ switched then b = true ∧ x ∈ r.ids else x ∈ r.enabled := by
  induction switched generalizing r with
  | nil => simp [setAllEnabled]
  | cons id rest ih =>
    show x ∈ ((r.setEnabled id b).setAllEnabled rest b).enabled ↔ _
    rw [ih (by rwa [ids_setEnabled]), ids_setEnabled, mem_enabled_setEnabled hnodup]
    by_cases hrest : x ∈ rest
    · rw [if_pos hrest, if_pos (List.mem_cons_of_mem id hrest)]
    · rw [if_neg hrest]
      by_cases hx : x = id
      · rw [if_pos hx, if_pos (hx ▸ List.mem_cons_self)]
      · rw [if_neg hx, if_neg (by simp [hx, hrest])]

/-! ## What is enabled -/

/-- The flag of a grammar tells whether its number is enabled. -/
theorem isEnabled_eq (hnodup : r.ids.Nodup) {g : LoadedGrammar} (hg : g ∈ r.grammars) :
    g.isEnabled = decide (g.id ∈ r.enabled) := by
  rw [Bool.eq_iff_iff, decide_eq_true_iff]
  constructor
  · intro hflag
    exact mem_enabled.mpr ⟨g, hg, hflag, rfl⟩
  · intro hmem
    obtain ⟨g', hg', hflag, hid⟩ := mem_enabled.mp hmem
    rwa [← List.inj_on_of_nodup_map hnodup hg' hg hid]

/-- The enabled grammars stand in the order of loading. -/
theorem enabled_eq_filter (hnodup : r.ids.Nodup) :
    r.enabled = r.ids.filter fun x => decide (x ∈ r.enabled) := by
  rw [ids, List.filter_map]
  exact congrArg (List.map _) (List.filter_congr fun g hg => isEnabled_eq hnodup hg)

/-- A recognizer is what is loaded, with the flags of what is enabled. -/
theorem grammars_eq_map (hnodup : r.ids.Nodup) :
    r.grammars = r.loaded.map fun (id, grammar) => ⟨id, grammar, decide (id ∈ r.enabled)⟩ := by
  rw [loaded, List.map_map]
  conv_lhs => rw [← List.map_id r.grammars]
  refine List.map_congr_left ?_
  intro g hg
  simp only [id_eq, Function.comp_apply, ← isEnabled_eq hnodup hg]

/-- Recognizers in which the same is loaded and the same is enabled are the same. -/
theorem eq_of_mem_enabled_iff {r' : Recognizer} (hnodup : r.ids.Nodup) (hloaded : r'.loaded = r.loaded)
    (h : ∀ x, x ∈ r'.enabled ↔ x ∈ r.enabled) : r' = r := by
  have hnodup' : r'.ids.Nodup := by
    rwa [ids_eq_map_loaded, hloaded, ← ids_eq_map_loaded]
  have hsame : r'.grammars = r.grammars := by
    rw [grammars_eq_map hnodup', grammars_eq_map hnodup, hloaded]
    simp only [h]
  cases r
  cases r'
  exact congrArg Recognizer.mk hsame

end SpokenCommand.Recognizer
