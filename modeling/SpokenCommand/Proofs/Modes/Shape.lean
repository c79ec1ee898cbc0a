import Mathlib.Logic.Relation
import SpokenCommand.Proofs.Modes.Numbering
/-!
The shape of a compiled tree.

A tree is a list of modes that refer to each other by number.  That it is a tree at all is due to how it
was compiled:

1. **Subtrees** (`Compiled.exists_subtree`).  This is the crux.  Every mode heads a stretch of the list
   that is itself compiled, the mode and then the modes below it, and a stretch of the commands, those
   below it and then its own.  It is one induction, with the whole tree in view, and says as well where a
   mode is linked to: its parent has it for a child, under its name.

2. **Everything else** is read off a mode's subtree: what is below it (`Subtree.isBelow_iff`), where its
   grammars are and where those below it (`Subtree.lt_of_isBelow`), and whose parent it is
   (`Subtree.exists_child`).

3. **The shape** (`WellNumbered`) puts these together for all modes of a tree.
-/

namespace SpokenCommand.Modes

open Grammar (Templates)

namespace Tree

/-- A mode is below another, or that mode itself. -/
def IsBelow (tree : Tree) : ModeId → ModeId → Prop :=
  Relation.ReflTransGen fun p c => c ∈ tree.children p

theorem isBelow_iff_eq_or {tree : Tree} {m x : Nat} :
    tree.IsBelow m x ↔ x = m ∨ ∃ c ∈ tree.children m, tree.IsBelow c x :=
  Relation.ReflTransGen.cases_head_iff.trans (or_congr_left eq_comm)

/-- A mode `m` with the modes below it, as they stand in a tree. -/
structure Subtree (tree : Tree) (m : ModeId) where
  name : String
  parent : Option ModeId
  /-- The first grammar of the modes below. -/
  grammar : GrammarId
  below : Forest
  /-- The commands of the mode itself. -/
  own : List Command
  compiled : ∃ t t' modes, Compiled t (some m) (m + 1) grammar [] modes below t'
  modes_at : StandsAt tree.modes m (below.rooted name parent grammar own).modes

/-- A mode is a child of another, under its name. -/
def IsLinked (tree : Tree) (p : ModeId) (name : String) (c : ModeId) : Prop :=
  ∃ mode, tree.mode? p = some mode ∧ (name, c) ∈ mode.children

end Tree

section Forest

variable {t t' : Templates} {parent : Option ModeId} {id grammar m : Nat} {taken : List String}
  {modes : List (String × ModeDefinition)} {forest : Forest} {tree : Tree}

theorem StandsAt.mode?_eq {mode : Mode} {rest : List Mode}
    (h : StandsAt tree.modes id (mode :: rest)) : tree.mode? id = some mode := h.cons.1

/-- **Subtrees**: every mode of a forest has one, and is linked to the forest's parent or to a mode of
    the tree. -/
theorem Compiled.exists_subtree (h : Compiled t parent id grammar taken modes forest t')
    (hmodes : StandsAt tree.modes id forest.modes) (hm : id ≤ m)
    (hlt : m < id + forest.modes.length) :
    ∃ s : tree.Subtree m, (s.parent = parent ∧ (s.name, m) ∈ forest.children) ∨
      ∃ p, s.parent = some p ∧ tree.IsLinked p s.name m := by
  induction h with
  | nil => exact absurd hlt (Nat.not_lt_of_le hm)
  | @cons _ t₁ t₂ _ parent id grammar _ name d rest own below others _ _ _ _ hbelow htree _ ihbelow
      ihothers =>
    subst htree
    obtain ⟨hown, hothers⟩ := hmodes.append
    rw [Forest.length_beside_modes, Forest.length_rooted_modes] at hlt
    -- the mode is the first of the forest, or below it, or beside it
    rcases Nat.lt_trichotomy m id with hbefore | rfl | hafter
    · omega
    · exact ⟨⟨_, parent, grammar, below, own, ⟨t₁, t₂, _, hbelow⟩, hown⟩,
        Or.inl ⟨rfl, List.mem_cons_self⟩⟩
    · rcases Nat.lt_or_ge m (id + 1 + below.modes.length) with hinside | hbeyond
      · obtain ⟨s, ⟨hparent, hchild⟩ | hlinked⟩ := ihbelow hown.cons.2 hafter hinside
        · exact ⟨s, Or.inr ⟨id, hparent, _, hown.mode?_eq, hchild⟩⟩
        · exact ⟨s, Or.inr hlinked⟩
      · rw [Forest.length_rooted_modes] at hothers ihothers
        obtain ⟨s, ⟨hparent, hchild⟩ | hlinked⟩ := ihothers hothers (by omega) (by omega)
        · exact ⟨s, Or.inl ⟨hparent, List.mem_cons_of_mem _ hchild⟩⟩
        · exact ⟨s, Or.inr hlinked⟩

/-- The children of a forest's parent go by their own names, and have it for a parent. -/
theorem Compiled.exists_child (h : Compiled t parent id grammar taken modes forest t')
    (hmodes : StandsAt tree.modes id forest.modes) {key : String} {c : ModeId}
    (hc : (key, c) ∈ forest.children) :
    ∃ mode, tree.mode? c = some mode ∧ mode.name = key ∧ mode.parent = parent := by
  induction h with
  | nil => exact absurd hc List.not_mem_nil
  | cons _ _ _ _ htree _ _ ihothers =>
    subst htree
    obtain ⟨hown, hothers⟩ := hmodes.append
    rcases List.mem_cons.mp hc with heq | hc
    · obtain ⟨rfl, rfl⟩ := Prod.mk.inj heq
      exact ⟨_, hown.mode?_eq, rfl, rfl⟩
    · exact ihothers hothers hc

/-- Below the children of a forest's parent are the modes of the forest. -/
theorem Compiled.isBelow_iff (h : Compiled t parent id grammar taken modes forest t')
    (hmodes : StandsAt tree.modes id forest.modes) (x : Nat) :
    (∃ c ∈ forest.children.map Prod.snd, tree.IsBelow c x) ↔
      id ≤ x ∧ x < id + forest.modes.length := by
  induction h with
  | nil => simp
  | @cons _ _ _ _ _ id _ _ _ _ _ _ below others _ _ _ _ _ htree _ ihbelow ihothers =>
    subst htree
    obtain ⟨hown, hothers⟩ := hmodes.append
    have hchildren : tree.children id = below.children.map Prod.snd := by
      rw [Tree.children, hown.mode?_eq]
    have hrest := ihothers hothers
    rw [Forest.length_rooted_modes] at hrest
    rw [Forest.length_beside_modes, Forest.length_rooted_modes]
    show (∃ c ∈ id :: others.children.map Prod.snd, tree.IsBelow c x) ↔ _
    -- below the first mode are that mode itself and those of its forest
    rw [List.exists_mem_cons_iff, Tree.isBelow_iff_eq_or, hchildren, ihbelow hown.cons.2, hrest]
    omega

end Forest

/-! ## What a subtree tells -/

namespace Tree

variable {tree : Tree} {m x g : Nat}

namespace Subtree

theorem mode?_eq (s : tree.Subtree m) :
    tree.mode? m = some ⟨s.name, s.parent, s.below.children,
      List.range' (s.grammar + s.below.commands.length) s.own.length⟩ :=
  s.modes_at.mode?_eq

theorem children_eq (s : tree.Subtree m) : tree.children m = s.below.children.map Prod.snd := by
  rw [children, s.mode?_eq]

theorem grammars_eq (s : tree.Subtree m) :
    tree.grammars m = List.range' (s.grammar + s.below.commands.length) s.own.length := by
  rw [grammars, s.mode?_eq]

/-- The modes below follow the mode directly. -/
theorem isBelow_iff (s : tree.Subtree m) (x : Nat) :
    tree.IsBelow m x ↔ m ≤ x ∧ x < m + (s.below.modes.length + 1) := by
  obtain ⟨t, t', modes, hcompiled⟩ := s.compiled
  rw [isBelow_iff_eq_or, s.children_eq, hcompiled.isBelow_iff s.modes_at.cons.2]
  omega

/-- The grammars below come before those of the mode. -/
theorem lt_of_isBelow (s : tree.Subtree m) (hx : tree.IsBelow m x) (hne : x ≠ m)
    (hg : g ∈ tree.grammars x) : g < s.grammar + s.below.commands.length := by
  obtain ⟨t, t', modes, hcompiled⟩ := s.compiled
  have hbounds := (s.isBelow_iff x).mp hx
  obtain ⟨k, rfl⟩ : ∃ k, x = m + 1 + k := ⟨x - (m + 1), by omega⟩
  have hk : k < s.below.modes.length := by omega
  -- the mode is one of those compiled below, whose grammars are numbered from `grammar` on
  have hmode : tree.mode? (m + 1 + k) = some s.below.modes[k] :=
    s.modes_at.cons.2.getElem? (List.getElem?_eq_getElem hk)
  rw [grammars, hmode] at hg
  have hall : g ∈ s.below.modes.flatMap Mode.grammars :=
    List.mem_flatMap.mpr ⟨s.below.modes[k], List.getElem_mem hk, hg⟩
  exact (List.mem_range'_1.mp (hcompiled.grammars_perm.mem_iff.mp hall)).2

/-- The children go by their own names, and have the mode for a parent. -/
theorem exists_child (s : tree.Subtree m) {key : String} {c : ModeId}
    (hc : (key, c) ∈ s.below.children) :
    ∃ mode, tree.mode? c = some mode ∧ mode.name = key ∧ mode.parent = some m := by
  obtain ⟨t, t', modes, hcompiled⟩ := s.compiled
  exact hcompiled.exists_child s.modes_at.cons.2 hc

end Subtree

/-! ## The shape -/

/-- Modes and grammars are numbered as a tree. -/
structure WellNumbered (tree : Tree) : Prop where
  /-- Preorder visits the modes in the order of their numbers, each once. -/
  preorder_eq : tree.preorder = List.range tree.modes.length
  /-- It ends by itself, however much longer it may go on. -/
  visit_eq : ∀ extra, tree.visit (tree.modes.length + extra) [root] = tree.preorder
  root_lt : root < tree.modes.length
  /-- The root is the one mode without a parent. -/
  parent_eq_none_iff : ∀ m mode, tree.mode? m = some mode → (mode.parent = none ↔ m = root)
  /-- Parents and children agree. -/
  mem_children_iff : ∀ p c, c ∈ tree.children p ↔
    ∃ mode, tree.mode? c = some mode ∧ mode.parent = some p
  /-- A child comes after its parent, which has it under its name. -/
  child : ∀ p key c, tree.IsLinked p key c →
    p < c ∧ ∃ mode, tree.mode? c = some mode ∧ mode.name = key
  /-- A mode and those below it have the numbers of an interval. -/
  exists_isBelow_iff : ∀ m, m < tree.modes.length →
    ∃ size, ∀ x, tree.IsBelow m x ↔ m ≤ x ∧ x < m + size
  /-- The grammars of a mode follow each other, after all those below. -/
  exists_grammars_eq : ∀ m, m < tree.modes.length →
    ∃ first count, tree.grammars m = List.range' first count ∧
      ∀ x, tree.IsBelow m x → x ≠ m → ∀ g ∈ tree.grammars x, g < first
  /-- The grammars of all modes are the numbers of the commands, each once. -/
  grammars_perm : (tree.preorder.flatMap tree.grammars).Perm (List.range tree.commands.length)
  /-- A grammar belongs to the mode of its command. -/
  mem_grammars_iff : ∀ m g, g ∈ tree.grammars m ↔ ∃ c, tree.command? g = some c ∧ c.mode = m

variable {t : Templates} {d : ModeDefinition} {w : Workspace}

/-- Every mode of a compiled tree has a subtree; the root has no parent, and any other mode is linked to
    its own. -/
theorem exists_subtree (h : compile t d = (.ok tree, w)) (hm : m < tree.modes.length) :
    ∃ s : tree.Subtree m, (s.parent = none ∧ m = root) ∨
      ∃ p, s.parent = some p ∧ tree.IsLinked p s.name m := by
  obtain ⟨s, ⟨hparent, hchild⟩ | hlinked⟩ :=
    (compiled_of_compile h).exists_subtree .self (Nat.zero_le m) (by rwa [Nat.zero_add])
  · exact ⟨s, Or.inl ⟨hparent, (Prod.mk.inj (List.mem_singleton.mp hchild)).2⟩⟩
  · exact ⟨s, Or.inr hlinked⟩

theorem mem_children_of_isLinked {p c : ModeId} {key : String} (h : tree.IsLinked p key c) :
    c ∈ tree.children p := by
  obtain ⟨mode, hmode, hc⟩ := h
  rw [children, hmode]
  exact List.mem_map.mpr ⟨(key, c), hc, rfl⟩

theorem exists_isLinked_of_mem_children {p c : ModeId} (h : c ∈ tree.children p) :
    ∃ key, tree.IsLinked p key c := by
  rw [children] at h
  split at h
  · rename_i mode hmode
    obtain ⟨⟨key, c⟩, hentry, rfl⟩ := List.mem_map.mp h
    exact ⟨key, mode, hmode, hentry⟩
  · exact absurd h List.not_mem_nil

theorem lt_of_mode?_eq {mode : Mode} (h : tree.mode? m = some mode) : m < tree.modes.length :=
  (List.getElem?_eq_some_iff.mp h).1

/-- The root is the one mode without a parent. -/
theorem parent_eq_none_iff (h : compile t d = (.ok tree, w)) {mode : Mode}
    (hmode : tree.mode? m = some mode) : mode.parent = none ↔ m = root := by
  obtain ⟨s, hs⟩ := exists_subtree h (lt_of_mode?_eq hmode)
  obtain rfl := Option.some.inj (hmode.symm.trans s.mode?_eq)
  rcases hs with ⟨hparent, hroot⟩ | ⟨p, hparent, hlinked⟩
  · exact iff_of_true hparent hroot
  · refine iff_of_false (by simp [hparent]) ?_
    rintro rfl
    exact Nat.not_lt_zero p (lt_of_mem_children h (mem_children_of_isLinked hlinked)).1

/-- A child has its own name, and its parent for a parent. -/
theorem exists_mode_of_isLinked (h : compile t d = (.ok tree, w)) {p c : ModeId} {key : String}
    (hlinked : tree.IsLinked p key c) :
    ∃ mode, tree.mode? c = some mode ∧ mode.name = key ∧ mode.parent = some p := by
  obtain ⟨mode, hmode, hc⟩ := hlinked
  obtain ⟨s, -⟩ := exists_subtree h (lt_of_mode?_eq hmode)
  obtain rfl := Option.some.inj (hmode.symm.trans s.mode?_eq)
  exact s.exists_child hc

/-- Modes are linked as they say themselves: a mode has another for a child if that has it for a parent, and
    under the name that it has. -/
theorem isLinked_iff (h : compile t d = (.ok tree, w)) {p c : ModeId} {key : String} :
    tree.IsLinked p key c ↔
      ∃ mode, tree.mode? c = some mode ∧ mode.parent = some p ∧ mode.name = key := by
  constructor
  · intro hlinked
    obtain ⟨mode, hmode, hname, hparent⟩ := exists_mode_of_isLinked h hlinked
    exact ⟨mode, hmode, hparent, hname⟩
  · rintro ⟨mode, hmode, hparent, rfl⟩
    obtain ⟨s, hs⟩ := exists_subtree h (lt_of_mode?_eq hmode)
    obtain rfl := Option.some.inj (hmode.symm.trans s.mode?_eq)
    rcases hs with ⟨hnone, -⟩ | ⟨p', hparent', hlinked⟩
    · exact absurd (hparent.symm.trans hnone) (Option.some_ne_none p)
    · obtain rfl := Option.some.inj (hparent.symm.trans hparent')
      exact hlinked

/-- The children of a mode are those that have it for a parent. -/
theorem mem_children_iff (h : compile t d = (.ok tree, w)) {p c : ModeId} :
    c ∈ tree.children p ↔ ∃ mode, tree.mode? c = some mode ∧ mode.parent = some p := by
  constructor
  · intro hc
    obtain ⟨key, hlinked⟩ := exists_isLinked_of_mem_children hc
    obtain ⟨mode, hmode, -, hparent⟩ := exists_mode_of_isLinked h hlinked
    exact ⟨mode, hmode, hparent⟩
  · rintro ⟨mode, hmode, hparent⟩
    exact mem_children_of_isLinked ((isLinked_iff h).mpr ⟨mode, hmode, hparent, rfl⟩)

/-- No child is found by a name if and only if no mode is linked under it. -/
theorem child?_eq_none_iff {p : ModeId} {name : String} :
    tree.child? p name = none ↔ ∀ c, ¬ tree.IsLinked p (Text.lowercase name) c := by
  rw [child?]
  constructor
  · rintro hnone c ⟨mode, hmode, hc⟩
    rw [hmode] at hnone
    have hne := List.lookup_eq_none_iff.mp hnone _ hc
    exact absurd hne (by simp)
  · intro hnone
    split
    · rename_i mode hmode
      refine List.lookup_eq_none_iff.mpr ?_
      rintro ⟨key, c⟩ hc
      rw [bne_iff_ne]
      rintro rfl
      exact hnone c ⟨mode, hmode, hc⟩
    · rfl

/-- All modes are visited once as many are allowed as there are. -/
theorem visit_eq_preorder (h : compile t d = (.ok tree, w)) (extra : Nat) :
    tree.visit (tree.modes.length + extra) [root] = tree.preorder := by
  have hvisit := (compiled_of_compile h).visit_eq .self extra []
  have hdone : tree.visit extra [] = [] := by cases extra <;> rfl
  rw [hdone, List.append_nil, List.append_nil] at hvisit
  rw [preorder_eq_range h, List.range_eq_range']
  exact hvisit

/-- **The shape**: compiled trees are well numbered. -/
theorem wellNumbered_of_compile (h : compile t d = (.ok tree, w)) : tree.WellNumbered where
  preorder_eq := preorder_eq_range h
  visit_eq := visit_eq_preorder h
  root_lt := length_modes_pos h
  parent_eq_none_iff := fun _ _ hmode => Tree.parent_eq_none_iff h hmode
  mem_children_iff := fun _ _ => Tree.mem_children_iff h
  child := by
    intro p key c hlinked
    obtain ⟨mode, hmode, hname, -⟩ := exists_mode_of_isLinked h hlinked
    exact ⟨(lt_of_mem_children h (mem_children_of_isLinked hlinked)).1, mode, hmode, hname⟩
  exists_isBelow_iff := by
    intro m hm
    obtain ⟨s, -⟩ := exists_subtree h hm
    exact ⟨_, s.isBelow_iff⟩
  exists_grammars_eq := by
    intro m hm
    obtain ⟨s, -⟩ := exists_subtree h hm
    exact ⟨_, _, s.grammars_eq, fun x hx hne g hg => s.lt_of_isBelow hx hne hg⟩
  grammars_perm := by
    rw [flatMap_preorder_grammars h]
    exact Tree.grammars_perm h
  mem_grammars_iff := fun m g => Tree.mem_grammars_iff h

/-- Definitions of four modes: the root has two children, and the first of these has one. -/
def nested : ModeDefinition :=
  let command (grammar : String) : CommandDefinition := ⟨none, grammar, some "", none⟩
  ⟨[], [command "wake", command "sleep"],
    [("Program", ⟨[], [command "dot"], [("RUST", ⟨[], [command "borrow", command "move"], []⟩)]⟩),
      ("spell", ⟨[], [], []⟩)]⟩

/-- Their modes are numbered down, and their grammars up. -/
theorem wellNumbered_nested :
    ∃ tree w, compile .builtin nested = (.ok tree, w) ∧ tree.WellNumbered ∧
      (tree.modes.map fun mode => (mode.name, mode.parent, mode.grammars)) =
        [("", none, [3, 4]), ("program", some 0, [2]), ("rust", some 1, [0, 1]),
          ("spell", some 0, [])] := by
  have hmodes : (compile .builtin nested).1.toOption.map (fun tree =>
      tree.modes.map fun mode => (mode.name, mode.parent, mode.grammars)) =
        some [("", none, [3, 4]), ("program", some 0, [2]), ("rust", some 1, [0, 1]),
          ("spell", some 0, [])] := by
    decide +kernel
  rcases hcompile : compile .builtin nested with ⟨err | tree, w⟩
  · rw [hcompile] at hmodes
    cases hmodes
  · rw [hcompile] at hmodes
    exact ⟨tree, w, rfl, wellNumbered_of_compile hcompile, Option.some.inj hmodes⟩

end Tree

end SpokenCommand.Modes
