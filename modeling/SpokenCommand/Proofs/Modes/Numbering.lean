import Mathlib.Data.List.Nodup
import Mathlib.Data.List.Perm.Basic
import Mathlib.Data.List.Range
import SpokenCommand.Proofs.Modes.Compiled
/-!
How the modes and the commands of a compiled tree are numbered.

A forest that is compiled with the next free numbers `id` and `grammar` occupies the modes from `id`
on and the commands from `grammar` on, without a gap.  So:

1. **Preorder** visits the modes of a tree in the order of their numbers (`preorder_eq_range`), and a
   child has a greater number than its parent (`lt_of_mem_children`).

2. **The grammars** of all modes are the numbers of all commands, each once (`grammars_perm`): the
   commands of a mode come after those below it, which permutes them but loses none.  Hence no
   grammar belongs to two modes (`eq_of_mem_grammars`).

3. **The commands** of a mode are those of its definition, in the order of their definition, and see the
   templates of the modes up to it (`filed_commandsOf_grammars`); modes and definitions correspond in
   preorder.
-/

namespace SpokenCommand.Modes

open Grammar (Templates)

/-! ## Parts of a list -/

/-- `part` stands in `xs` from index `i` on. -/
def StandsAt {α : Type} (xs : List α) (i : Nat) (part : List α) : Prop := part <+: xs.drop i

section StandsAt

variable {α : Type} {xs part ys zs : List α} {x : α} {i : Nat}

theorem StandsAt.self : StandsAt xs 0 xs := List.prefix_rfl

theorem StandsAt.append (h : StandsAt xs i (ys ++ zs)) :
    StandsAt xs i ys ∧ StandsAt xs (i + ys.length) zs := by
  obtain ⟨rest, hrest⟩ := h
  refine ⟨⟨zs ++ rest, by rw [← List.append_assoc, hrest]⟩, rest, ?_⟩
  rw [← List.drop_drop, ← hrest, List.append_assoc, List.drop_left]

theorem StandsAt.cons (h : StandsAt xs i (x :: ys)) :
    xs[i]? = some x ∧ StandsAt xs (i + 1) ys := by
  have happend : StandsAt xs i ([x] ++ ys) := h
  obtain ⟨hhead, htail⟩ := happend.append
  refine ⟨?_, htail⟩
  obtain ⟨rest, hrest⟩ := hhead
  rw [← List.head?_drop, ← hrest]
  rfl

theorem StandsAt.getElem? (h : StandsAt xs i part) {k : Nat} {x : α} (hk : part[k]? = some x) :
    xs[i + k]? = some x := by
  obtain ⟨rest, hrest⟩ := h
  rw [← List.getElem?_drop, ← hrest, List.getElem?_append_left (List.getElem?_eq_some_iff.mp hk).1]
  exact hk

end StandsAt

/-! ## Definitions in preorder -/

mutual

/-- The definition of a mode and those below it, each before its children and these in order. -/
def ModeDefinition.preorder : ModeDefinition → List ModeDefinition
  | ⟨defines, commands, modes⟩ => ⟨defines, commands, modes⟩ :: preorderAll modes

/-- The definitions of several modes and those below them. -/
def preorderAll : List (String × ModeDefinition) → List ModeDefinition
  | [] => []
  | (_, d) :: rest => d.preorder ++ preorderAll rest

end

theorem ModeDefinition.preorder_eq (d : ModeDefinition) : d.preorder = d :: preorderAll d.modes := by
  cases d
  rfl

/-! ## Forests -/

section Forest

variable {t t' : Templates} {parent : Option ModeId} {id grammar : Nat}
  {taken : List String} {modes : List (String × ModeDefinition)} {forest : Forest} {tree : Tree}

/-- Visiting the roots of a forest visits its modes in the order of their numbers. -/
theorem Compiled.visit_eq (h : Compiled t parent id grammar taken modes forest t')
    (hstands : StandsAt tree.modes id forest.modes) (fuel : Nat) (pending : List ModeId) :
    tree.visit (forest.modes.length + fuel) (forest.children.map Prod.snd ++ pending) =
      List.range' id forest.modes.length ++ tree.visit fuel pending := by
  induction h generalizing fuel pending with
  | nil => simp
  | @cons t t₁ t₂ t' parent id grammar taken name d rest own below others child _ _ _ _ hchild _
      ihbelow ihothers =>
    subst hchild
    obtain ⟨hown, hothers⟩ := hstands.append
    obtain ⟨hmode, hbelow⟩ := hown.cons
    have hchildren : tree.children id = below.children.map Prod.snd := by
      rw [Tree.children, Tree.mode?, hmode]
    -- one visit for the mode itself, then those for the modes below it, then those beside it
    have hfuel : (others.beside (Text.lowercase name) id
        (below.rooted (Text.lowercase name) parent grammar own)).modes.length + fuel =
          (below.modes.length + (others.modes.length + fuel)) + 1 := by
      simp
      omega
    rw [hfuel]
    show id :: tree.visit _ (tree.children id ++ (others.children.map Prod.snd ++ pending)) = _
    rw [hchildren, ihbelow hbelow, ihothers hothers, Forest.length_beside_modes,
      Forest.length_rooted_modes, Nat.add_right_comm, List.range'_succ, ← List.range'_append_1]
    simp [Nat.add_comm, Nat.add_left_comm]

/-- The children of a forest's parent are among its modes. -/
theorem Compiled.children_bounds (h : Compiled t parent id grammar taken modes forest t')
    {c : Nat} (hc : c ∈ forest.children.map Prod.snd) :
    id ≤ c ∧ c < id + forest.modes.length := by
  induction h with
  | nil => exact absurd hc List.not_mem_nil
  | cons _ _ _ _ htree _ _ ihothers =>
    subst htree
    rw [Forest.length_beside_modes, Forest.length_rooted_modes]
    rcases List.mem_cons.mp hc with rfl | hc
    · omega
    · have hbounds := ihothers hc
      rw [Forest.length_rooted_modes] at hbounds
      omega

/-- The children of a mode come after it, and among the modes of its forest. -/
theorem Compiled.lt_of_mem_children (h : Compiled t parent id grammar taken modes forest t')
    {i : Nat} {mode : Mode} (hi : forest.modes[i]? = some mode) {c : Nat}
    (hc : c ∈ mode.children.map Prod.snd) : id + i < c ∧ c < id + forest.modes.length := by
  induction h generalizing i with
  | nil => simp at hi
  | @cons _ _ _ _ _ id _ _ _ _ _ _ below others _ _ _ _ hbelow htree _ ihbelow ihothers =>
    subst htree
    rw [Forest.length_beside_modes, Forest.length_rooted_modes]
    -- the first mode is the root of the forest's first tree, those below it come next
    match i with
    | 0 =>
      obtain rfl : _ = mode := Option.some.inj hi
      have hbounds := hbelow.children_bounds hc
      omega
    | k + 1 =>
      have hk : (below.modes ++ others.modes)[k]? = some mode := hi
      rcases Nat.lt_or_ge k below.modes.length with hlt | hge
      · rw [List.getElem?_append_left hlt] at hk
        have hbounds := ihbelow hk
        omega
      · rw [List.getElem?_append_right hge] at hk
        have hbounds := ihothers hk
        rw [Forest.length_rooted_modes] at hbounds
        omega

/-- The grammars of a forest are the numbers of its commands: those of a mode come after those of the
    modes below it. -/
theorem Compiled.grammars_perm (h : Compiled t parent id grammar taken modes forest t') :
    (forest.modes.flatMap Mode.grammars).Perm (List.range' grammar forest.commands.length) := by
  induction h with
  | nil => simp
  | @cons _ _ _ _ _ _ grammar _ name _ _ own below others _ _ _ _ _ htree _ ihbelow ihothers =>
    subst htree
    rw [Forest.length_rooted_commands] at ihothers
    -- in order of their numbers: the commands below, the mode's own, and those beside
    have hsplit : List.range' grammar
        (below.commands.length + own.length + others.commands.length) =
          List.range' grammar below.commands.length ++
            List.range' (grammar + below.commands.length) own.length ++
              List.range' (grammar + (below.commands.length + own.length))
                others.commands.length := by
      rw [← List.range'_append_1, ← List.range'_append_1]
    rw [Forest.length_beside_commands, Forest.length_rooted_commands, hsplit]
    show (List.range' (grammar + below.commands.length) own.length ++
      (below.modes ++ others.modes).flatMap Mode.grammars).Perm _
    rw [List.flatMap_append, ← List.append_assoc]
    -- the mode's own grammars change places with those below it
    exact (List.perm_append_comm.trans (ihbelow.append_right _)).append ihothers

/-- A forest has one mode for every definition. -/
theorem Compiled.length_preorderAll (h : Compiled t parent id grammar taken modes forest t') :
    (preorderAll modes).length = forest.modes.length := by
  induction h with
  | nil => rfl
  | @cons _ _ _ _ _ _ _ _ _ d _ _ _ _ _ _ _ _ _ htree _ ihbelow ihothers =>
    subst htree
    rw [preorderAll, d.preorder_eq, List.length_append, List.length_cons, ihbelow, ihothers,
      Forest.length_beside_modes, Forest.length_rooted_modes]

/-- A forest files the templates of its modes in preorder. -/
theorem Compiled.filed (h : Compiled t parent id grammar taken modes forest t') :
    Filed t ((preorderAll modes).flatMap ModeDefinition.defines) t' := by
  induction h with
  | nil => rfl
  | @cons _ t₁ t₂ _ _ _ _ _ _ d _ _ _ _ _ _ hfiled _ _ _ _ ihbelow ihothers =>
    rw [preorderAll, d.preorder_eq, List.flatMap_append, List.flatMap_cons]
    exact filed_append.mpr ⟨t₂, filed_append.mpr ⟨t₁, hfiled, ihbelow⟩, ihothers⟩

/-- Commands that stand among others are found by the numbers from where they stand on. -/
theorem StandsAt.commandsOf {commands own : List Command} {definitions : List CommandDefinition}
    (h : StandsAt commands grammar own) (hown : List.Forall₂ (CommandOf t id) definitions own) :
    List.Forall₂ (fun d g => ∃ c, commands[g]? = some c ∧ CommandOf t id d c) definitions
      (List.range' grammar own.length) := by
  refine List.forall₂_iff_get.mpr ⟨?_, fun k hk hk' => ?_⟩
  · simp [hown.length_eq]
  · have hlt : k < own.length := hown.length_eq ▸ hk
    refine ⟨own[k], ?_, List.Forall₂.get hown hk hlt⟩
    have hget := h.getElem? (List.getElem?_eq_getElem hlt)
    simpa using hget

/-- The commands that a mode's grammars number are those of its definition, in order, compiled when the
    templates of the modes up to it in preorder are filed. -/
theorem Compiled.commandsOf_grammars (h : Compiled t parent id grammar taken modes forest t')
    {commands : List Command} (hstands : StandsAt commands grammar forest.commands) {i : Nat}
    {d : ModeDefinition} {mode : Mode} (hd : (preorderAll modes)[i]? = some d)
    (hi : forest.modes[i]? = some mode) :
    ∃ tᵢ, Filed t (((preorderAll modes).take (i + 1)).flatMap ModeDefinition.defines) tᵢ ∧
      List.Forall₂ (fun cd g => ∃ c, commands[g]? = some c ∧ CommandOf tᵢ (id + i) cd c)
        d.commands mode.grammars := by
  induction h generalizing i with
  | nil => simp at hi
  | @cons _ t₁ t₂ _ parent id grammar _ name d' rest own below others _ _ hfiled hown hbelow htree _
      ihbelow ihothers =>
    subst htree
    obtain ⟨hbelowOwn, hothers⟩ := hstands.append
    obtain ⟨hbelowAt, hownAt⟩ := hbelowOwn.append
    rw [preorderAll, d'.preorder_eq, List.cons_append] at hd ⊢
    rw [List.take_succ_cons, List.flatMap_cons]
    -- modes and definitions split in the same places
    match i with
    | 0 =>
      obtain rfl : d' = d := Option.some.inj hd
      obtain rfl : _ = mode := Option.some.inj hi
      exact ⟨t₁, filed_append.mpr ⟨t₁, hfiled, rfl⟩, hownAt.commandsOf hown⟩
    | k + 1 =>
      have hk : (below.modes ++ others.modes)[k]? = some mode := hi
      have hdk : (preorderAll d'.modes ++ preorderAll rest)[k]? = some d := hd
      have hlen := hbelow.length_preorderAll
      rcases Nat.lt_or_ge k below.modes.length with hlt | hge
      · rw [List.getElem?_append_left hlt] at hk
        rw [List.getElem?_append_left (hlen ▸ hlt)] at hdk
        obtain ⟨tᵢ, hfiledᵢ, hfound⟩ := ihbelow hbelowAt hdk hk
        rw [Nat.add_assoc, Nat.add_comm 1 k] at hfound
        rw [List.take_append_of_le_length (hlen ▸ hlt)]
        exact ⟨tᵢ, filed_append.mpr ⟨t₁, hfiled, hfiledᵢ⟩, hfound⟩
      · rw [List.getElem?_append_right hge] at hk
        rw [List.getElem?_append_right (hlen ▸ hge), hlen] at hdk
        have hnumber : ∀ n : Nat,
            n + (below.modes.length + 1) + (k - below.modes.length) = n + (k + 1) := by
          intro n
          omega
        obtain ⟨tᵢ, hfiledᵢ, hfound⟩ := ihothers hothers hdk hk
        rw [Forest.length_rooted_modes, hnumber] at hfound
        -- all modes below come before, with their templates
        have htake : (preorderAll d'.modes ++ preorderAll rest).take (k + 1) =
            preorderAll d'.modes ++ (preorderAll rest).take (k - below.modes.length + 1) := by
          rw [List.take_append, List.take_of_length_le (by omega), hlen, Nat.succ_sub hge]
        rw [htake, List.flatMap_append]
        exact ⟨tᵢ, filed_append.mpr ⟨t₁, hfiled, filed_append.mpr ⟨t₂, hbelow.filed, hfiledᵢ⟩⟩,
          hfound⟩

end Forest

/-! ## Trees -/

namespace Tree

variable {t : Templates} {d : ModeDefinition} {tree : Tree} {w : Workspace}

/-- A tree has one mode for every definition. -/
theorem length_preorder (h : Tree.compile t d = (.ok tree, w)) :
    d.preorder.length = tree.modes.length := by
  have hlen := (compiled_of_compile h).length_preorderAll
  rwa [preorderAll, preorderAll, List.append_nil] at hlen

/-- The templates of all modes are filed in preorder. -/
theorem filed_preorder (h : Tree.compile t d = (.ok tree, w)) :
    Filed t (d.preorder.flatMap ModeDefinition.defines) w.templates := by
  have hfiled := (compiled_of_compile h).filed
  rwa [preorderAll, preorderAll, List.append_nil] at hfiled

/-- The root is the first mode. -/
theorem length_modes_pos (h : Tree.compile t d = (.ok tree, w)) : 0 < tree.modes.length := by
  rw [← length_preorder h, d.preorder_eq]
  exact Nat.succ_pos _

/-- **Preorder** visits the modes in the order of their numbers. -/
theorem preorder_eq_range (h : Tree.compile t d = (.ok tree, w)) :
    tree.preorder = List.range tree.modes.length := by
  have hstands : StandsAt tree.modes 0 tree.modes := .self
  have hvisit := (compiled_of_compile h).visit_eq hstands 0 []
  rw [List.range_eq_range']
  simpa [preorder, visit] using hvisit

/-- A child that is found by its name is a child. -/
theorem mem_children_of_child? {m c : Nat} {name : String} (hc : tree.child? m name = some c) :
    c ∈ tree.children m := by
  rw [child?] at hc
  rw [children]
  split at hc
  · obtain ⟨before, after, happend, -⟩ := List.lookup_eq_some_iff.mp hc
    rw [happend]
    simp
  · exact absurd hc (by simp)

/-- A child comes after its parent. -/
theorem lt_of_mem_children (h : Tree.compile t d = (.ok tree, w)) {m c : Nat}
    (hc : c ∈ tree.children m) : m < c ∧ c < tree.modes.length := by
  rw [children, mode?] at hc
  split at hc
  · rename_i mode hmode
    have hbounds := (compiled_of_compile h).lt_of_mem_children hmode hc
    rwa [Nat.zero_add, Nat.zero_add] at hbounds
  · exact absurd hc List.not_mem_nil

/-- The grammars of all modes are the numbers of all commands. -/
theorem grammars_perm (h : Tree.compile t d = (.ok tree, w)) :
    (tree.modes.flatMap Mode.grammars).Perm (List.range tree.commands.length) := by
  rw [List.range_eq_range']
  exact (compiled_of_compile h).grammars_perm

/-- In preorder, the grammars of the modes are those of the list of modes. -/
theorem flatMap_preorder_grammars (h : Tree.compile t d = (.ok tree, w)) :
    tree.preorder.flatMap tree.grammars = tree.modes.flatMap Mode.grammars := by
  have hmap : (List.range tree.modes.length).map tree.grammars = tree.modes.map Mode.grammars := by
    apply List.ext_getElem
    · simp
    · intro i hi hi'
      have hlt : i < tree.modes.length := by simpa using hi
      simp [grammars, mode?, List.getElem?_eq_getElem hlt]
  rw [preorder_eq_range h, List.flatMap_def, hmap, ← List.flatMap_def]

theorem nodup_flatMap_grammars (h : Tree.compile t d = (.ok tree, w)) :
    (tree.preorder.flatMap tree.grammars).Nodup := by
  rw [flatMap_preorder_grammars h]
  exact (grammars_perm h).nodup_iff.mpr List.nodup_range

/-- A number that is no mode's has no grammars. -/
theorem lt_of_mem_grammars {m g : Nat} (hg : g ∈ tree.grammars m) : m < tree.modes.length := by
  rw [grammars, mode?] at hg
  split at hg
  · rename_i mode hmode
    exact (List.getElem?_eq_some_iff.mp hmode).1
  · exact absurd hg List.not_mem_nil

/-- Every grammar of a mode is loaded. -/
theorem mem_flatMap_of_mem_grammars (h : Tree.compile t d = (.ok tree, w)) {m g : Nat}
    (hg : g ∈ tree.grammars m) : g ∈ tree.preorder.flatMap tree.grammars := by
  rw [List.mem_flatMap, preorder_eq_range h]
  exact ⟨m, List.mem_range.mpr (lt_of_mem_grammars hg), hg⟩

/-- No grammar belongs to two modes. -/
theorem eq_of_mem_grammars (h : Tree.compile t d = (.ok tree, w)) {m m' g : Nat}
    (hg : g ∈ tree.grammars m) (hg' : g ∈ tree.grammars m') : m = m' := by
  have hpairwise := (List.nodup_flatMap.mp (nodup_flatMap_grammars h)).2
  rw [preorder_eq_range h] at hpairwise
  have hsymm : Std.Symm (Function.onFun List.Disjoint tree.grammars) :=
    ⟨fun _ _ hdisjoint _ hg hg' => hdisjoint hg' hg⟩
  by_contra hne
  have hdisjoint := hpairwise.forall (List.mem_range.mpr (lt_of_mem_grammars hg))
    (List.mem_range.mpr (lt_of_mem_grammars hg')) hne
  exact hdisjoint hg hg'

/-- **Definition order**: the commands that a mode's grammars number are those of its definition, in
    order, belong to the mode, and see the templates of the modes up to theirs in preorder. -/
theorem filed_commandsOf_grammars (h : Tree.compile t d = (.ok tree, w)) {m : Nat}
    {md : ModeDefinition} (hm : d.preorder[m]? = some md) :
    ∃ tₘ, Filed t ((d.preorder.take (m + 1)).flatMap ModeDefinition.defines) tₘ ∧
      List.Forall₂ (fun cd g => ∃ c, tree.command? g = some c ∧ CommandOf tₘ m cd c)
        md.commands (tree.grammars m) := by
  have hcompiled := compiled_of_compile h
  have hall : preorderAll [("", d)] = d.preorder := by
    rw [preorderAll, preorderAll, List.append_nil]
  have hlt : m < tree.modes.length := by
    rw [← length_preorder h]
    exact (List.getElem?_eq_some_iff.mp hm).1
  obtain ⟨tₘ, hfiled, hfound⟩ := hcompiled.commandsOf_grammars .self (hall ▸ hm)
    (List.getElem?_eq_getElem hlt)
  rw [hall] at hfiled
  rw [Nat.zero_add] at hfound
  refine ⟨tₘ, hfiled, ?_⟩
  rw [grammars, mode?, List.getElem?_eq_getElem hlt]
  exact hfound

theorem commandsOf_grammars (h : Tree.compile t d = (.ok tree, w)) {m : Nat} {md : ModeDefinition}
    (hm : d.preorder[m]? = some md) :
    ∃ t, List.Forall₂ (fun cd g => ∃ c, tree.command? g = some c ∧ CommandOf t m cd c)
      md.commands (tree.grammars m) := by
  obtain ⟨tₘ, -, hcommands⟩ := filed_commandsOf_grammars h hm
  exact ⟨tₘ, hcommands⟩

/-- A mode's grammar is the number of a command of that mode. -/
theorem exists_command_of_mem_grammars (h : Tree.compile t d = (.ok tree, w)) {m g : Nat}
    (hg : g ∈ tree.grammars m) : ∃ c, tree.command? g = some c ∧ c.mode = m := by
  have hlt : m < d.preorder.length := by
    rw [length_preorder h]
    exact lt_of_mem_grammars hg
  obtain ⟨t, hcommands⟩ := commandsOf_grammars h (List.getElem?_eq_getElem hlt)
  obtain ⟨k, hk, rfl⟩ := List.mem_iff_getElem.mp hg
  obtain ⟨c, hc, hof⟩ := hcommands.get (hcommands.length_eq ▸ hk) hk
  exact ⟨c, hc, hof.mode_eq⟩

/-- A grammar belongs to the mode of its command. -/
theorem mem_grammars_iff (h : Tree.compile t d = (.ok tree, w)) {m g : Nat} :
    g ∈ tree.grammars m ↔ ∃ c, tree.command? g = some c ∧ c.mode = m := by
  constructor
  · exact exists_command_of_mem_grammars h
  · rintro ⟨c, hc, rfl⟩
    have hlt : g < tree.commands.length := (List.getElem?_eq_some_iff.mp hc).1
    -- the grammar is some mode's, and its command says of which
    have hall := flatMap_preorder_grammars h ▸ grammars_perm h
    obtain ⟨m, -, hg⟩ := List.mem_flatMap.mp (hall.mem_iff.mpr (List.mem_range.mpr hlt))
    obtain ⟨c', hc', hmode⟩ := exists_command_of_mem_grammars h hg
    obtain rfl : c = c' := Option.some.inj (hc.symm.trans hc')
    rwa [hmode]

end Tree

end SpokenCommand.Modes
