import SpokenCommand.Proofs.Modes.RoundTrip
/-!
What is written in a definitions file, and what is kept of it.

A name may be written twice for child modes of one mode.  Reading files the second mode in the place of the
first, and the compiler, which refuses a name that is taken, does not see that there were two.

1. **Written** is the whole text: `written` has a child mode for every member of every object of child
   modes, those of repeated names included.  It is said of the JSON value alone, whatever the order of the
   members and however deep they are.

2. **Read** is what is left when names that are repeated are merged, the last mode in the place of the first
   (`merged_written_of_readMode`).  The crux is that a reader of members finds what stands under a name,
   and that no name comes twice among those that it uses (`reads_of_readModeMembers`).

3. **Held** (`Tree.Holds`) is what has a mode of its own in a tree, with all its commands, and so have all
   the modes below it.  A tree holds what it was compiled from (`Compiled.holdsAll`), and it can hold no mode
   with two children of one name in lowercase (`Tree.Holds.nodup_names`).  So of what is written it holds
   all exactly if no name is repeated as it is (`Tree.holds_iff_of_compile`).
-/

namespace SpokenCommand.Modes

open Json

/-! ## What is written -/

/-- What stands under a name in an object. -/
def memberNamed (name : String) (members : List (List Piece × Value)) : Option Value :=
  (members.find? fun m => textOf? m.1 == some name).map Prod.snd

/-- What a mode has under a name, or in a place if it is an array. -/
def part (name : String) (place : Nat) : Value → Option Value
  | .object members => memberNamed name members
  | .array items => items[place]?
  | _ => none

/-- The templates of a mode. -/
def writtenDefines (value : Value) : List (String × String) :=
  ((part "defines" 0 value).bind (readDefines maxDepth)).getD []

/-- The commands of a mode. -/
def writtenCommands (value : Value) : List CommandDefinition :=
  ((part "commands" 1 value).bind (readCommands maxDepth)).getD []

mutual

/-- A mode with everything that is written for it. -/
def written : Value → ModeDefinition
  | .object members =>
    ⟨writtenDefines (.object members), writtenCommands (.object members), writtenUnder members⟩
  | .array items =>
    ⟨writtenDefines (.array items), writtenCommands (.array items), writtenIn 2 items⟩
  | _ => .empty

/-- The child modes in the members of a mode. -/
def writtenUnder : List (List Piece × Value) → List (String × ModeDefinition)
  | [] => []
  | (key, value) :: rest =>
    if textOf? key = some "modes" then writtenChildren value else writtenUnder rest

/-- The child modes in a place among the items of a mode. -/
def writtenIn : Nat → List Value → List (String × ModeDefinition)
  | _, [] => []
  | 0, value :: _ => writtenChildren value
  | place + 1, _ :: rest => writtenIn place rest

/-- The child modes that a value holds. -/
def writtenChildren : Value → List (String × ModeDefinition)
  | .object members => writtenMembers members
  | _ => []

/-- A child mode for every member, also where a name is repeated. -/
def writtenMembers : List (List Piece × Value) → List (String × ModeDefinition)
  | [] => []
  | (key, value) :: rest =>
    match textOf? key with
    | some name => (name, written value) :: writtenMembers rest
    | none => writtenMembers rest

end

mutual

/-- A mode with the child modes of one name merged: the last of them stands in the place of the first. -/
def ModeDefinition.merged : ModeDefinition → ModeDefinition
  | ⟨defines, commands, modes⟩ => ⟨defines, commands, mergedAll [] modes⟩

/-- Child modes merged with those already `seen`. -/
def mergedAll (seen : List (String × ModeDefinition)) :
    List (String × ModeDefinition) → List (String × ModeDefinition)
  | [] => seen
  | (name, d) :: rest => mergedAll (Ordered.put name d.merged seen) rest

end

theorem writtenUnder_eq (members : List (List Piece × Value)) :
    writtenUnder members = ((memberNamed "modes" members).map writtenChildren).getD [] := by
  induction members with
  | nil =>
    rw [writtenUnder]
    rfl
  | cons m rest ih =>
    obtain ⟨key, value⟩ := m
    rw [writtenUnder, memberNamed, List.find?_cons]
    by_cases hkey : textOf? key = some "modes"
    · rw [if_pos hkey, beq_iff_eq.mpr hkey]
      rfl
    · rw [if_neg hkey, beq_eq_false_iff_ne.mpr hkey, ih]
      rfl

theorem writtenIn_eq (place : Nat) (items : List Value) :
    writtenIn place items = (items[place]?.map writtenChildren).getD [] := by
  induction items generalizing place with
  | nil =>
    rw [writtenIn]
    rfl
  | cons value rest ih =>
    cases place with
    | zero =>
      rw [writtenIn]
      rfl
    | succ place =>
      rw [writtenIn, ih, List.getElem?_cons_succ]

/-- The three parts of what is written for a mode. -/
theorem written_eq (value : Value) :
    written value = ⟨writtenDefines value, writtenCommands value,
      ((part "modes" 2 value).map writtenChildren).getD []⟩ := by
  cases value with
  | object members => rw [written, writtenUnder_eq, part]
  | array items => rw [written, writtenIn_eq, part]
  | _ => rfl

/-! ## What is read -/

variable {depth : Nat} {value : Value}

theorem readDefines_maxDepth {defines : List (String × String)}
    (h : readDefines depth value = some defines) : readDefines maxDepth value = some defines := by
  cases depth with
  | zero => cases h
  | succ depth => exact h

/-- However deep a command may be, what is read of it is the same. -/
theorem readCommand_maxDepth {c : CommandDefinition} (h : readCommand depth value = some c) :
    readCommand (maxDepth - 1) value = some c := by
  cases depth with
  | zero => cases h
  | succ depth => exact h

theorem readCommands_maxDepth {commands : List CommandDefinition}
    (h : readCommands depth value = some commands) :
    readCommands maxDepth value = some commands := by
  have hall : ∀ (items : List Value) (cs : List CommandDefinition),
      items.mapM (readCommand (depth - 1)) = some cs →
        items.mapM (readCommand (maxDepth - 1)) = some cs := by
    intro items
    induction items with
    | nil => exact fun _ h => h
    | cons item rest ih =>
      intro cs h
      rw [List.mapM_cons] at h ⊢
      obtain ⟨c, hc, h⟩ := Option.bind_eq_some_iff.mp h
      obtain ⟨others, hothers, h⟩ := Option.bind_eq_some_iff.mp h
      rw [readCommand_maxDepth hc, ih others hothers]
      exact h
  unfold readCommands at h
  split at h
  · cases h
  · split at h
    · exact hall _ _ h
    · cases h

/-- A member is read: what stands under the name, unless nothing does or something was read before. -/
def Reads {α : Type} (read : Value → Option α) (seen : Option α) (found : Option Value)
    (got : Option α) : Prop :=
  match found with
  | none => got = seen
  | some value => seen = none ∧ ∃ a, read value = some a ∧ got = some a

theorem memberNamed_cons_self {name : String} {key : List Piece} {rest : List (List Piece × Value)}
    (h : textOf? key = some name) : memberNamed name ((key, value) :: rest) = some value := by
  rw [memberNamed, List.find?_cons, beq_iff_eq.mpr h]
  rfl

theorem memberNamed_cons_of_ne {name : String} {key : List Piece} {rest : List (List Piece × Value)}
    (h : textOf? key ≠ some name) :
    memberNamed name ((key, value) :: rest) = memberNamed name rest := by
  rw [memberNamed, List.find?_cons, beq_eq_false_iff_ne.mpr h, memberNamed]

/-- What is read after a member of the name finds nothing more. -/
theorem Reads.first {α : Type} {read : Value → Option α} {seen got : Option α} {a : α}
    {found : Option Value} (h : Reads read (some a) found got) (hseen : ¬ seen.isSome = true)
    (ha : read value = some a) : Reads read seen (some value) got := by
  cases found with
  | some value' => exact absurd h.1 (Option.some_ne_none a)
  | none =>
    have hgot : got = some a := h
    exact ⟨by simpa using hseen, a, ha, hgot⟩

/-- **Members**: of each name that a mode uses, the one that stands there is read. -/
theorem reads_of_readModeMembers {seen m : ModeMembers} {members : List (List Piece × Value)}
    (h : readModeMembers depth seen members = some m) :
    Reads (readDefines depth) seen.defines (memberNamed "defines" members) m.defines ∧
      Reads (readCommands depth) seen.commands (memberNamed "commands" members) m.commands ∧
      Reads (readModes depth) seen.modes (memberNamed "modes" members) m.modes := by
  induction members generalizing seen with
  | nil =>
    rw [readModeMembers] at h
    obtain rfl := Option.some.inj h
    exact ⟨rfl, rfl, rfl⟩
  | cons member rest ih =>
    obtain ⟨key, value⟩ := member
    rw [readModeMembers] at h
    split at h
    · cases h
    · rename_i hkey
      split at h
      · cases h
      · rename_i hseen
        obtain ⟨a, ha, h⟩ := Option.bind_eq_some_iff.mp h
        obtain ⟨hdefines, hcommands, hmodes⟩ := ih h
        rw [memberNamed_cons_self hkey, memberNamed_cons_of_ne (by simp [hkey]),
          memberNamed_cons_of_ne (by simp [hkey])]
        exact ⟨hdefines.first hseen ha, hcommands, hmodes⟩
    · rename_i hkey
      split at h
      · cases h
      · rename_i hseen
        obtain ⟨a, ha, h⟩ := Option.bind_eq_some_iff.mp h
        obtain ⟨hdefines, hcommands, hmodes⟩ := ih h
        rw [memberNamed_cons_of_ne (by simp [hkey]), memberNamed_cons_self hkey,
          memberNamed_cons_of_ne (by simp [hkey])]
        exact ⟨hdefines, hcommands.first hseen ha, hmodes⟩
    · rename_i hkey
      split at h
      · cases h
      · rename_i hseen
        obtain ⟨a, ha, h⟩ := Option.bind_eq_some_iff.mp h
        obtain ⟨hdefines, hcommands, hmodes⟩ := ih h
        rw [memberNamed_cons_of_ne (by simp [hkey]), memberNamed_cons_of_ne (by simp [hkey]),
          memberNamed_cons_self hkey]
        exact ⟨hdefines, hcommands, hmodes.first hseen ha⟩
    · rename_i name hdefines hcommands hmodes hkey
      rw [memberNamed_cons_of_ne (by simpa [hkey] using hdefines),
        memberNamed_cons_of_ne (by simpa [hkey] using hcommands),
        memberNamed_cons_of_ne (by simpa [hkey] using hmodes)]
      exact ih h

/-- What is left out is nothing. -/
theorem Reads.getD_eq {α : Type} {read read' : Value → Option (List α)} {found : Option Value}
    {got : Option (List α)} (h : Reads read none found got)
    (hread : ∀ value a, read value = some a → read' value = some a) :
    got.getD [] = (found.bind read').getD [] := by
  cases found with
  | none => rw [show got = none from h]; rfl
  | some value =>
    obtain ⟨-, a, ha, rfl⟩ := h
    rw [Option.bind_some, hread value a ha]

/-- **A mode** is read from its three parts, the child modes with fewer containers to open. -/
theorem parts_of_readMode {d : ModeDefinition} (h : readMode depth value = some d) :
    d.defines = writtenDefines value ∧ d.commands = writtenCommands value ∧
      (part "modes" 2 value = none ∧ d.modes = [] ∨
        ∃ modes, part "modes" 2 value = some modes ∧
          ∃ less < depth, readModes less modes = some d.modes) := by
  cases value with
  | object members =>
    rw [readMode] at h
    split at h
    · cases h
    · rename_i hdepth
      obtain ⟨m, hm, rfl⟩ := Option.map_eq_some_iff.mp h
      obtain ⟨hdefines, hcommands, hmodes⟩ := reads_of_readModeMembers hm
      refine ⟨hdefines.getD_eq fun _ _ => readDefines_maxDepth,
        hcommands.getD_eq fun _ _ => readCommands_maxDepth, ?_⟩
      rw [part]
      cases hfound : memberNamed "modes" members with
      | none =>
        rw [hfound] at hmodes
        refine Or.inl ⟨rfl, ?_⟩
        rw [ModeMembers.toDefinition, show m.modes = none from hmodes]
        rfl
      | some modes =>
        rw [hfound] at hmodes
        obtain ⟨-, l, hl, hgot⟩ := hmodes
        refine Or.inr ⟨modes, rfl, depth - 1, by omega, ?_⟩
        rw [hl, ModeMembers.toDefinition, hgot]
        rfl
  | array items =>
    rw [readMode] at h
    split at h
    · cases h
    · rename_i hdepth
      have hdefines : ∀ {item : Value} {ds}, readDefines (depth - 1) item = some ds →
          ds = ((some item).bind (readDefines maxDepth)).getD [] := by
        intro item ds hds
        rw [Option.bind_some, readDefines_maxDepth hds, Option.getD_some]
      have hcommands : ∀ {item : Value} {cs}, readCommands (depth - 1) item = some cs →
          cs = ((some item).bind (readCommands maxDepth)).getD [] := by
        intro item cs hcs
        rw [Option.bind_some, readCommands_maxDepth hcs, Option.getD_some]
      unfold readModeItems at h
      split at h
      · obtain rfl := Option.some.inj h
        exact ⟨rfl, rfl, Or.inl ⟨rfl, rfl⟩⟩
      · obtain ⟨ds, hds, h⟩ := Option.bind_eq_some_iff.mp h
        obtain rfl := Option.some.inj h
        exact ⟨hdefines hds, rfl, Or.inl ⟨rfl, rfl⟩⟩
      · obtain ⟨ds, hds, h⟩ := Option.bind_eq_some_iff.mp h
        obtain ⟨cs, hcs, h⟩ := Option.bind_eq_some_iff.mp h
        obtain rfl := Option.some.inj h
        exact ⟨hdefines hds, hcommands hcs, Or.inl ⟨rfl, rfl⟩⟩
      · rename_i modes
        obtain ⟨ds, hds, h⟩ := Option.bind_eq_some_iff.mp h
        obtain ⟨cs, hcs, h⟩ := Option.bind_eq_some_iff.mp h
        obtain ⟨ms, hms, h⟩ := Option.bind_eq_some_iff.mp h
        obtain rfl := Option.some.inj h
        exact ⟨hdefines hds, hcommands hcs, Or.inr ⟨modes, rfl, depth - 1, by omega, hms⟩⟩
      · cases h
  | null | bool | number | string => cases h

/-- The modes of an object are merged with those seen before one after another. -/
theorem mergedAll_of_readChildren {members : List (List Piece × Value)}
    {seen modes : List (String × ModeDefinition)}
    (hmode : ∀ value d, readMode depth value = some d → (written value).merged = d)
    (h : readChildren depth seen members = some modes) :
    mergedAll seen (writtenMembers members) = modes := by
  induction members generalizing seen with
  | nil =>
    rw [readChildren] at h
    exact Option.some.inj h
  | cons member rest ih =>
    obtain ⟨key, value⟩ := member
    rw [readChildren] at h
    rw [writtenMembers]
    split at h
    · cases h
    · rename_i name hkey
      obtain ⟨d, hd, h⟩ := Option.bind_eq_some_iff.mp h
      rw [hkey]
      dsimp only
      rw [mergedAll, hmode value d hd]
      exact ih h

/-- **What is read** of a mode is what is written for it, merged. -/
theorem merged_written_of_readMode {d : ModeDefinition} (h : readMode depth value = some d) :
    (written value).merged = d := by
  -- child modes are read with fewer containers to open
  induction depth using Nat.strong_induction_on generalizing value d with
  | h depth ih =>
    obtain ⟨defines, commands, modes⟩ := d
    obtain ⟨rfl, rfl, hmodes⟩ := parts_of_readMode h
    rw [written_eq, ModeDefinition.merged]
    rcases hmodes with ⟨hnone, rfl⟩ | ⟨found, hsome, less, hless, hread⟩
    · rw [hnone]
      rfl
    · unfold readModes at hread
      split at hread
      · split at hread
        · cases hread
        · have hmerged := mergedAll_of_readChildren
            (fun value' d' h' => ih (less - 1) (by omega) h') hread
          rw [hsome, Option.map_some, Option.getD_some, writtenChildren, hmerged]
      · cases hread

/-! ## Distinct names -/

mutual

/-- Where no name is repeated, nothing is merged. -/
theorem ModeDefinition.merged_of_nodup (d : ModeDefinition)
    (h : ∀ m ∈ d.preorder, (m.modes.map Prod.fst).Nodup) : d.merged = d := by
  match d with
  | ⟨defines, commands, modes⟩ =>
    have hown := h ⟨defines, commands, modes⟩ List.mem_cons_self
    rw [ModeDefinition.merged, mergedAll_of_nodup modes [] hown fun m hm => h m (List.mem_cons_of_mem _ hm),
      List.nil_append]

theorem mergedAll_of_nodup (modes seen : List (String × ModeDefinition))
    (hdistinct : ((seen ++ modes).map Prod.fst).Nodup)
    (h : ∀ m ∈ preorderAll modes, (m.modes.map Prod.fst).Nodup) :
    mergedAll seen modes = seen ++ modes := by
  match modes with
  | [] => rw [mergedAll, List.append_nil]
  | (name, d) :: rest =>
    have hput := put_next hdistinct
    rw [List.append_cons] at hdistinct ⊢
    rw [mergedAll, d.merged_of_nodup fun m hm => h m (List.mem_append_left _ hm), hput]
    exact mergedAll_of_nodup rest (seen ++ [(name, d)]) hdistinct
      fun m hm => h m (List.mem_append_right _ hm)

end

/-! ## What a tree holds -/

namespace Tree

mutual

/-- The tree has a mode of its own for a definition, with all its commands in order, and for all the child
    modes below it. -/
def Holds (tree : Tree) (parent : Option ModeId) (name : String) (id : ModeId) : ModeDefinition → Prop
  | ⟨_, commands, modes⟩ =>
    ∃ mode, tree.mode? id = some mode ∧ mode.name = Text.lowercase name ∧ mode.parent = parent ∧
      (∃ t, List.Forall₂ (fun d g => ∃ c, tree.command? g = some c ∧ CommandOf t id d c)
        commands mode.grammars) ∧
      tree.HoldsAll (some id) mode.children modes

/-- The children are modes of their own for as many definitions, in order and under their lowercase
    names. -/
def HoldsAll (tree : Tree) (parent : Option ModeId) (children : List (String × ModeId)) :
    List (String × ModeDefinition) → Prop
  | [] => children = []
  | (name, d) :: rest => ∃ c others, children = (Text.lowercase name, c) :: others ∧
      tree.Holds parent name c d ∧ tree.HoldsAll parent others rest

end

end Tree

section Forest

open Grammar (Templates)

variable {t t' : Templates} {parent : Option ModeId} {id grammar : Nat} {taken : List String}
  {modes : List (String × ModeDefinition)} {forest : Forest} {tree : Tree}

/-- **A forest** holds the modes that it was compiled from. -/
theorem Compiled.holdsAll (h : Compiled t parent id grammar taken modes forest t')
    (hmodes : StandsAt tree.modes id forest.modes)
    (hcommands : StandsAt tree.commands grammar forest.commands) :
    tree.HoldsAll parent forest.children modes := by
  induction h with
  | nil => rfl
  | @cons _ t₁ _ _ parent id grammar _ name d rest own below others _ _ _ hown _ htree _ ihbelow
      ihothers =>
    subst htree
    obtain ⟨hmode, hmodes⟩ := hmodes.append
    obtain ⟨hbelowOwn, hcommands⟩ := hcommands.append
    obtain ⟨hbelow, hownAt⟩ := hbelowOwn.append
    obtain ⟨defines, commands, modes⟩ := d
    have hgrammars := hownAt.commandsOf hown
    refine ⟨id, others.children, rfl, ?_, ihothers hmodes hcommands⟩
    exact ⟨_, hmode.cons.1, rfl, rfl, ⟨t₁, hgrammars⟩, ihbelow hmode.cons.2 hbelow⟩

/-- No name is taken twice by the children of a mode. -/
theorem Compiled.nodup_keys (h : Compiled t parent id grammar taken modes forest t') :
    (forest.children.map Prod.fst).Nodup ∧ ∀ key ∈ forest.children.map Prod.fst, key ∉ taken := by
  induction h with
  | nil => exact ⟨List.nodup_nil, fun _ hkey => absurd hkey List.not_mem_nil⟩
  | @cons _ _ _ _ _ _ _ taken name _ _ _ _ others _ hnew _ _ _ _ _ _ ihothers =>
    obtain ⟨hnodup, hfree⟩ := ihothers
    show (Text.lowercase name :: others.children.map Prod.fst).Nodup ∧
      ∀ key ∈ Text.lowercase name :: others.children.map Prod.fst, key ∉ taken
    refine ⟨List.nodup_cons.mpr ⟨?_, hnodup⟩, List.forall_mem_cons.mpr ⟨hnew, ?_⟩⟩
    · intro hkey
      exact hfree _ hkey (List.mem_append_right _ (List.mem_singleton_self _))
    · intro key hkey hmem
      exact hfree key hkey (List.mem_append_left _ hmem)

theorem Compiled.nodup_children (h : Compiled t parent id grammar taken modes forest t') :
    ∀ mode ∈ forest.modes, (mode.children.map Prod.fst).Nodup := by
  induction h with
  | nil => exact fun _ hmode => absurd hmode List.not_mem_nil
  | cons _ _ _ hbelow htree _ ihbelow ihothers =>
    subst htree
    exact List.forall_mem_append.mpr
      ⟨List.forall_mem_cons.mpr ⟨hbelow.nodup_keys.1, ihbelow⟩, ihothers⟩

end Forest

namespace Tree

variable {tree : Tree}

/-- The children go by the names of the definitions. -/
theorem HoldsAll.keys_eq {parent : Option ModeId} {children : List (String × ModeId)}
    {modes : List (String × ModeDefinition)} (h : tree.HoldsAll parent children modes) :
    children.map Prod.fst = modes.map fun entry => Text.lowercase entry.1 := by
  induction modes generalizing children with
  | nil =>
    rw [show children = [] from h]
    rfl
  | cons entry rest ih =>
    obtain ⟨name, d⟩ := entry
    obtain ⟨c, others, rfl, -, hrest⟩ := h
    rw [List.map_cons, List.map_cons, ih hrest]

mutual

/-- **What a tree can hold**: modes whose children have names that are distinct in lowercase. -/
theorem Holds.nodup_names (hkeys : ∀ mode ∈ tree.modes, (mode.children.map Prod.fst).Nodup)
    (d : ModeDefinition) {parent : Option ModeId} {name : String} {id : ModeId}
    (h : tree.Holds parent name id d) :
    ∀ m ∈ d.preorder, (m.modes.map fun entry => Text.lowercase entry.1).Nodup := by
  match d with
  | ⟨defines, commands, modes⟩ =>
    obtain ⟨mode, hmode, -, -, -, hchildren⟩ := h
    refine List.forall_mem_cons.mpr ⟨?_, HoldsAll.nodup_names hkeys modes hchildren⟩
    rw [← hchildren.keys_eq]
    exact hkeys mode (List.mem_of_getElem? hmode)

theorem HoldsAll.nodup_names (hkeys : ∀ mode ∈ tree.modes, (mode.children.map Prod.fst).Nodup)
    (modes : List (String × ModeDefinition)) {parent : Option ModeId}
    {children : List (String × ModeId)} (h : tree.HoldsAll parent children modes) :
    ∀ m ∈ preorderAll modes, (m.modes.map fun entry => Text.lowercase entry.1).Nodup := by
  match modes with
  | [] => exact fun _ hm => absurd hm List.not_mem_nil
  | (name, d) :: rest =>
    obtain ⟨c, others, -, hd, hrest⟩ := h
    exact List.forall_mem_append.mpr
      ⟨Holds.nodup_names hkeys d hd, HoldsAll.nodup_names hkeys rest hrest⟩

end

variable {t : Grammar.Templates} {d : ModeDefinition} {w : Workspace}

/-- A tree holds all that it was compiled from. -/
theorem holds_of_compile (h : compile t d = (.ok tree, w)) : tree.Holds none "" root d := by
  have hcompiled := compiled_of_compile h
  obtain ⟨c, others, heq, hd, -⟩ := hcompiled.holdsAll .self .self
  obtain ⟨⟨-, rfl⟩, -⟩ := List.cons.inj heq
  exact hd

/-- **Of what is written** a tree holds all exactly if no name is repeated among the child modes of one
    mode. -/
theorem holds_iff_of_compile (h : compile t d.merged = (.ok tree, w)) :
    tree.Holds none "" root d ↔ ∀ m ∈ d.preorder, (m.modes.map Prod.fst).Nodup := by
  constructor
  · intro hholds m hm
    have hkeys := (compiled_of_compile h).nodup_children
    have hlower := hholds.nodup_names hkeys d m hm
    refine List.Nodup.of_map Text.lowercase ?_
    rwa [List.map_map]
  · intro hnames
    rw [d.merged_of_nodup hnames] at h
    exact holds_of_compile h

end Tree

end SpokenCommand.Modes
