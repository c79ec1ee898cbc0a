import SpokenCommand.Modes.Document
import SpokenCommand.Proofs.Json.RoundTrip
import SpokenCommand.Proofs.Modes.Numbering
/-!
A definitions file that is written is read again.

A mode is an object that holds three containers, of which the last holds the child modes, so that each
child mode is two containers deeper than its parent.  Modes that are nested `k` deep take `2 * k`
containers, because those that hold nothing are written too, and `2 * k + 1` if the deepest have commands.
Reading allows `maxDepth` of them, which is odd: the limit is met after 63 modes, with or without commands.

1. **Spellings.**  A mode is written with strings only that have spellings, so that the written text is
   read as the JSON value that it was written from (`isSpelled_toJson`).

2. **Keys.**  Names that are distinct go to the end one after another (`put_of_notMem`).  What is left
   out of a command is read as not given (`readCommand_toJson`).

3. **Modes** are read back as long as they are not nested too deep, and are refused otherwise
   (`readMode_toJson`), by induction on the definition, for all numbers of containers that may still be
   opened.
-/

namespace SpokenCommand.Modes

open Json

/-! ## Spellings -/

theorem CommandDefinition.isSpelled_toJson (c : CommandDefinition) : c.toJson.IsSpelled := by
  refine membersAreSpelled_iff.mpr ?_
  -- every member is a text under a key
  intro m hm
  simp only [List.mem_append, List.mem_map] at hm
  rcases hm with ((⟨text, -, rfl⟩ | ⟨text, -, rfl⟩) | ⟨text, -, rfl⟩) | ⟨text, -, rfl⟩
  all_goals exact ⟨isSpelled_pieces _, isSpelled_ofText text⟩

mutual

/-- A mode is written with strings that have spellings. -/
theorem ModeDefinition.isSpelled_toJson (d : ModeDefinition) : d.toJson.IsSpelled := by
  match d with
  | ⟨defines, commands, modes⟩ =>
    refine ⟨isSpelled_pieces _, membersAreSpelled_iff.mpr ?_, isSpelled_pieces _,
      areSpelled_iff.mpr ?_, isSpelled_pieces _, membersAreSpelled_childrenToJson modes, trivial⟩
    · intro m hm
      obtain ⟨⟨name, text⟩, -, rfl⟩ := List.mem_map.mp hm
      exact ⟨isSpelled_pieces name, isSpelled_ofText text⟩
    · intro item hitem
      obtain ⟨c, -, rfl⟩ := List.mem_map.mp hitem
      exact c.isSpelled_toJson

theorem membersAreSpelled_childrenToJson (modes : List (String × ModeDefinition)) :
    MembersAreSpelled (childrenToJson modes) := by
  match modes with
  | [] => trivial
  | (name, mode) :: rest =>
    exact ⟨isSpelled_pieces name, mode.isSpelled_toJson, membersAreSpelled_childrenToJson rest⟩

end

/-! ## Keys -/

/-- A new key goes to the end. -/
theorem put_of_notMem {α : Type} {key : String} {entries : List (String × α)}
    (h : key ∉ entries.map Prod.fst) (value : α) :
    Ordered.put key value entries = entries ++ [(key, value)] := by
  induction entries with
  | nil => rfl
  | cons e entries ih =>
    obtain ⟨k, v⟩ := e
    rw [List.map_cons, List.mem_cons, not_or] at h
    rw [Ordered.put, if_neg (Ne.symm h.1), ih h.2, List.cons_append]

/-- The next of several entries with distinct keys is new. -/
theorem put_next {α : Type} {key : String} {value : α} {seen rest : List (String × α)}
    (h : ((seen ++ (key, value) :: rest).map Prod.fst).Nodup) :
    Ordered.put key value seen = seen ++ [(key, value)] := by
  refine put_of_notMem ?_ value
  intro hkey
  rw [List.map_append, List.map_cons] at h
  exact (List.nodup_append.mp h).2.2 key hkey key List.mem_cons_self rfl

theorem readTexts_members (texts seen : List (String × String))
    (h : ((seen ++ texts).map Prod.fst).Nodup) :
    readTexts seen (texts.map fun (name, text) => member name (.ofText text)) =
      some (seen ++ texts) := by
  induction texts generalizing seen with
  | nil => rw [List.append_nil, List.map_nil, readTexts]
  | cons t texts ih =>
    obtain ⟨name, text⟩ := t
    have hput := put_next h
    rw [List.append_cons] at h ⊢
    show readTexts seen ((name.toList.map pieceOf, .ofText text) :: _) = _
    rw [readTexts, textOf?_pieces, text?_ofText]
    show readTexts (Ordered.put name text seen) _ = _
    rw [hput, ih (seen ++ [(name, text)]) h]

/-! ## Commands -/

theorem readOptionalText_ofText (text : String) :
    readOptionalText (.ofText text) = some (some text) := by
  show (Value.ofText text).text?.map some = _
  rw [text?_ofText, Option.map_some]

/-- **A command** is read back, if one more container may be opened. -/
theorem readCommand_toJson (depth : Nat) (c : CommandDefinition) :
    readCommand (depth + 1) c.toJson = some c := by
  obtain ⟨name, grammar, action, function⟩ := c
  -- each of the three optional members is written or left out
  rcases name with _ | name <;> rcases action with _ | action <;> rcases function with _ | function
  all_goals
    simp only [CommandDefinition.toJson, Option.toList, List.map_cons, List.map_nil, List.nil_append,
      List.append_nil, List.cons_append, readCommand, readCommandMembers, member, textOf?_pieces,
      text?_ofText, readOptionalText_ofText]
    rfl

theorem readCommands_toJson (depth : Nat) (commands : List CommandDefinition) :
    readCommands (depth + 2) (.array (commands.map CommandDefinition.toJson)) = some commands := by
  have hread : ∀ cs : List CommandDefinition,
      (cs.map CommandDefinition.toJson).mapM (readCommand (depth + 1)) = some cs := by
    intro cs
    induction cs with
    | nil => rfl
    | cons c cs ih =>
      rw [List.map_cons, List.mapM_cons, readCommand_toJson, ih]
      rfl
  exact hread commands

/-! ## Modes -/

/-- The names of a mode's templates are distinct, and so are those of its child modes. -/
structure ModeDefinition.HasDistinctNames (d : ModeDefinition) : Prop where
  defines : (d.defines.map Prod.fst).Nodup
  modes : (d.modes.map Prod.fst).Nodup

instance (d : ModeDefinition) : Decidable d.HasDistinctNames :=
  decidable_of_iff ((d.defines.map Prod.fst).Nodup ∧ (d.modes.map Prod.fst).Nodup)
    ⟨fun h => ⟨h.1, h.2⟩, fun h => ⟨h.defines, h.modes⟩⟩

mutual

/-- How deep modes are nested, with the root. -/
def ModeDefinition.depth : ModeDefinition → Nat
  | ⟨_, _, modes⟩ => depthAll modes + 1

/-- How deep the modes of a list are nested. -/
def depthAll : List (String × ModeDefinition) → Nat
  | [] => 0
  | (_, d) :: rest => max d.depth (depthAll rest)

end

/-- The three members of a mode are read one after another. -/
theorem readModeMembers_three (depth : Nat) (defines commands modes : Value) :
    readModeMembers depth {} [member "defines" defines, member "commands" commands,
      member "modes" modes] =
        (readDefines depth defines).bind fun d =>
          (readCommands depth commands).bind fun c =>
            (readModes depth modes).bind fun m => some ⟨some d, some c, some m⟩ := by
  simp only [member, readModeMembers, textOf?_pieces, Option.isSome_none, Bool.false_eq_true,
    ↓reduceIte]

/-- No container may be opened in the mode's own. -/
theorem readMode_one (d : ModeDefinition) : readMode 1 d.toJson = none := by
  obtain ⟨defines, commands, modes⟩ := d
  rw [ModeDefinition.toJson, readMode, if_neg Nat.one_ne_zero, readModeMembers_three]
  rfl

/-- A mode whose own containers may be opened is read as far as its child modes are. -/
theorem readMode_add_three (depth : Nat) {d : ModeDefinition} (h : d.HasDistinctNames) :
    readMode (depth + 3) d.toJson =
      (readChildren (depth + 1) [] (childrenToJson d.modes)).map (⟨d.defines, d.commands, ·⟩) := by
  obtain ⟨defines, commands, modes⟩ := d
  have hdefines := readTexts_members defines [] h.defines
  rw [List.nil_append] at hdefines
  have hlevel : depth + 3 - 1 = depth + 2 := rfl
  rw [ModeDefinition.toJson, readMode, if_neg (Nat.succ_ne_zero _), hlevel, readModeMembers_three,
    readCommands_toJson, readDefines, if_neg (Nat.succ_ne_zero _), readModes,
    if_neg (Nat.succ_ne_zero _)]
  show Option.map _ (Option.bind _ fun d => Option.bind _ fun c =>
    Option.bind (readChildren (depth + 1) [] _) _) = _
  dsimp only
  rw [hdefines, Option.bind_some, Option.bind_some]
  cases readChildren (depth + 1) [] (childrenToJson modes) with
  | none => rfl
  | some children => rfl

mutual

/-- **A mode** of distinct names is read back, unless it is nested too deep. -/
theorem readMode_toJson (d : ModeDefinition) (h : ∀ m ∈ d.preorder, m.HasDistinctNames) (k : Nat) :
    readMode (2 * k + 1) d.toJson = if d.depth ≤ k then some d else none := by
  match d, k with
  | ⟨defines, commands, modes⟩, 0 =>
    rw [readMode_one, if_neg]
    exact Nat.not_succ_le_zero _
  | ⟨defines, commands, modes⟩, k + 1 =>
    have hown := h ⟨defines, commands, modes⟩ List.mem_cons_self
    have hchildren := readChildren_childrenToJson modes []
      (fun m hm => h m (List.mem_cons_of_mem _ hm)) hown.modes k
    have hlevels : 2 * (k + 1) + 1 = 2 * k + 3 := by omega
    rw [hlevels, readMode_add_three (2 * k) hown, hchildren, ModeDefinition.depth,
      apply_ite (Option.map _)]
    simp only [Nat.add_le_add_iff_right]
    rfl

/-- Child modes are read back after those already seen, unless one is nested too deep. -/
theorem readChildren_childrenToJson (modes seen : List (String × ModeDefinition))
    (h : ∀ m ∈ preorderAll modes, m.HasDistinctNames)
    (hdistinct : ((seen ++ modes).map Prod.fst).Nodup) (k : Nat) :
    readChildren (2 * k + 1) seen (childrenToJson modes) =
      if depthAll modes ≤ k then some (seen ++ modes) else none := by
  match modes with
  | [] =>
    rw [childrenToJson, readChildren, depthAll, if_pos (Nat.zero_le k), List.append_nil]
  | (name, d) :: rest =>
    have hfirst := readMode_toJson d (fun m hm => h m (List.mem_append_left _ hm)) k
    have hput := put_next hdistinct
    rw [List.append_cons] at hdistinct ⊢
    have hrest := readChildren_childrenToJson rest (seen ++ [(name, d)])
      (fun m hm => h m (List.mem_append_right _ hm)) hdistinct k
    rw [childrenToJson, member, readChildren, textOf?_pieces]
    dsimp only
    rw [hfirst, depthAll]
    by_cases hdeep : d.depth ≤ k
    · rw [if_pos hdeep, Option.bind_some, hput, hrest]
      simp only [Nat.max_le, hdeep, true_and]
    · rw [if_neg hdeep, Option.bind_none, if_neg]
      intro hmax
      exact hdeep (Nat.le_trans (Nat.le_max_left _ _) hmax)

end

namespace ModeDefinition

/-- What is read of a written mode is what is read of its JSON value. -/
theorem ofText?_toText_eq_readMode (d : ModeDefinition) :
    ofText? d.toText = readMode maxDepth d.toJson := by
  rw [ofText?, toText, read_render d.isSpelled_toJson, Option.bind_some]

/-- **Writing and reading**: a mode of distinct names, nested at most 63 modes deep, is read back from
    the definitions file that is written for it, with everything in its order; one that is nested deeper
    is refused. -/
theorem ofText?_toText {d : ModeDefinition} (h : ∀ m ∈ d.preorder, m.HasDistinctNames) :
    ofText? d.toText = if d.depth ≤ 63 then some d else none := by
  rw [ofText?_toText_eq_readMode]
  exact readMode_toJson d h 63

/-- A mode under `n` others, each of which has a command without a name. -/
def under : Nat → ModeDefinition → ModeDefinition
  | 0, d => d
  | n + 1, d => ⟨[], [⟨none, "back", none, some "exit_mode"⟩], [("m", d.under n)]⟩

/-- A mode with names out of their alphabetical order, and with quotes, backslashes, control characters
    and characters beyond the first plane in its texts. -/
def variegated : ModeDefinition :=
  ⟨[("word", "a | b"), ("digit", "\x22one\x22 \\ two"), ("", "\x00\x1f\n\t/\x7f")],
    [⟨some "say \x22hi\x22", "h\u00e4i 😀", some "\\n\x08\x0c\r", none⟩,
      ⟨none, "", some "", some "exit_mode"⟩],
    [("spell", .empty), ("\u2028", .empty), ("program", .empty)]⟩

/-- Sixty-three modes deep, a mode is read back; under one more it is refused. -/
theorem ofText?_toText_variegated :
    (∀ m ∈ (variegated.under 62).preorder, m.HasDistinctNames) ∧
      ofText? (variegated.under 61).toText = some (variegated.under 61) ∧
        ofText? (variegated.under 62).toText = none := by
  have hnames : ∀ m ∈ (variegated.under 62).preorder, m.HasDistinctNames := by decide +kernel
  have hnames' : ∀ m ∈ (variegated.under 61).preorder, m.HasDistinctNames := by decide +kernel
  have hdepth : (variegated.under 61).depth = 63 := by decide +kernel
  have hdepth' : (variegated.under 62).depth = 64 := by decide +kernel
  have hread := ofText?_toText hnames'
  have hrefused := ofText?_toText hnames
  rw [hdepth, if_pos (Nat.le_refl 63)] at hread
  rw [hdepth', if_neg (by decide)] at hrefused
  exact ⟨hnames, hread, hrefused⟩

end ModeDefinition

end SpokenCommand.Modes
