import SpokenCommand.Proofs.Grammar.Language
import SpokenCommand.Proofs.Grammar.Writable
import SpokenCommand.Proofs.Text.Sayable
import SpokenCommand.Recognizer
/-!
Which grammars can be spoken.

The notation separates words at spaces and tabs, and a phrase at all blanks.  A literal with any other
blank in it is one word of source, and no word of any phrase.

1. **Languages.**  Of a language it matters whether words that can be said are in it (`Passes`) and
   whether some are that are at least one (`Voices`).  Both go through the operations that languages of
   grammars are built by, whatever the ranges.

2. **The decision** (`Node.areSpeakable`) is a recursion over the grammar, and the crux is that it is exact
   (`Node.areSpeakable_iff`): a grammar can be spoken exactly if there is a way through it that says
   something and says no literal with a blank.

3. **Plain source** has no blanks but spaces and tabs.  Every node that is read from it can be spoken on its
   own, if this is so of the templates that it refers to.  This is the invariant of the parser
   (`speakable_of_parseFrom`), and it is kept by definitions from source.
-/

namespace SpokenCommand.Grammar

/-! ## Languages -/

/-- A word as grammars compare it: it can be said, and is in lowercase. -/
def IsHeard (word : String) : Prop := Text.isSayable word = true ∧ Text.lowercase word = word

theorem isHeard_lowercase {word : String} :
    IsHeard (Text.lowercase word) ↔ Text.isSayable word = true := by
  rw [IsHeard, Text.isSayable_lowercase, Text.lowercase_lowercase, and_iff_left rfl]

/-- Words that can be said, perhaps none, are in the language. -/
def Passes (L : Language String) : Prop := ∃ spoken ∈ L, ∀ word ∈ spoken, IsHeard word

/-- One or more words that can be said are in the language. -/
def Voices (L : Language String) : Prop :=
  ∃ spoken ∈ L, spoken ≠ [] ∧ ∀ word ∈ spoken, IsHeard word

section Languages

variable {L M : Language String}

theorem Voices.passes (h : Voices L) : Passes L := by
  obtain ⟨spoken, hmem, -, hheard⟩ := h
  exact ⟨spoken, hmem, hheard⟩

theorem passes_one : Passes 1 := ⟨[], Language.nil_mem_one, fun _ h => absurd h List.not_mem_nil⟩

theorem not_voices_one : ¬ Voices 1 := by
  rintro ⟨spoken, hmem, hne, -⟩
  exact hne ((Language.mem_one spoken).mp hmem)

theorem not_passes_zero : ¬ Passes 0 := by
  rintro ⟨spoken, hmem, -⟩
  exact hmem

/-- What is looked for in two languages is in one of them. -/
theorem exists_mem_add {P : List String → Prop} :
    (∃ spoken ∈ L + M, P spoken) ↔ (∃ spoken ∈ L, P spoken) ∨ ∃ spoken ∈ M, P spoken := by
  constructor
  · rintro ⟨spoken, hL | hM, h⟩
    · exact Or.inl ⟨spoken, hL, h⟩
    · exact Or.inr ⟨spoken, hM, h⟩
  · rintro (⟨spoken, hL, h⟩ | ⟨spoken, hM, h⟩)
    · exact ⟨spoken, Or.inl hL, h⟩
    · exact ⟨spoken, Or.inr hM, h⟩

theorem passes_add : Passes (L + M) ↔ Passes L ∨ Passes M := exists_mem_add

theorem voices_add : Voices (L + M) ↔ Voices L ∨ Voices M := exists_mem_add

theorem passes_mul : Passes (L * M) ↔ Passes L ∧ Passes M := by
  constructor
  · rintro ⟨spoken, hmem, h⟩
    obtain ⟨first, hL, second, hM, rfl⟩ := Language.mem_mul.mp hmem
    obtain ⟨hfirst, hsecond⟩ := List.forall_mem_append.mp h
    exact ⟨⟨first, hL, hfirst⟩, second, hM, hsecond⟩
  · rintro ⟨⟨first, hL, hfirst⟩, second, hM, hsecond⟩
    exact ⟨first ++ second, Language.append_mem_mul hL hM,
      List.forall_mem_append.mpr ⟨hfirst, hsecond⟩⟩

/-- Something is said in one of the two parts. -/
theorem voices_mul : Voices (L * M) ↔ Voices L ∧ Passes M ∨ Passes L ∧ Voices M := by
  constructor
  · rintro ⟨spoken, hmem, hne, h⟩
    obtain ⟨first, hL, second, hM, rfl⟩ := Language.mem_mul.mp hmem
    obtain ⟨hfirst, hsecond⟩ := List.forall_mem_append.mp h
    by_cases hnil : first = []
    · have hne' : second ≠ [] := by
        rintro rfl
        exact hne (by rw [hnil, List.append_nil])
      exact Or.inr ⟨⟨first, hL, hfirst⟩, second, hM, hne', hsecond⟩
    · exact Or.inl ⟨⟨first, hL, hnil, hfirst⟩, second, hM, hsecond⟩
  · rintro (⟨hfirst, hsecond⟩ | ⟨hfirst, hsecond⟩)
    · obtain ⟨first, hL, hne, hfirst⟩ := hfirst
      obtain ⟨second, hM, hsecond⟩ := hsecond
      exact ⟨first ++ second, Language.append_mem_mul hL hM,
        List.append_ne_nil_of_left_ne_nil hne second, List.forall_mem_append.mpr ⟨hfirst, hsecond⟩⟩
    · obtain ⟨first, hL, hfirst⟩ := hfirst
      obtain ⟨second, hM, hne, hsecond⟩ := hsecond
      exact ⟨first ++ second, Language.append_mem_mul hL hM,
        List.append_ne_nil_of_right_ne_nil first hne, List.forall_mem_append.mpr ⟨hfirst, hsecond⟩⟩

theorem passes_pow {k : Nat} : Passes (L ^ k) ↔ k = 0 ∨ Passes L := by
  induction k with
  | zero =>
    rw [pow_zero]
    exact iff_of_true passes_one (Or.inl rfl)
  | succ k ih =>
    rw [pow_succ, passes_mul, ih]
    constructor
    · rintro ⟨-, h⟩
      exact Or.inr h
    · rintro (h | h)
      · cases h
      · exact ⟨Or.inr h, h⟩

theorem voices_pow {k : Nat} : Voices (L ^ k) ↔ 1 ≤ k ∧ Voices L := by
  induction k with
  | zero =>
    rw [pow_zero]
    exact iff_of_false not_voices_one fun h => absurd h.1 (by omega)
  | succ k ih =>
    rw [pow_succ, voices_mul, ih, passes_pow]
    constructor
    · rintro (⟨⟨-, h⟩, -⟩ | ⟨-, h⟩)
      · exact ⟨by omega, h⟩
      · exact ⟨by omega, h⟩
    · rintro ⟨-, h⟩
      exact Or.inr ⟨Or.inr h.passes, h⟩

theorem passes_repeat {r : Repeat} :
    Passes (r.language L) ↔ r.min ≤ r.max ∧ (r.min = 0 ∨ Passes L) := by
  constructor
  · rintro ⟨spoken, ⟨k, hmin, hmax, hmem⟩, h⟩
    refine ⟨by omega, ?_⟩
    rcases passes_pow.mp ⟨spoken, hmem, h⟩ with rfl | hL
    · exact Or.inl (by omega)
    · exact Or.inr hL
  · rintro ⟨hle, hL⟩
    obtain ⟨spoken, hmem, h⟩ := passes_pow.mpr hL
    exact ⟨spoken, ⟨r.min, Nat.le_refl _, hle, hmem⟩, h⟩

theorem voices_repeat {r : Repeat} :
    Voices (r.language L) ↔ (r.min ≤ r.max ∧ 1 ≤ r.max) ∧ Voices L := by
  constructor
  · rintro ⟨spoken, ⟨k, hmin, hmax, hmem⟩, hne, h⟩
    obtain ⟨hone, hL⟩ := voices_pow.mp ⟨spoken, hmem, hne, h⟩
    exact ⟨⟨by omega, by omega⟩, hL⟩
  · rintro ⟨⟨hle, hone⟩, hL⟩
    obtain ⟨spoken, hmem, hne, h⟩ := voices_pow.mpr ⟨hone, hL⟩
    exact ⟨spoken, ⟨r.max, hle, Nat.le_refl _, hmem⟩, hne, h⟩

theorem voices_word (text : String) : Voices {[Text.lowercase text]} ↔ Text.isSayable text = true := by
  rw [← isHeard_lowercase]
  constructor
  · rintro ⟨spoken, rfl, -, h⟩
    exact h _ List.mem_cons_self
  · intro h
    exact ⟨_, rfl, List.cons_ne_nil _ _, List.forall_mem_singleton.mpr h⟩

theorem passes_word (text : String) : Passes {[Text.lowercase text]} ↔ Text.isSayable text = true := by
  rw [← voices_word]
  constructor
  · rintro ⟨spoken, rfl, h⟩
    exact ⟨_, rfl, List.cons_ne_nil _ _, h⟩
  · exact Voices.passes

theorem voices_open : Voices {spoken | spoken ≠ []} :=
  ⟨["a"], List.cons_ne_nil _ _, List.cons_ne_nil _ _, List.forall_mem_singleton.mpr ⟨rfl, rfl⟩⟩

end Languages

/-! ## The decision -/

namespace Repeat

/-- Whether a repeat can be passed of something that can be passed or not. -/
def isPassable (r : Repeat) (once : Bool) : Bool := decide (r.min ≤ r.max) && (r.min == 0 || once)

/-- Whether a repeat can be spoken of something that can be spoken or not. -/
def isSpeakable (r : Repeat) (once : Bool) : Bool := r.isValid && once

theorem isPassable_iff {r : Repeat} {L : Language String} {once : Bool} (h : once = true ↔ Passes L) :
    r.isPassable once = true ↔ Passes (r.language L) := by
  rw [passes_repeat, ← h]
  simp [isPassable]

theorem isSpeakable_iff {r : Repeat} {L : Language String} {once : Bool} (h : once = true ↔ Voices L) :
    r.isSpeakable once = true ↔ Voices (r.language L) := by
  rw [voices_repeat, ← h]
  simp [isSpeakable, isValid]

end Repeat

namespace Node

mutual

/-- Whether a node can be passed without saying a literal that cannot be said. -/
def isPassable : Node → Bool
  | literal text r => r.isPassable (Text.isSayable text)
  | choice alternatives r => r.isPassable (anyPassable alternatives)
  | dictation => true
  | wildcard => true

/-- Whether one of several sequences can be passed. -/
def anyPassable : List (List Node) → Bool
  | [] => false
  | sequence :: rest => arePassable sequence || anyPassable rest

/-- Whether a sequence can be passed. -/
def arePassable : List Node → Bool
  | [] => true
  | node :: rest => node.isPassable && arePassable rest

end

mutual

/-- Whether a node can be passed in that way by saying something. -/
def isSpeakable : Node → Bool
  | literal text r => r.isSpeakable (Text.isSayable text)
  | choice alternatives r => r.isSpeakable (anySpeakable alternatives)
  | dictation => true
  | wildcard => true

/-- Whether one of several sequences can be spoken. -/
def anySpeakable : List (List Node) → Bool
  | [] => false
  | sequence :: rest => areSpeakable sequence || anySpeakable rest

/-- Whether a sequence can be spoken: one of its nodes, while the others are passed. -/
def areSpeakable : List Node → Bool
  | [] => false
  | node :: rest => node.isSpeakable && arePassable rest || node.isPassable && areSpeakable rest

end

mutual

theorem isPassable_iff (node : Node) : node.isPassable = true ↔ Passes node.language := by
  match node with
  | literal text r => exact Repeat.isPassable_iff (passes_word text).symm
  | choice alternatives r => exact Repeat.isPassable_iff (anyPassable_iff alternatives)
  | dictation => exact iff_of_true rfl voices_open.passes
  | wildcard => exact iff_of_true rfl voices_open.passes

theorem anyPassable_iff (alternatives : List (List Node)) :
    anyPassable alternatives = true ↔ Passes (languageAny alternatives) := by
  match alternatives with
  | [] => exact iff_of_false Bool.noConfusion not_passes_zero
  | sequence :: rest =>
    rw [anyPassable, languageAny, Bool.or_eq_true, passes_add, arePassable_iff sequence,
      anyPassable_iff rest]

theorem arePassable_iff (nodes : List Node) : arePassable nodes = true ↔ Passes (languageAll nodes) := by
  match nodes with
  | [] => exact iff_of_true rfl passes_one
  | node :: rest =>
    rw [arePassable, languageAll, Bool.and_eq_true, passes_mul, isPassable_iff node, arePassable_iff rest]

end

mutual

theorem isSpeakable_iff (node : Node) : node.isSpeakable = true ↔ Voices node.language := by
  match node with
  | literal text r => exact Repeat.isSpeakable_iff (voices_word text).symm
  | choice alternatives r => exact Repeat.isSpeakable_iff (anySpeakable_iff alternatives)
  | dictation => exact iff_of_true rfl voices_open
  | wildcard => exact iff_of_true rfl voices_open

theorem anySpeakable_iff (alternatives : List (List Node)) :
    anySpeakable alternatives = true ↔ Voices (languageAny alternatives) := by
  match alternatives with
  | [] => exact iff_of_false Bool.noConfusion fun h => not_passes_zero h.passes
  | sequence :: rest =>
    rw [anySpeakable, languageAny, Bool.or_eq_true, voices_add, areSpeakable_iff sequence,
      anySpeakable_iff rest]

/-- **The decision is exact**: a sequence can be spoken exactly if one or more words that can be said are in
    its language. -/
theorem areSpeakable_iff (nodes : List Node) :
    areSpeakable nodes = true ↔ Voices (languageAll nodes) := by
  match nodes with
  | [] => exact iff_of_false Bool.noConfusion not_voices_one
  | node :: rest =>
    rw [areSpeakable, languageAll, Bool.or_eq_true, Bool.and_eq_true, Bool.and_eq_true, voices_mul,
      isSpeakable_iff node, arePassable_iff rest, isPassable_iff node, areSpeakable_iff rest]

end

end Node

/-! ## Recognizing -/

/-- **Phrases**: a sequence accepts the words of some phrase exactly if it can be spoken. -/
theorem exists_accepted_iff (sequence : Sequence) :
    (∃ phrase, Text.words phrase ≠ [] ∧ accepts sequence (Text.words phrase) = true) ↔
      Node.areSpeakable sequence = true := by
  rw [Node.areSpeakable_iff]
  constructor
  · rintro ⟨phrase, hne, haccepts⟩
    refine ⟨_, (accepts_iff_mem_language _ _).mp haccepts, mt List.map_eq_nil_iff.mp hne, ?_⟩
    intro lower hlower
    obtain ⟨word, hword, rfl⟩ := List.mem_map.mp hlower
    exact isHeard_lowercase.mpr (Text.isSayable_of_mem_words hword)
  · rintro ⟨spoken, hmem, hne, hheard⟩
    have hlower : spoken.map Text.lowercase = spoken :=
      (List.map_congr_left fun word hword => (hheard word hword).2).trans (List.map_id' spoken)
    refine ⟨Text.phraseOf spoken, ?_⟩
    rw [Text.words_phraseOf fun word hword => (hheard word hword).1]
    refine ⟨hne, (accepts_iff_mem_language _ _).mpr ?_⟩
    rwa [hlower]

/-- A recognizer that has one grammar, switched on. -/
def listening (id : Nat) (sequence : Sequence) : Recognizer :=
  (Recognizer.empty.load id sequence).setEnabled id true

theorem recognize_listening (id : Nat) (sequence : Sequence) (phrase : String) :
    (listening id sequence).recognize phrase = some id ↔
      Text.words phrase ≠ [] ∧ accepts sequence (Text.words phrase) = true := by
  have hgrammars : (listening id sequence).grammars = [⟨id, sequence, true⟩] := by
    simp [listening, Recognizer.setEnabled, Recognizer.load, Recognizer.empty, Recognizer.setFirst]
  rw [Recognizer.recognize, hgrammars]
  cases Text.words phrase with
  | nil => simp
  | cons word rest => simp

/-! ## Plain source -/

/-- Source whose blanks are all separators. -/
def HasPlainBlanks (source : String) : Prop :=
  ∀ c ∈ source.toList, Text.isBlank c = true → isSeparator c = true

/-- Nodes each of which can be spoken. -/
def AllSpeakable (nodes : Sequence) : Prop := ∀ node ∈ nodes, node.isSpeakable = true

/-- Alternatives that have nodes, each of which can be spoken. -/
def AnySpeakable (alternatives : List Sequence) : Prop :=
  ∀ sequence ∈ alternatives, sequence ≠ [] ∧ AllSpeakable sequence

theorem AllSpeakable.arePassable {nodes : Sequence} (h : AllSpeakable nodes) :
    Node.arePassable nodes = true := by
  induction nodes with
  | nil => rfl
  | cons node rest ih =>
    obtain ⟨hnode, hrest⟩ := List.forall_mem_cons.mp h
    have hpasses := (node.isPassable_iff).mpr (node.isSpeakable_iff.mp hnode).passes
    rw [Node.arePassable, hpasses, ih hrest, Bool.and_self]

theorem AllSpeakable.areSpeakable {nodes : Sequence} (h : AllSpeakable nodes) (hne : nodes ≠ []) :
    Node.areSpeakable nodes = true := by
  cases nodes with
  | nil => exact absurd rfl hne
  | cons node rest =>
    obtain ⟨hnode, hrest⟩ := List.forall_mem_cons.mp h
    have hrest : AllSpeakable rest := hrest
    rw [Node.areSpeakable, hnode, hrest.arePassable, Bool.and_self, Bool.true_or]

theorem isSpeakable_choice {alternatives : List Sequence} {r : Repeat} (h : AnySpeakable alternatives)
    (hne : alternatives ≠ []) (hr : r.isValid = true) :
    (Node.choice alternatives r).isSpeakable = true := by
  cases alternatives with
  | nil => exact absurd rfl hne
  | cons sequence rest =>
    obtain ⟨hnodes, hall⟩ := h sequence List.mem_cons_self
    rw [Node.isSpeakable, Repeat.isSpeakable, hr, Node.anySpeakable, hall.areSpeakable hnodes,
      Bool.true_or, Bool.and_self]

theorem isSpeakable_literal {text : String} {r : Repeat} (h : Text.isSayable text = true)
    (hr : r.isValid = true) : (Node.literal text r).isSpeakable = true := by
  rw [Node.isSpeakable, Repeat.isSpeakable, hr, h, Bool.and_self]

theorem Mark.isValid_repeats (m : Mark) (max : Nat) (hmax : 1 ≤ max) :
    (m.repeats max).isValid = true := by
  cases m <;> simp [Mark.repeats, Repeat.isValid, hmax]

variable {templates : Templates} {template nodes sequence : Sequence} {r : Repeat}

theorem AllSpeakable.append {nodes' : Sequence} (h : AllSpeakable nodes) (h' : AllSpeakable nodes') :
    AllSpeakable (nodes ++ nodes') := List.forall_mem_append.mpr ⟨h, h'⟩

theorem AllSpeakable.concat {node : Node} (h : AllSpeakable nodes) (hnode : node.isSpeakable = true) :
    AllSpeakable (nodes ++ [node]) := h.append (List.forall_mem_singleton.mpr hnode)

theorem AnySpeakable.concat {alternatives : List Sequence} (h : AnySpeakable alternatives)
    (hne : nodes ≠ []) (hnodes : AllSpeakable nodes) : AnySpeakable (alternatives ++ [nodes]) :=
  List.forall_mem_append.mpr ⟨h, List.forall_mem_singleton.mpr ⟨hne, hnodes⟩⟩

/-- A template that is repeated can still be spoken. -/
theorem allSpeakable_repeatTemplate (h : AllSpeakable template) (hne : template ≠ [])
    (hr : r.isValid = true) : AllSpeakable (repeatTemplate template r) := by
  unfold repeatTemplate
  split
  · rename_i text r'
    have hliteral : (Node.literal text r').isSpeakable = true := h _ List.mem_cons_self
    rw [Node.isSpeakable, Repeat.isSpeakable, Bool.and_eq_true] at hliteral
    exact List.forall_mem_singleton.mpr (isSpeakable_literal hliteral.2 hr)
  · rename_i alternatives r'
    have hchoice : (Node.choice alternatives r').isSpeakable = true := h _ List.mem_cons_self
    rw [Node.isSpeakable, Repeat.isSpeakable, Bool.and_eq_true] at hchoice
    refine List.forall_mem_singleton.mpr ?_
    rw [Node.isSpeakable, Repeat.isSpeakable, hr, hchoice.2, Bool.and_self]
  · refine List.forall_mem_singleton.mpr (isSpeakable_choice ?_ (List.cons_ne_nil _ _) hr)
    exact List.forall_mem_singleton.mpr ⟨hne, h⟩

/-- Templates that have nodes, each of which can be spoken. -/
def Templates.AreSpeakable (templates : Templates) : Prop :=
  ∀ name template, templates.lookup name = some template → template ≠ [] ∧ AllSpeakable template

/-- An open bracket before and in which all nodes can be spoken. -/
structure Frame.IsSpeakable (frame : Frame) : Prop where
  before : AllSpeakable frame.before
  alternatives : AnySpeakable frame.alternatives

/-- What stood between brackets can be spoken when they are closed. -/
theorem Frame.IsSpeakable.isSpeakable_closed {frame : Frame} (h : frame.IsSpeakable)
    (hne : ¬ nodes.isEmpty = true) (hnodes : AllSpeakable nodes) (hr : r.isValid = true) :
    (Node.choice (frame.alternatives ++ [nodes]) r).isSpeakable = true :=
  isSpeakable_choice (h.alternatives.concat (mt List.isEmpty_iff.mpr hne) hnodes)
    (List.append_ne_nil_of_right_ne_nil _ (List.cons_ne_nil _ _)) hr

/-- The words among tokens can be said. -/
def WordsSayable (tokens : List Token) : Prop :=
  ∀ text, .word text ∈ tokens → Text.isSayable text = true

theorem WordsSayable.tail {t : Token} {tokens : List Token} (h : WordsSayable (t :: tokens)) :
    WordsSayable tokens := fun text htext => h text (List.mem_cons_of_mem t htext)

/-- **What is read** from words that can be said can be spoken, node by node. -/
theorem speakable_of_parseFrom (ht : templates.AreSpeakable) {frames : List Frame} {i : Nat}
    {tokens : List Token} (hframes : ∀ frame ∈ frames, frame.IsSpeakable) (hnodes : AllSpeakable nodes)
    (hwords : WordsSayable tokens) (h : parseFrom templates frames nodes i tokens = .ok sequence) :
    sequence ≠ [] ∧ AllSpeakable sequence := by
  fun_induction parseFrom templates frames nodes i tokens with
  | case2 nodes i hne =>
    obtain rfl := Except.ok.inj h
    exact ⟨mt List.isEmpty_iff.mpr hne, hnodes⟩
  | case4 frames nodes i text m rest ih =>
    have hliteral : (Node.literal text (m.repeats Repeat.unbounded)).isSpeakable = true :=
      isSpeakable_literal (hwords text List.mem_cons_self) (m.isValid_repeats _ (by decide))
    exact ih hframes (hnodes.concat hliteral) hwords.tail.tail h
  | case5 frames nodes i text rest _ ih =>
    have hliteral : (Node.literal text .once).isSpeakable = true :=
      isSpeakable_literal (hwords text List.mem_cons_self) rfl
    exact ih hframes (hnodes.concat hliteral) hwords.tail h
  | case9 frames nodes i b rest _ _ ih =>
    -- the bracket starts without alternatives, and its first one without nodes
    have hframe : Frame.IsSpeakable ⟨b, nodes, []⟩ :=
      ⟨hnodes, fun _ hs => absurd hs List.not_mem_nil⟩
    exact ih (List.forall_mem_cons.mpr ⟨hframe, hframes⟩) (fun _ hn => absurd hn List.not_mem_nil)
      hwords.tail h
  | case13 nodes i hne frame outer rest _ ih =>
    obtain ⟨hframe, houter⟩ := List.forall_mem_cons.mp hframes
    have hframe' : Frame.IsSpeakable ⟨frame.bracket, frame.before, frame.alternatives ++ [nodes]⟩ :=
      ⟨hframe.before, hframe.alternatives.concat (mt List.isEmpty_iff.mpr hne) hnodes⟩
    exact ih (List.forall_mem_cons.mpr ⟨hframe', houter⟩) (fun _ hn => absurd hn List.not_mem_nil)
      hwords.tail h
  | case18 nodes i hne frame outer rest _ _ ih =>
    obtain ⟨hframe, houter⟩ := List.forall_mem_cons.mp hframes
    exact ih houter (hframe.before.concat (hframe.isSpeakable_closed hne hnodes rfl)) hwords.tail h
  | case19 nodes i hne frame outer m rest _ ih =>
    obtain ⟨hframe, houter⟩ := List.forall_mem_cons.mp hframes
    have hvalid := m.isValid_repeats Repeat.groupMax (by decide)
    exact ih houter (hframe.before.concat (hframe.isSpeakable_closed hne hnodes hvalid))
      hwords.tail.tail h
  | case20 nodes i hne frame outer rest _ _ ih =>
    obtain ⟨hframe, houter⟩ := List.forall_mem_cons.mp hframes
    exact ih houter (hframe.before.concat (hframe.isSpeakable_closed hne hnodes rfl)) hwords.tail h
  | case22 frames nodes i name template hlookup m rest _ ih =>
    obtain ⟨hne, htemplate⟩ := ht name template hlookup
    have hrepeated := allSpeakable_repeatTemplate htemplate hne
      (m.isValid_repeats Repeat.unbounded (by decide))
    exact ih hframes (hnodes.append hrepeated) hwords.tail.tail.tail h
  | case24 frames nodes i name template hlookup rest _ ih =>
    obtain ⟨-, htemplate⟩ := ht name template hlookup
    exact ih hframes (hnodes.append htemplate) hwords.tail.tail h
  | _ => cases h

/-- A word of plain source can be said: a blank in it would separate it. -/
theorem wordsSayable_tokenize {source : String} {tokens : List Token} (hplain : HasPlainBlanks source)
    (h : tokenize source = .ok tokens) : WordsSayable tokens := by
  intro text htext
  obtain ⟨⟨hne, hchars⟩, hsource⟩ := isWord_and_mem_of_mem_tokens h htext
  refine Text.isSayable_iff.mpr ⟨hne, fun c hc => ?_⟩
  rw [Bool.eq_false_iff]
  intro hblank
  have hseparator := hplain c (hsource c hc) hblank
  rw [(isPlain_iff.mp (hchars c hc)).1] at hseparator
  cases hseparator

/-- Plain source can be spoken, node by node. -/
theorem speakable_of_parse (ht : templates.AreSpeakable) {source : String}
    (hplain : HasPlainBlanks source) (h : parse templates source = .ok sequence) :
    sequence ≠ [] ∧ AllSpeakable sequence := by
  obtain ⟨tokens, htokens, hparse⟩ := parse_eq_ok_iff_parseTokens.mp h
  exact speakable_of_parseFrom ht (fun _ hf => absurd hf List.not_mem_nil)
    (fun _ hn => absurd hn List.not_mem_nil) (wordsSayable_tokenize hplain htokens) hparse

namespace Templates

theorem areSpeakable_builtin : builtin.AreSpeakable := by
  intro name template hlookup
  simp only [lookup, builtin, List.lookup_cons, List.lookup_nil] at hlookup
  split at hlookup
  · obtain rfl := Option.some.inj hlookup
    exact ⟨List.cons_ne_nil _ _, List.forall_mem_singleton.mpr rfl⟩
  · split at hlookup
    · obtain rfl := Option.some.inj hlookup
      exact ⟨List.cons_ne_nil _ _, List.forall_mem_singleton.mpr rfl⟩
    · cases hlookup

theorem AreSpeakable.afterSource (h : templates.AreSpeakable) (name : String) {source : String}
    (hplain : HasPlainBlanks source) : (templates.afterSource name source).AreSpeakable := by
  unfold Templates.afterSource
  split
  · rename_i defined notices hdefine
    obtain ⟨template, hparse, -, rfl⟩ := eq_put_of_defineSource hdefine
    intro other found hlookup
    rw [lookup_put] at hlookup
    split at hlookup
    · obtain rfl := Option.some.inj hlookup
      exact speakable_of_parse h hplain hparse
    · exact h other found hlookup
  · exact h

theorem areSpeakable_ofSources {sources : List (String × String)}
    (hplain : ∀ entry ∈ sources, HasPlainBlanks entry.2) : (ofSources sources).AreSpeakable := by
  rw [ofSources]
  have hstart := areSpeakable_builtin
  generalize builtin = start at hstart
  induction sources generalizing start with
  | nil => exact hstart
  | cons entry rest ih =>
    obtain ⟨hentry, hrest⟩ := List.forall_mem_cons.mp hplain
    exact ih hrest _ (hstart.afterSource entry.1 hentry)

end Templates

/-- **What can be spoken**: of the grammars that are accepted in a context defined from sources,

    * those are recognized in some phrase, with nothing else to listen to, that can be passed by saying
      something and without saying a literal with a blank in it;
    * and this is so of all grammars of plain source, if the sources of the context are plain as well. -/
theorem exists_recognized_iff {sources : List (String × String)} {source : String}
    (h : parse (.ofSources sources) source = .ok sequence) (id : Nat) :
    ((∃ phrase, (listening id sequence).recognize phrase = some id) ↔
      Node.areSpeakable sequence = true) ∧
    ((∀ entry ∈ sources, HasPlainBlanks entry.2) → HasPlainBlanks source →
      ∃ phrase, (listening id sequence).recognize phrase = some id) := by
  have hiff : (∃ phrase, (listening id sequence).recognize phrase = some id) ↔
      Node.areSpeakable sequence = true := by
    simp only [recognize_listening]
    exact exists_accepted_iff sequence
  refine ⟨hiff, fun hsources hplain => hiff.mpr ?_⟩
  obtain ⟨hne, hall⟩ := speakable_of_parse (Templates.areSpeakable_ofSources hsources) hplain h
  exact hall.areSpeakable hne

/-- A literal that cannot be said may be in a grammar that can be spoken. -/
theorem exists_recognized_iff_optional :
    parse (.ofSources []) "[no\u00a0way] (go | $dictate)+" =
        .ok [.optional [[.literal "no\u00a0way" .once]],
          .choice [[.literal "go" .once], [.dictation]] ⟨1, 1000⟩] ∧
      ∃ phrase, (listening 7 [.optional [[.literal "no\u00a0way" .once]],
        .choice [[.literal "go" .once], [.dictation]] ⟨1, 1000⟩]).recognize phrase = some 7 := by
  have hparse : parse (.ofSources []) "[no\u00a0way] (go | $dictate)+" =
      .ok [.optional [[.literal "no\u00a0way" .once]],
        .choice [[.literal "go" .once], [.dictation]] ⟨1, 1000⟩] :=
    parse_eq_ok_iff_parseTokens.mpr ⟨[.opening .optional, .word "no\u00a0way", .closing .optional,
      .opening .group, .word "go", .pipe, .dollar, .word "dictate", .closing .group, .mark .plus],
      rfl, rfl⟩
  exact ⟨hparse, (exists_recognized_iff hparse 7).1.mpr (by decide +kernel)⟩

/-- A grammar that no phrase is recognized by: its only word has a no-break space in it, which separates
    words of a phrase and not words of source. -/
theorem not_exists_recognized_of_noBreakSpace :
    ¬ ∀ sources source sequence id, parse (.ofSources sources) source = .ok sequence →
      ∃ phrase, (listening id sequence).recognize phrase = some id := by
  intro hclaim
  have hparse : parse (.ofSources []) "a\u00a0b" = .ok [.literal "a\u00a0b" .once] :=
    parse_eq_ok_iff_parseTokens.mpr ⟨[.word "a\u00a0b"], rfl, rfl⟩
  obtain ⟨phrase, hphrase⟩ := hclaim [] _ _ 1 hparse
  have hspeakable : Node.areSpeakable [.literal "a\u00a0b" .once] = true :=
    (exists_accepted_iff _).mp ⟨phrase, (recognize_listening _ _ _).mp hphrase⟩
  exact absurd hspeakable (by decide +kernel)

end SpokenCommand.Grammar
