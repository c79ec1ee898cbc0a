import Mathlib.Algebra.Order.Monoid.Unbundled.Pow
import Mathlib.Order.CompletePartialOrder
import SpokenCommand.Proofs.Grammar.Contexts
import SpokenCommand.Proofs.Grammar.Language
import SpokenCommand.Proofs.Grammar.RoundTrip
/-!
What is lost when a grammar is written and read again.

The notation has three ranges for a choice: brackets, brackets with a mark, and square brackets.  A grammar may
have others, from `*` on a group and from the marks of references, and of each of these the nearest of the
three is left.  No word list is gained by it.

1. **The ranges (`Repeat.IsMarked.le_normal`).**  A range that source can give to a choice contains the range
   that is left of it.  This is not so for ranges of any kind: one or two occurrences would be written as any
   number of them.  So the ranges that come from source are the invariant, through templates as well
   (`everyChoice_ofSources`).

2. **The crux** is that languages are monotone (`Repeat.language_mono`), so that less inside a choice and a
   smaller range around it make less of the whole, at every depth (`Node.language_normal_le`).

3. **What is not lost**: where all choices have one of the three ranges, the grammar is its own normal form
   (`normalAll_eq_self`).
-/

namespace SpokenCommand.Grammar

variable {templates : Templates}

/-! ## The ranges of choices -/

section Ranges

variable (P : Repeat → Prop)

mutual

/-- Every choice of a node, at any depth, has a range with a property. -/
def Node.EveryChoice : Node → Prop
  | .literal _ _ => True
  | .choice alternatives r => P r ∧ EveryChoiceAny alternatives
  | .dictation => True
  | .wildcard => True

def EveryChoiceAny : List (List Node) → Prop
  | [] => True
  | sequence :: rest => EveryChoiceAll sequence ∧ EveryChoiceAny rest

def EveryChoiceAll : List Node → Prop
  | [] => True
  | node :: rest => node.EveryChoice ∧ EveryChoiceAll rest

end

end Ranges

theorem everyChoiceAll_append {P : Repeat → Prop} {nodes nodes' : List Node} (h : EveryChoiceAll P nodes)
    (h' : EveryChoiceAll P nodes') : EveryChoiceAll P (nodes ++ nodes') := by
  induction nodes with
  | nil => exact h'
  | cons node rest ih => exact ⟨h.1, ih h.2⟩

/-- A range that source gives to a choice, by brackets or by the mark of a reference. -/
def Repeat.IsMarked (r : Repeat) : Prop :=
  (∃ e : Enclosure, r = e.range) ∨ ∃ mark : Mark, r = Mark.range 4294967295 (some mark)

/-- One of the ranges that the notation has for a choice: exactly once, once or not at all, one or more
    times. -/
def Repeat.IsBracketed (r : Repeat) : Prop := r = ⟨1, 1⟩ ∨ r = ⟨0, 1⟩ ∨ r = ⟨1, 1000⟩

/-- A range that source gives to a choice contains what is left of it. -/
theorem Repeat.IsMarked.le_normal {r : Repeat} (h : r.IsMarked) :
    r.min ≤ r.normal.min ∧ r.normal.max ≤ r.max := by
  match h with
  | .inl ⟨.round none, heq⟩ => subst heq; decide
  | .inl ⟨.round (some .plus), heq⟩ => subst heq; decide
  | .inl ⟨.round (some .star), heq⟩ => subst heq; decide
  | .inl ⟨.square, heq⟩ => subst heq; decide
  | .inr ⟨.plus, heq⟩ => subst heq; decide
  | .inr ⟨.star, heq⟩ => subst heq; decide

theorem Repeat.IsBracketed.normal_eq {r : Repeat} (h : r.IsBracketed) : r.normal = r := by
  rcases h with rfl | rfl | rfl <;> rfl

/-- A reference with a mark gives a range to a template, or to a choice around it. -/
theorem everyChoiceAll_repeatTemplate {P : Repeat → Prop} {template : Sequence} {r : Repeat} (hr : P r)
    (h : EveryChoiceAll P template) : EveryChoiceAll P (repeatTemplate template r) := by
  unfold repeatTemplate
  split
  · exact ⟨trivial, trivial⟩
  · exact ⟨⟨hr, h.1.2⟩, trivial⟩
  · exact ⟨⟨hr, h, trivial⟩, trivial⟩

/-- The choices of all templates have ranges that source gives them. -/
def Templates.AreMarked (templates : Templates) : Prop :=
  ∀ name template, templates.lookup name = some template → EveryChoiceAll Repeat.IsMarked template

mutual

/-- The choices that an element stands for have ranges that source gives them, if those of templates do. -/
theorem Element.everyChoice (ht : templates.AreMarked) (e : Element) {nodes : Sequence}
    (hnodes : e.nodes? templates = some nodes) : EveryChoiceAll Repeat.IsMarked nodes := by
  match e with
  | .word text mark =>
    obtain rfl := Option.some.inj hnodes
    exact ⟨trivial, trivial⟩
  | .enclosed e first others =>
    obtain ⟨ms, os, hms, hos, rfl⟩ := nodes?_enclosed_iff.mp hnodes
    exact ⟨⟨Or.inl ⟨e, rfl⟩, everyChoice_all ht first hms, everyChoice_others ht others hos⟩, trivial⟩
  | .reference name none => exact ht name nodes hnodes
  | .reference name (some mark) =>
    rw [Element.nodes?, Option.bind_eq_some_iff] at hnodes
    obtain ⟨template, hlookup, hranged⟩ := hnodes
    rw [ranged?_eq] at hranged
    split at hranged
    · obtain rfl := Option.some.inj hranged
      exact everyChoiceAll_repeatTemplate (Or.inr ⟨mark, rfl⟩) (ht name template hlookup)
    · cases hranged

theorem everyChoice_all (ht : templates.AreMarked) (elements : List Element) {nodes : Sequence}
    (hnodes : nodesAll? templates elements = some nodes) : EveryChoiceAll Repeat.IsMarked nodes := by
  match elements with
  | [] =>
    obtain rfl := Option.some.inj hnodes
    exact trivial
  | e :: rest =>
    obtain ⟨ms, ls, hms, hls, rfl⟩ := nodesAll?_cons_iff.mp hnodes
    exact everyChoiceAll_append (e.everyChoice ht hms) (everyChoice_all ht rest hls)

theorem everyChoice_others (ht : templates.AreMarked) (others : List (List Element))
    {sequences : List Sequence} (hsequences : nodesOthers? templates others = some sequences) :
    EveryChoiceAny Repeat.IsMarked sequences := by
  match others with
  | [] =>
    obtain rfl := Option.some.inj hsequences
    exact trivial
  | elements :: rest =>
    obtain ⟨ms, ls, hms, hls, rfl⟩ := nodesOthers?_cons_iff.mp hsequences
    exact ⟨everyChoice_all ht elements hms, everyChoice_others ht rest hls⟩

end

theorem everyChoice_of_parse (ht : templates.AreMarked) {source : String} {g : Sequence}
    (h : parse templates source = .ok g) : EveryChoiceAll Repeat.IsMarked g := by
  obtain ⟨tokens, -, ⟨d⟩⟩ := parse_eq_ok_iff.mp h
  exact everyChoice_all ht d.elements d.nodes_eq

/-- **In every context** that is defined from sources, the choices of templates have ranges that source gives
    them. -/
theorem everyChoice_ofSources (sources : List (String × String)) :
    (Templates.ofSources sources).AreMarked := by
  intro name template hlookup
  exact Templates.forall_entries_ofSources (P := EveryChoiceAll Repeat.IsMarked) ⟨trivial, trivial⟩
    ⟨trivial, trivial⟩ (fun _ _ _ ht hparse => everyChoice_of_parse ht hparse) sources _
    (Templates.mem_of_lookup hlookup)

/-! ## Less inside is less outside -/

/-- A repeat is monotone in its range and in what is repeated. -/
theorem Repeat.language_mono {r r' : Repeat} {L L' : Language String} (hmin : r'.min ≤ r.min)
    (hmax : r.max ≤ r'.max) (hL : L ≤ L') : r.language L ≤ r'.language L' := by
  rintro spoken ⟨k, hk, hk', hmem⟩
  exact ⟨k, Nat.le_trans hmin hk, Nat.le_trans hk' hmax, pow_le_pow_left' hL k hmem⟩

mutual

/-- **The normal form of a node** stands for no more than the node. -/
theorem Node.language_normal_le (node : Node) (h : node.EveryChoice Repeat.IsMarked) :
    node.normal.language ≤ node.language := by
  match node with
  | .literal text r => exact le_refl _
  | .choice alternatives r =>
    obtain ⟨hr, halternatives⟩ := h
    obtain ⟨hmin, hmax⟩ := hr.le_normal
    rw [Node.normal, Node.language, Node.language]
    exact Repeat.language_mono hmin hmax (languageAny_normalAny_le alternatives halternatives)
  | .dictation => exact le_refl _
  | .wildcard => exact le_refl _

theorem languageAny_normalAny_le (alternatives : List (List Node))
    (h : EveryChoiceAny Repeat.IsMarked alternatives) :
    Node.languageAny (normalAny alternatives) ≤ Node.languageAny alternatives := by
  match alternatives with
  | [] => exact le_refl _
  | sequence :: rest =>
    exact add_le_add (languageAll_normalAll_le sequence h.1) (languageAny_normalAny_le rest h.2)

theorem languageAll_normalAll_le (nodes : List Node) (h : EveryChoiceAll Repeat.IsMarked nodes) :
    Node.languageAll (normalAll nodes) ≤ Node.languageAll nodes := by
  match nodes with
  | [] => exact le_refl _
  | node :: rest =>
    exact mul_le_mul' (node.language_normal_le h.1) (languageAll_normalAll_le rest h.2)

end

/-! ## What is not lost -/

mutual

/-- A node whose choices have the ranges of the notation is its own normal form. -/
theorem Node.normal_eq_self (node : Node) (h : node.EveryChoice Repeat.IsBracketed) :
    node.normal = node := by
  match node with
  | .literal text r => rfl
  | .choice alternatives r => rw [Node.normal, normalAny_eq_self alternatives h.2, h.1.normal_eq]
  | .dictation => rfl
  | .wildcard => rfl

theorem normalAny_eq_self (alternatives : List (List Node))
    (h : EveryChoiceAny Repeat.IsBracketed alternatives) : normalAny alternatives = alternatives := by
  match alternatives with
  | [] => rfl
  | sequence :: rest => rw [normalAny, normalAll_eq_self sequence h.1, normalAny_eq_self rest h.2]

theorem normalAll_eq_self (nodes : List Node) (h : EveryChoiceAll Repeat.IsBracketed nodes) :
    normalAll nodes = nodes := by
  match nodes with
  | [] => rfl
  | node :: rest => rw [normalAll, node.normal_eq_self h.1, normalAll_eq_self rest h.2]

end

/-- **A rendering accepts no more than its grammar.**  A grammar that was read, in any context that was defined
    from sources, can be written and read again, there and in any other such context.  What is read then
    accepts no words that the grammar does not accept, and it accepts the same words if every choice of the
    grammar, at any depth, has a range of the notation. -/
theorem accepts_of_rendering {sources : List (String × String)} {source : String} {g : Sequence}
    (h : parse (.ofSources sources) source = .ok g) (sources' : List (String × String)) :
    ∃ g', parse (.ofSources sources') (render g) = .ok g' ∧
      (∀ words, accepts g' words = true → accepts g words = true) ∧
      (EveryChoiceAll Repeat.IsBracketed g → ∀ words, accepts g' words = accepts g words) := by
  obtain ⟨hne, hwritable⟩ := writable_of_parse (Templates.areWritable_ofSources sources) h
  have hmarked : EveryChoiceAll Repeat.IsMarked g := everyChoice_of_parse (everyChoice_ofSources sources) h
  refine ⟨normalAll g,
    parse_render_of_writable (Templates.areWritable_ofSources sources') hne hwritable, ?_, ?_⟩
  · intro words haccepts
    rw [accepts_iff_mem_language] at haccepts ⊢
    exact languageAll_normalAll_le g hmarked haccepts
  · intro hbracketed words
    rw [normalAll_eq_self g hbracketed]

/-- Any number of steps before each turn, through a reference to a starred group. -/
def danceGrammar : Sequence :=
  [.choice [[.choice [[.literal "left" ⟨1, 1⟩], [.literal "right" ⟨1, 1⟩]] ⟨0, 1000⟩,
    .literal "turn" ⟨1, 1⟩]] ⟨1, 1000⟩]

/-- A step or a turn, and as many more as there are, with the ranges of the notation only. -/
def walkGrammar : Sequence :=
  [.choice [[.choice [[.literal "left" ⟨1, 1⟩], [.literal "right" ⟨1, 1⟩]] ⟨0, 1⟩,
    .literal "turn" ⟨1, 1⟩]] ⟨1, 1000⟩]

/-- The dance is written as `([left | right] turn)+`, which is less than the dance and all of the walk. -/
theorem accepts_of_rendering_dance :
    parse (.ofSources [("Steps", "(left | right)*")]) "($steps turn)+" = .ok danceGrammar ∧
      (∃ g', parse (.ofSources [("Steps", "(left | right)*")]) (render danceGrammar) = .ok g' ∧
        ∀ words, accepts g' words = true → accepts danceGrammar words = true) ∧
      parse (.ofSources []) "([left | right] turn)+" = .ok walkGrammar ∧
      EveryChoiceAll Repeat.IsBracketed walkGrammar ∧
      ∃ g', parse (.ofSources []) (render walkGrammar) = .ok g' ∧
        ∀ words, accepts g' words = accepts walkGrammar words := by
  have htemplate : parse .builtin "(left | right)*" =
      .ok [.choice [[.literal "left" ⟨1, 1⟩], [.literal "right" ⟨1, 1⟩]] ⟨0, 1000⟩] :=
    parse_eq_ok_iff_parseTokens.mpr ⟨[.opening .group, .word "left", .pipe, .word "right",
      .closing .group, .mark .star], rfl, rfl⟩
  have hcontext : Templates.builtin.afterSource "Steps" "(left | right)*" = _ :=
    Templates.afterSource_of_parse rfl rfl htemplate
  have hdance : parse (.ofSources [("Steps", "(left | right)*")]) "($steps turn)+" =
      .ok danceGrammar := by
    rw [Templates.ofSources, List.foldl_cons, List.foldl_nil, hcontext, parse_eq_ok_iff_parseTokens]
    exact ⟨[.opening .group, .dollar, .word "steps", .word "turn", .closing .group, .mark .plus], rfl, rfl⟩
  have hwalk : parse (.ofSources []) "([left | right] turn)+" = .ok walkGrammar :=
    parse_eq_ok_iff_parseTokens.mpr ⟨[.opening .group, .opening .optional, .word "left", .pipe,
      .word "right", .closing .optional, .word "turn", .closing .group, .mark .plus], rfl, rfl⟩
  have hbracketed : EveryChoiceAll Repeat.IsBracketed walkGrammar :=
    ⟨⟨Or.inr (Or.inr rfl), ⟨⟨Or.inr (Or.inl rfl), by simp [EveryChoiceAny, EveryChoiceAll,
      Node.EveryChoice]⟩, trivial, trivial⟩, trivial⟩, trivial⟩
  obtain ⟨g₁, hparse₁, hle, -⟩ := accepts_of_rendering hdance [("Steps", "(left | right)*")]
  obtain ⟨g₂, hparse₂, -, heq⟩ := accepts_of_rendering hwalk []
  exact ⟨hdance, ⟨g₁, hparse₁, hle⟩, hwalk, hbracketed, g₂, hparse₂, heq hbracketed⟩

-- The range of the steps is not one of the notation, and two steps before one turn are lost.
example : accepts danceGrammar ["left", "right", "turn", "turn"] = true ∧
    accepts (normalAll danceGrammar) ["left", "right", "turn", "turn"] = false := by decide +kernel

end SpokenCommand.Grammar
