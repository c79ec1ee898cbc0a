import SpokenCommand.Proofs.Grammar.Language
import SpokenCommand.Proofs.Grammar.Writable
/-!
What a reference stands for, with a mark and without.

A reference splices its template into the sequence around it.  With a mark the template is repeated, and
the parser has three ways to write that down: in the range of its only literal, in the range of its only
choice, or in a group around it.

1. **The crux (`languageAll_repeatTemplate`)** is that the three mean the same, the repeat of the language of
   the whole template.  The first two overwrite a range, and this is right because the range that is lost is
   always once: no other template takes a mark.

2. **Splitting.**  Words are accepted by nodes one after another if they split into parts that are
   (`accepts_append`), and by a repeat if they split into as many parts as its range admits
   (`accepts_group`).  The letter case of the words plays no part in where they are split.

3. **In its place** (`accepts_reference`), between any elements before and after it, a reference accepts what
   its template does, and a marked one what any number of parts does.
-/

namespace SpokenCommand.Grammar

/-! ## Splitting -/

section Splitting

variable {α β : Type} {f : α → β} {words : List α} {L M : Language β}

/-- A concatenation is split where the words are, before they are mapped. -/
theorem map_mem_mul :
    words.map f ∈ L * M ↔ ∃ u v, words = u ++ v ∧ u.map f ∈ L ∧ v.map f ∈ M := by
  rw [Language.mem_mul]
  constructor
  · rintro ⟨first, hL, second, hM, heq⟩
    obtain ⟨u, v, hwords, rfl, rfl⟩ := List.map_eq_append_iff.mp heq.symm
    exact ⟨u, v, hwords, hL, hM⟩
  · rintro ⟨u, v, rfl, hL, hM⟩
    exact ⟨u.map f, hL, v.map f, hM, List.map_append.symm⟩

/-- So is a power. -/
theorem map_mem_pow {k : Nat} :
    words.map f ∈ L ^ k ↔
      ∃ parts : List (List α), words = parts.flatten ∧ parts.length = k ∧ ∀ p ∈ parts, p.map f ∈ L := by
  induction k generalizing words with
  | zero =>
    rw [pow_zero, Language.mem_one, List.map_eq_nil_iff]
    constructor
    · rintro rfl
      exact ⟨[], rfl, rfl, fun _ hp => absurd hp List.not_mem_nil⟩
    · rintro ⟨parts, rfl, hlength, -⟩
      rw [List.length_eq_zero_iff.mp hlength, List.flatten_nil]
  | succ k ih =>
    rw [pow_succ', map_mem_mul]
    constructor
    · rintro ⟨u, v, rfl, hu, hv⟩
      obtain ⟨parts, rfl, rfl, hparts⟩ := ih.mp hv
      exact ⟨u :: parts, rfl, rfl, List.forall_mem_cons.mpr ⟨hu, hparts⟩⟩
    · rintro ⟨parts, rfl, hlength, hparts⟩
      obtain ⟨u, rest, rfl⟩ := List.exists_cons_of_length_eq_add_one hlength
      obtain ⟨hu, hrest⟩ := List.forall_mem_cons.mp hparts
      exact ⟨u, rest.flatten, rfl, hu, ih.mpr ⟨rest, rfl, Nat.succ.inj hlength, hrest⟩⟩

end Splitting

/-! ## Languages of nodes -/

theorem languageAll_append (nodes nodes' : Sequence) :
    Node.languageAll (nodes ++ nodes') = Node.languageAll nodes * Node.languageAll nodes' := by
  induction nodes with
  | nil => exact (one_mul _).symm
  | cons node rest ih => rw [List.cons_append, Node.languageAll, ih, Node.languageAll, mul_assoc]

theorem languageAll_singleton (node : Node) : Node.languageAll [node] = node.language :=
  mul_one node.language

theorem Repeat.language_once (L : Language String) : Repeat.once.language L = L := by
  ext spoken
  constructor
  · rintro ⟨k, hmin, hmax, hmem⟩
    obtain rfl : k = 1 := Nat.le_antisymm hmax hmin
    rwa [pow_one] at hmem
  · intro hmem
    exact ⟨1, Nat.le_refl 1, Nat.le_refl 1, by rwa [pow_one]⟩

/-- A group with one alternative repeats it. -/
theorem language_group (template : Sequence) (r : Repeat) :
    (Node.choice [template] r).language = r.language (Node.languageAll template) := by
  rw [Node.language, Node.languageAny, Node.languageAny, add_zero]

/-- **The crux**: a template that is repeated means the repeat of the whole template, in whichever way it is
    written down. -/
theorem languageAll_repeatTemplate {template : Sequence} (h : isRepeatable template = true) (r : Repeat) :
    Node.languageAll (repeatTemplate template r) = r.language (Node.languageAll template) := by
  unfold repeatTemplate
  split
  · rename_i text r'
    obtain rfl : r' = .once := of_decide_eq_true h
    rw [languageAll_singleton, languageAll_singleton, Node.language, Node.language, Repeat.language_once]
  · rename_i alternatives r'
    obtain rfl : r' = .once := of_decide_eq_true h
    rw [languageAll_singleton, languageAll_singleton, Node.language, Node.language, Repeat.language_once]
  · rw [languageAll_singleton, language_group]

/-- Nodes one after another accept words that split into what they accept. -/
theorem accepts_append (nodes nodes' : Sequence) (words : List String) :
    accepts (nodes ++ nodes') words = true ↔
      ∃ u v, words = u ++ v ∧ accepts nodes u = true ∧ accepts nodes' v = true := by
  simp only [accepts_iff_mem_language, languageAll_append, map_mem_mul]

/-- A group with one alternative accepts words that split into as many parts as its range admits, each of
    which the alternative accepts. -/
theorem accepts_group (template : Sequence) (r : Repeat) (words : List String) :
    accepts [.choice [template] r] words = true ↔
      ∃ parts : List (List String), words = parts.flatten ∧ r.min ≤ parts.length ∧
        parts.length ≤ r.max ∧ ∀ part ∈ parts, accepts template part = true := by
  simp only [accepts_iff_mem_language, languageAll_singleton, language_group]
  constructor
  · rintro ⟨k, hmin, hmax, hmem⟩
    obtain ⟨parts, hwords, rfl, hparts⟩ := map_mem_pow.mp hmem
    exact ⟨parts, hwords, hmin, hmax, hparts⟩
  · rintro ⟨parts, hwords, hmin, hmax, hparts⟩
    exact ⟨parts.length, hmin, hmax, map_mem_pow.mpr ⟨parts, hwords, rfl, hparts⟩⟩

/-! ## Elements in their place -/

section Places

variable {templates : Templates} {before after : List Element} {first last nodes : Sequence}

/-- Elements stand for nodes: wherever a sequence is written so, it is these nodes, and source that is written
    so is accepted as them. -/
structure StandsFor (templates : Templates) (elements : List Element) (nodes : Sequence) : Prop where
  nodes_eq : nodesAll? templates elements = some nodes
  parse_eq : ∀ source, tokenize source = .ok (tokensAll elements) → parse templates source = .ok nodes

/-- Some elements, all of whose alternatives have an element, and the nodes that they stand for. -/
structure Surrounds (templates : Templates) (elements : List Element) (nodes : Sequence) : Prop where
  nodes_eq : nodesAll? templates elements = some nodes
  allWhole : AllWhole HasElement elements

theorem nodesAll?_append (hbefore : nodesAll? templates before = some first)
    (hafter : nodesAll? templates after = some last) :
    nodesAll? templates (before ++ after) = some (first ++ last) := by
  induction before generalizing first with
  | nil =>
    obtain rfl := Option.some.inj hbefore
    exact hafter
  | cons e rest ih =>
    obtain ⟨ms, ls, hms, hls, rfl⟩ := nodesAll?_cons_iff.mp hbefore
    exact nodesAll?_cons_iff.mpr ⟨ms, ls ++ last, hms, ih hls, (List.append_assoc ms ls last).symm⟩

theorem allWhole_append {isSequence : List Element → Prop} (hbefore : AllWhole isSequence before)
    (hafter : AllWhole isSequence after) : AllWhole isSequence (before ++ after) := by
  induction before with
  | nil => exact hafter
  | cons e rest ih => exact ⟨hbefore.1, ih hbefore.2⟩

/-- One element between others stands for its nodes between theirs. -/
theorem standsFor_between (hfull : ∀ name, templates.lookup name ≠ some [])
    (hbefore : Surrounds templates before first) (hafter : Surrounds templates after last) {e : Element}
    (he : e.nodes? templates = some nodes) (hwhole : e.IsWhole HasElement) :
    StandsFor templates (before ++ e :: after) (first ++ (nodes ++ last)) := by
  have hnodes : nodesAll? templates (before ++ e :: after) = some (first ++ (nodes ++ last)) :=
    nodesAll?_append hbefore.nodes_eq
      (nodesAll?_cons_iff.mpr ⟨nodes, last, he, hafter.nodes_eq, rfl⟩)
  refine ⟨hnodes, fun source htokens => ?_⟩
  -- without empty templates, to have an element is to have a node
  have hsome : HasElement (before ++ e :: after) :=
    List.append_ne_nil_of_right_ne_nil before (List.cons_ne_nil e after)
  have hall : AllWhole HasElement (before ++ e :: after) :=
    allWhole_append hbefore.allWhole ⟨hwhole, hafter.allWhole⟩
  exact parse_of_derivation htokens
    ⟨_, hsome.hasNode hfull, hall.mono fun _ h => h.hasNode hfull, rfl, hnodes⟩

/-- What stands between two sequences can be exchanged for what accepts the same. -/
theorem accepts_between_congr {nodes' : Sequence}
    (h : Node.languageAll nodes = Node.languageAll nodes') (words : List String) :
    accepts (first ++ (nodes ++ last)) words = true ↔
      accepts (first ++ (nodes' ++ last)) words = true := by
  simp only [accepts_iff_mem_language, languageAll_append, h]

/-- A group between two sequences accepts some number of parts between what they accept. -/
theorem accepts_between_group (template : Sequence) (r : Repeat) (words : List String) :
    accepts (first ++ ([.choice [template] r] ++ last)) words = true ↔
      ∃ u parts v, words = u ++ (List.flatten parts ++ v) ∧ accepts first u = true ∧
        r.min ≤ parts.length ∧ parts.length ≤ r.max ∧
          (∀ part ∈ parts, accepts template part = true) ∧ accepts last v = true := by
  rw [accepts_append]
  simp only [accepts_append, accepts_group]
  constructor
  · rintro ⟨u, w, rfl, hu, m, v, rfl, ⟨parts, rfl, hmin, hmax, hparts⟩, hv⟩
    exact ⟨u, parts, v, rfl, hu, hmin, hmax, hparts, hv⟩
  · rintro ⟨u, parts, v, rfl, hu, hmin, hmax, hparts, hv⟩
    exact ⟨u, _, rfl, hu, _, v, rfl, ⟨parts, rfl, hmin, hmax, hparts⟩, hv⟩

end Places

/-! ## References in their place -/

section References

variable {templates : Templates} {name : String} {template : Sequence}

/-- A reference with a mark stands for its template in the range of the mark. -/
theorem nodes?_marked (hname : templates.lookup name = some template)
    (hrepeatable : isRepeatable template = true) (mark : Mark) :
    (Element.reference name (some mark)).nodes? templates =
      some (repeatTemplate template (Mark.range 4294967295 (some mark))) := by
  rw [Element.nodes?, hname, Option.bind_some, ranged?_eq, if_pos hrepeatable]

/-- A reference between round brackets stands for the group with its template as the only alternative. -/
theorem nodes?_bracketed (hname : templates.lookup name = some template) :
    (Element.enclosed (.round none) [.reference name none] []).nodes? templates =
      some [.choice [template] .once] := by
  have hinner : nodesAll? templates [.reference name none] = some template :=
    nodesAll?_cons_iff.mpr ⟨template, [], hname, rfl, List.append_nil template⟩
  exact nodes?_enclosed_iff.mpr ⟨template, [], hinner, rfl, rfl⟩

/-- A template whose leading node occurs exactly once can be repeated. -/
theorem isRepeatable_of_head (h : template.head?.map Node.repeats = some .once) :
    isRepeatable template = true := by
  cases template with
  | nil => rfl
  | cons node rest => exact decide_eq_true (Option.some.inj h)

/-- The fewest parts that a mark asks for. -/
def Mark.least : Mark → Nat
  | plus => 1
  | star => 0

theorem Mark.min_range (max : Nat) (mark : Mark) : (Mark.range max (some mark)).min = mark.least := by
  cases mark <;> rfl

theorem Mark.max_range (max : Nat) (mark : Mark) : (Mark.range max (some mark)).max = max := by
  cases mark <;> rfl

end References

/-- **A reference in its place**, in any context that was defined from sources and between any elements.

    * With a mark, if the leading node of its template occurs exactly once, it is accepted, and it stands for
      one or more parts (with the other mark for any number) that the template accepts, up to the largest
      count.
    * Without a mark it is accepted, and it stands for what the group with the template as its only
      alternative does. -/
theorem accepts_reference {sources : List (String × String)} {name : String} {template : Sequence}
    (hname : (Templates.ofSources sources).lookup name = some template)
    {before after : List Element} {first last : Sequence}
    (hbefore : Surrounds (.ofSources sources) before first)
    (hafter : Surrounds (.ofSources sources) after last) :
    (template.head?.map Node.repeats = some .once → ∀ mark : Mark, ∃ sequence,
      StandsFor (.ofSources sources) (before ++ .reference name (some mark) :: after) sequence ∧
        ∀ words, accepts sequence words = true ↔ ∃ u parts v, words = u ++ (List.flatten parts ++ v) ∧
          accepts first u = true ∧ mark.least ≤ parts.length ∧ parts.length ≤ 4294967295 ∧
            (∀ part ∈ parts, accepts template part = true) ∧ accepts last v = true) ∧
    ∃ sequence,
      StandsFor (.ofSources sources) (before ++ .reference name none :: after) sequence ∧
        StandsFor (.ofSources sources)
          (before ++ .enclosed (.round none) [.reference name none] [] :: after)
          (first ++ ([.choice [template] .once] ++ last)) ∧
        ∀ words, accepts sequence words = true ↔
          accepts (first ++ ([.choice [template] .once] ++ last)) words = true := by
  have hwritable := Templates.areWritable_ofSources sources
  have hfull : ∀ name, (Templates.ofSources sources).lookup name ≠ some [] :=
    fun other hother => (hwritable.writable other [] hother).1 rfl
  refine ⟨fun honce mark => ?_, ?_⟩
  · have hrepeatable := isRepeatable_of_head honce
    have hnodes := nodes?_marked hname hrepeatable mark
    refine ⟨_, standsFor_between hfull hbefore hafter hnodes trivial, fun words => ?_⟩
    have hsame : Node.languageAll (repeatTemplate template (Mark.range 4294967295 (some mark))) =
        Node.languageAll [.choice [template] (Mark.range 4294967295 (some mark))] := by
      rw [languageAll_repeatTemplate hrepeatable, languageAll_singleton, language_group]
    rw [accepts_between_congr hsame, accepts_between_group, Mark.min_range, Mark.max_range]
  · have hplain : (Element.reference name none).nodes? (.ofSources sources) = some template := hname
    have hgroup : (Element.enclosed (.round none) [.reference name none] []).IsWhole HasElement :=
      ⟨List.cons_ne_nil _ _, ⟨trivial, trivial⟩, trivial⟩
    have hsame : Node.languageAll template = Node.languageAll [.choice [template] .once] := by
      rw [languageAll_singleton, language_group, Repeat.language_once]
    exact ⟨_, standsFor_between hfull hbefore hafter hplain trivial,
      standsFor_between hfull hbefore hafter (nodes?_bracketed hname) hgroup,
      accepts_between_congr hsame⟩

/-- A template of three nodes. -/
def journey : Sequence := [.literal "go" .once, .optional [[.literal "very" .once]], .dictation]

/-- Two parts between other words, both read at `$Journey+`. -/
theorem accepts_reference_journey :
    (Templates.ofSources [("journey", "go [very] $dictate")]).lookup "Journey" = some journey ∧
      Surrounds (.ofSources [("journey", "go [very] $dictate")]) [.word "please" none]
        [.literal "please" .once] ∧
      Surrounds (.ofSources [("journey", "go [very] $dictate")]) [.word "now" (some .star)]
        [.literal "now" ⟨0, 4294967295⟩] ∧
      journey.head?.map Node.repeats = some .once ∧
      ∃ sequence,
        parse (.ofSources [("journey", "go [very] $dictate")]) "please $Journey+ now*" = .ok sequence ∧
          accepts sequence ["Please", "go", "home", "go", "very", "far", "NOW"] = true := by
  have htemplate : parse .builtin "go [very] $dictate" = .ok journey :=
    parse_eq_ok_iff_parseTokens.mpr ⟨[.word "go", .opening .optional, .word "very", .closing .optional,
      .dollar, .word "dictate"], rfl, rfl⟩
  have hcontext : Templates.builtin.afterSource "journey" "go [very] $dictate" = _ :=
    Templates.afterSource_of_parse rfl rfl htemplate
  have hname :
      (Templates.ofSources [("journey", "go [very] $dictate")]).lookup "Journey" = some journey := by
    rw [Templates.ofSources, List.foldl_cons, List.foldl_nil, hcontext, Templates.lookup_put]
    exact if_pos (by decide +kernel)
  have hbefore : Surrounds (.ofSources [("journey", "go [very] $dictate")]) [.word "please" none]
      [.literal "please" .once] := ⟨rfl, trivial, trivial⟩
  have hafter : Surrounds (.ofSources [("journey", "go [very] $dictate")]) [.word "now" (some .star)]
      [.literal "now" ⟨0, 4294967295⟩] := ⟨rfl, trivial, trivial⟩
  obtain ⟨sequence, hstands, haccepts⟩ := (accepts_reference hname hbefore hafter).1 rfl .plus
  refine ⟨hname, hbefore, hafter, rfl, sequence, hstands.parse_eq _ rfl, ?_⟩
  exact (haccepts _).mpr ⟨["Please"], [["go", "home"], ["go", "very", "far"]], ["NOW"], rfl,
    by decide +kernel, by decide, by decide, by decide +kernel, by decide +kernel⟩

end SpokenCommand.Grammar
