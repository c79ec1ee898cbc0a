import SpokenCommand.Proofs.Grammar.Syntax
/-!
The parser accepts what the notation says.

The parser reads tokens once, with the open brackets on a stack, and knows nothing of trees.  The two
directions meet it at different places.

1. **Completeness** (`exists_parseFrom_all`): what is written for some elements takes the parser from
   any stack and any nodes before to the same stack, with the nodes that the elements stand for behind
   them.  This is an induction on the elements, and at each kind of element one step of the parser, or
   two at brackets.

2. **Soundness** (`reads_of_parseFrom`): if the parser gets to a grammar then the tokens that are left
   are written for what is still open.  That is the invariant, `Reads`: elements, more alternatives,
   the closing of the innermost bracket, and so on outwards.  The induction is on the parser's own
   recursion, and at each step a piece is put in front of what is read after it.

3. **Together** (`parse_eq_ok_iff_derivation`): a source is accepted as a grammar if and only if it has
   a derivation in which every sequence stands for a node.  Where no template is empty, that is the
   notation as it is documented; with an empty template it is less, because a sequence of nothing but
   references to it is refused.
-/

namespace SpokenCommand.Grammar

variable {templates : Templates} {frames : List Frame} {nodes : Sequence} {i : Nat}
  {rest : List Token} {sequence : Sequence}

/-! ## One piece after another -/

/-- A template is put in a range as the notation says. -/
theorem ranged?_eq (r : Repeat) (template : Sequence) :
    ranged? r template =
      if isRepeatable template = true then some (repeatTemplate template r) else none := by
  have hcondition : template.head?.all (·.repeats = ⟨1, 1⟩) = isRepeatable template := by
    cases template <;> rfl
  unfold ranged?
  rw [hcondition]
  refine ite_congr rfl (fun _ => ?_) (fun _ => rfl)
  match template with
  | [] | [.literal _ _] | [.choice _ _] | [.dictation] | [.wildcard] => rfl
  | .literal _ _ :: _ :: _ | .choice _ _ :: _ :: _ => rfl
  | .dictation :: _ :: _ | .wildcard :: _ :: _ => rfl

theorem Mark.range_some (max : Nat) (mark : Mark) : Mark.range max (some mark) = mark.repeats max := by
  cases mark <;> rfl

theorem Unmarked.ne_mark (h : Unmarked rest) (m : Mark) (tail : List Token) :
    rest = .mark m :: tail → False := by
  rintro rfl
  cases h _ rfl

/-- A word, with or without a mark, is a literal. -/
theorem exists_parseFrom_word (text : String) (mark : Option Mark) (h : Unmarked rest) :
    ∃ j, parseFrom templates frames nodes i (.word text :: (Mark.tokens mark ++ rest)) =
      parseFrom templates frames (nodes ++ [.literal text (Mark.range 4294967295 mark)]) j rest := by
  match mark with
  | some m =>
    refine ⟨i + 2, ?_⟩
    rw [Mark.range_some]
    rfl
  | none =>
    refine ⟨i + 1, ?_⟩
    show parseFrom templates frames nodes i (.word text :: rest) = _
    rw [parseFrom]
    · rfl
    · exact h.ne_mark

/-- A reference, with or without a mark, is its template. -/
theorem exists_parseFrom_reference {name : String} {mark : Option Mark} {spliced : Sequence}
    (hnodes : (Element.reference name mark).nodes? templates = some spliced) (h : Unmarked rest) :
    ∃ j, parseFrom templates frames nodes i (.dollar :: .word name :: (Mark.tokens mark ++ rest)) =
      parseFrom templates frames (nodes ++ spliced) j rest := by
  match mark with
  | some m =>
    refine ⟨i + 3, ?_⟩
    rw [Element.nodes?, Option.bind_eq_some_iff] at hnodes
    obtain ⟨template, hlookup, hranged⟩ := hnodes
    rw [ranged?_eq] at hranged
    split at hranged
    · rename_i hrepeatable
      obtain rfl := Option.some.inj hranged
      show parseFrom templates frames nodes i (.dollar :: .word name :: .mark m :: rest) = _
      rw [parseFrom, hlookup]
      dsimp only
      rw [if_pos hrepeatable, Mark.range_some]
      rfl
    · cases hranged
  | none =>
    refine ⟨i + 2, ?_⟩
    have hlookup : templates.lookup name = some spliced := hnodes
    show parseFrom templates frames nodes i (.dollar :: .word name :: rest) = _
    rw [parseFrom, hlookup]
    dsimp only
    split
    · rename_i m tail
      exact absurd rfl (h.ne_mark m tail)
    · rfl

/-- A bracket that an element follows is put on the stack. -/
theorem parseFrom_opening (b : Bracket) {t : Token} (h : t.starts = true) :
    parseFrom templates frames nodes i (.opening b :: t :: rest) =
      parseFrom templates (⟨b, nodes, []⟩ :: frames) [] (i + 1) (t :: rest) := by
  cases t <;> first | rfl | cases h

/-- A bar ends an alternative. -/
theorem parseFrom_pipe (b : Bracket) (before : Sequence) (alternatives : List Sequence)
    {t : Token} (h : nodes ≠ []) :
    parseFrom templates (⟨b, before, alternatives⟩ :: frames) nodes i (.pipe :: t :: rest) =
      parseFrom templates (⟨b, before, alternatives ++ [nodes]⟩ :: frames) [] (i + 1)
        (t :: rest) := by
  have hempty : ¬ nodes.isEmpty = true := by simpa using h
  rw [parseFrom, if_neg hempty]
  exact nofun

/-- A closing bracket makes a choice of the alternatives. -/
theorem exists_parseFrom_closing (e : Enclosure) (before : Sequence) (alternatives : List Sequence)
    (hne : nodes ≠ []) (h : Unmarked rest) :
    ∃ j, parseFrom templates (⟨e.bracket, before, alternatives⟩ :: frames) nodes i
        (e.closing ++ rest) =
      parseFrom templates frames (before ++ [.choice (alternatives ++ [nodes]) e.range]) j rest := by
  have hempty : ¬ nodes.isEmpty = true := by simpa using hne
  match e with
  | .round (some m) =>
    refine ⟨i + 2, ?_⟩
    show parseFrom templates _ nodes i (.closing .group :: .mark m :: rest) = _
    rw [parseFrom, if_neg hempty, Enclosure.range, Mark.range_some]
    rfl
  | .round none =>
    refine ⟨i + 1, ?_⟩
    show parseFrom templates _ nodes i (.closing .group :: rest) = _
    rw [parseFrom, if_neg hempty]
    · rfl
    · exact h.ne_mark
  | .square =>
    refine ⟨i + 1, ?_⟩
    show parseFrom templates _ nodes i (.closing .optional :: rest) = _
    rw [parseFrom, if_neg hempty]
    · rfl
    · exact h.ne_mark

/-! ## Completeness -/

/-- A sequence that stands for a node is written as something, which an element starts. -/
theorem exists_tokensAll_eq {elements : List Element} {ns : Sequence}
    (h : nodesAll? templates elements = some ns) (hne : ns ≠ []) :
    ∃ t tail, tokensAll elements = t :: tail ∧ t.starts = true := by
  cases elements with
  | nil => exact absurd (Option.some.inj h).symm hne
  | cons e elements =>
    obtain ⟨t, tail, htokens, hstarts⟩ := e.exists_tokens_eq
    exact ⟨t, tail ++ tokensAll elements, by rw [tokensAll, htokens, List.cons_append], hstarts⟩

theorem HasNode.ne_nil {elements : List Element} {ns : Sequence} (h : HasNode templates elements)
    (hns : nodesAll? templates elements = some ns) : ns ≠ [] := by
  rintro rfl
  exact h hns

mutual

/-- **An element** is read as the nodes that it stands for. -/
theorem exists_parseFrom_element (e : Element) {ns : Sequence} (hns : e.nodes? templates = some ns)
    (hwhole : e.IsWhole (HasNode templates)) (frames : List Frame) (nodes : Sequence) (i : Nat)
    (rest : List Token) (h : Unmarked rest) :
    ∃ j, parseFrom templates frames nodes i (e.tokens ++ rest) =
      parseFrom templates frames (nodes ++ ns) j rest := by
  match e with
  | .word text mark =>
    obtain rfl := Option.some.inj hns
    exact exists_parseFrom_word text mark h
  | .reference name mark => exact exists_parseFrom_reference hns h
  | .enclosed e first others =>
    obtain ⟨ms, os, hms, hos, rfl⟩ := nodes?_enclosed_iff.mp hns
    obtain ⟨hfirst, hall, hothers⟩ := hwhole
    have hne := hfirst.ne_nil hms
    -- The parser looks behind the bracket before it opens it, and has to see an element there.
    obtain ⟨t, tail, htokens, hstarts⟩ := exists_tokensAll_eq hms hne
    have hstop : Stops (tokensOthers others ++ (e.closing ++ rest)) :=
      stops_others (stops_closing e rest)
    rw [Element.tokens, List.cons_append, List.append_assoc, List.append_assoc]
    obtain ⟨j, hj⟩ := exists_parseFrom_all first hms hall (⟨e.bracket, nodes, []⟩ :: frames) [] (i + 1)
      _ hstop.unmarked
    obtain ⟨k, last, init, hlast, hsplit, hk⟩ :=
      exists_parseFrom_others others hos hothers ms hne e nodes [] frames j rest
    obtain ⟨l, hl⟩ :=
      @exists_parseFrom_closing templates frames last k rest e nodes ([] ++ init) hlast h
    refine ⟨l, ?_⟩
    calc parseFrom templates frames nodes i (.opening e.bracket :: (tokensAll first ++ _))
        = parseFrom templates (⟨e.bracket, nodes, []⟩ :: frames) [] (i + 1)
            (tokensAll first ++ (tokensOthers others ++ (e.closing ++ rest))) := by
          rw [htokens, List.cons_append]
          exact parseFrom_opening e.bracket hstarts
      _ = _ := hj
      _ = _ := hk
      _ = _ := hl
      _ = _ := by rw [List.append_assoc, List.nil_append, hsplit]

/-- **Elements** are read as the nodes that they stand for, one after another. -/
theorem exists_parseFrom_all (elements : List Element) {ns : Sequence}
    (hns : nodesAll? templates elements = some ns) (hwhole : AllWhole (HasNode templates) elements)
    (frames : List Frame) (nodes : Sequence) (i : Nat) (rest : List Token) (h : Unmarked rest) :
    ∃ j, parseFrom templates frames nodes i (tokensAll elements ++ rest) =
      parseFrom templates frames (nodes ++ ns) j rest := by
  match elements with
  | [] =>
    obtain rfl := Option.some.inj hns
    exact ⟨i, by rw [tokensAll, List.nil_append, List.append_nil]⟩
  | e :: elements =>
    obtain ⟨ms, ls, hms, hls, rfl⟩ := nodesAll?_cons_iff.mp hns
    rw [tokensAll, List.append_assoc]
    obtain ⟨j, hj⟩ := exists_parseFrom_element e hms hwhole.1 frames nodes i _ (unmarked_all h)
    obtain ⟨k, hk⟩ := exists_parseFrom_all elements hls hwhole.2 frames (nodes ++ ms) j rest h
    exact ⟨k, by rw [hj, hk, List.append_assoc]⟩

/-- **More alternatives** are read behind the first one, up to the last, which the closing bracket
    ends. -/
theorem exists_parseFrom_others (others : List (List Element)) {os : List Sequence}
    (hos : nodesOthers? templates others = some os) (hwhole : OthersWhole (HasNode templates) others)
    (nodes : Sequence) (hne : nodes ≠ []) (e : Enclosure) (before : Sequence)
    (alternatives : List Sequence) (frames : List Frame) (i : Nat) (rest : List Token) :
    ∃ j last init, last ≠ [] ∧ init ++ [last] = nodes :: os ∧
      parseFrom templates (⟨e.bracket, before, alternatives⟩ :: frames) nodes i
          (tokensOthers others ++ (e.closing ++ rest)) =
        parseFrom templates (⟨e.bracket, before, alternatives ++ init⟩ :: frames) last j
          (e.closing ++ rest) := by
  match others with
  | [] =>
    obtain rfl := Option.some.inj hos
    exact ⟨i, nodes, [], hne, rfl, by rw [tokensOthers, List.nil_append, List.append_nil]⟩
  | elements :: others =>
    obtain ⟨ms, ls, hms, hls, rfl⟩ := nodesOthers?_cons_iff.mp hos
    obtain ⟨hfirst, hall, hothers⟩ := hwhole
    have hms_ne := hfirst.ne_nil hms
    obtain ⟨t, tail, htokens, hstarts⟩ := exists_tokensAll_eq hms hms_ne
    have hstop : Stops (tokensOthers others ++ (e.closing ++ rest)) :=
      stops_others (stops_closing e rest)
    obtain ⟨j, hj⟩ := exists_parseFrom_all elements hms hall
      (⟨e.bracket, before, alternatives ++ [nodes]⟩ :: frames) [] (i + 1) _ hstop.unmarked
    obtain ⟨k, last, init, hlast, hsplit, hk⟩ := exists_parseFrom_others others hls hothers ms hms_ne e
      before (alternatives ++ [nodes]) frames j rest
    refine ⟨k, last, nodes :: init, hlast, by rw [List.cons_append, hsplit], ?_⟩
    rw [tokensOthers, List.cons_append, List.append_assoc]
    calc parseFrom templates (⟨e.bracket, before, alternatives⟩ :: frames) nodes i
          (.pipe :: (tokensAll elements ++ _))
        = parseFrom templates (⟨e.bracket, before, alternatives ++ [nodes]⟩ :: frames) [] (i + 1)
            (tokensAll elements ++ (tokensOthers others ++ (e.closing ++ rest))) := by
          rw [htokens, List.cons_append]
          exact parseFrom_pipe _ _ _ hne
      _ = _ := hj
      _ = _ := hk
      _ = _ := by rw [List.append_assoc]; rfl

end

/-- A source is accepted if its tokens are.  Without a token it is not. -/
theorem parse_eq_ok_iff_parseTokens {source : String} : parse templates source = .ok sequence ↔
    ∃ tokens, tokenize source = .ok tokens ∧ parseTokens templates tokens = .ok sequence := by
  unfold parse
  cases tokenize source with
  | error e => simp
  | ok tokens =>
    cases tokens with
    | nil => simp [parseTokens, parseFrom]
    | cons t tail =>
      dsimp only
      cases hparsed : parseTokens templates (t :: tail) with
      | error failure => simp [hparsed]
      | ok found => simp [hparsed]

/-- **What has a derivation is accepted.** -/
theorem parse_of_derivation {source : String} {tokens : List Token}
    (htokens : tokenize source = .ok tokens)
    (d : Derivation (HasNode templates) templates tokens sequence) :
    parse templates source = .ok sequence := by
  obtain ⟨elements, hnode, hwhole, rfl, hnodes⟩ := d
  have hne := hnode.ne_nil hnodes
  obtain ⟨j, hj⟩ := exists_parseFrom_all elements hnodes hwhole [] [] 0 [] stops_nil.unmarked
  refine parse_eq_ok_iff_parseTokens.mpr ⟨_, htokens, ?_⟩
  rw [List.append_nil, List.nil_append] at hj
  rw [parseTokens, hj, parseFrom, if_neg (by simpa using hne)]

/-! ## Soundness -/

/-- Elements, and the nodes that they stand for. -/
structure Spells (templates : Templates) (elements : List Element) (nodes : Sequence) : Prop where
  nodes_eq : nodesAll? templates elements = some nodes
  allWhole : AllWhole (HasNode templates) elements

/-- Alternatives after the first one, and the sequences that they stand for. -/
structure SpellsOthers (templates : Templates) (others : List (List Element))
    (sequences : List Sequence) : Prop where
  nodes_eq : nodesOthers? templates others = some sequences
  othersWhole : OthersWhole (HasNode templates) others

section Spells

variable {e : Element} {elements : List Element} {others : List (List Element)} {ns ms : Sequence}
  {os : List Sequence}

theorem spells_nil : Spells templates [] [] := ⟨rfl, trivial⟩

theorem spellsOthers_nil : SpellsOthers templates [] [] := ⟨rfl, trivial⟩

theorem Spells.cons (hns : e.nodes? templates = some ns) (hwhole : e.IsWhole (HasNode templates))
    (h : Spells templates elements ms) : Spells templates (e :: elements) (ns ++ ms) :=
  ⟨nodesAll?_cons_iff.mpr ⟨ns, ms, hns, h.nodes_eq, rfl⟩, hwhole, h.allWhole⟩

theorem Spells.hasNode (h : Spells templates elements ns) (hne : ns ≠ []) :
    HasNode templates elements := by
  intro hempty
  exact hne (Option.some.inj (h.nodes_eq.symm.trans hempty))

theorem SpellsOthers.cons (hfirst : Spells templates elements ns) (hne : ns ≠ [])
    (h : SpellsOthers templates others os) :
    SpellsOthers templates (elements :: others) (ns :: os) :=
  ⟨nodesOthers?_cons_iff.mpr ⟨ns, os, hfirst.nodes_eq, h.nodes_eq, rfl⟩, hfirst.hasNode hne,
    hfirst.allWhole, h.othersWhole⟩

end Spells

/-- **The invariant**: inside the open brackets and after the nodes of the current sequence, the tokens
    are written for the rest of a grammar. -/
def Reads (templates : Templates) : List Frame → Sequence → List Token → Sequence → Prop
  | [], nodes, tokens, sequence => ∃ elements ns, tokensAll elements = tokens ∧
      Spells templates elements ns ∧ nodes ++ ns = sequence ∧ sequence ≠ []
  | frame :: outer, nodes, tokens, sequence => ∃ elements ns others os, ∃ e : Enclosure, ∃ rest,
      tokens = tokensAll elements ++ (tokensOthers others ++ (e.closing ++ rest)) ∧
      Spells templates elements ns ∧ nodes ++ ns ≠ [] ∧ SpellsOthers templates others os ∧
      e.bracket = frame.bracket ∧
      Reads templates outer
        (frame.before ++ [.choice (frame.alternatives ++ (nodes ++ ns) :: os) e.range]) rest sequence

theorem reads_nil (hne : nodes ≠ []) : Reads templates [] nodes [] nodes :=
  ⟨[], [], rfl, spells_nil, List.append_nil nodes, hne⟩

/-- An element is put in front. -/
theorem Reads.element (e : Element) {ns : Sequence} (hns : e.nodes? templates = some ns)
    (hwhole : e.IsWhole (HasNode templates))
    (h : Reads templates frames (nodes ++ ns) rest sequence) :
    Reads templates frames nodes (e.tokens ++ rest) sequence := by
  cases frames with
  | nil =>
    obtain ⟨elements, ms, rfl, hspells, hsequence, hne⟩ := h
    refine ⟨e :: elements, ns ++ ms, rfl, hspells.cons hns hwhole, ?_, hne⟩
    rw [← List.append_assoc, hsequence]
  | cons frame outer =>
    obtain ⟨elements, ms, others, os, closer, after, rfl, hspells, hne, hothers, hbracket, houter⟩ := h
    rw [List.append_assoc] at hne houter
    refine ⟨e :: elements, ns ++ ms, others, os, closer, after, ?_, hspells.cons hns hwhole, hne,
      hothers, hbracket, houter⟩
    rw [tokensAll, List.append_assoc]

/-- An opening bracket is put in front, and what was inside becomes an element. -/
theorem Reads.opening {b : Bracket} (h : Reads templates (⟨b, nodes, []⟩ :: frames) [] rest sequence) :
    Reads templates frames nodes (.opening b :: rest) sequence := by
  obtain ⟨elements, ns, others, os, e, after, rfl, hspells, hne, hothers, rfl, houter⟩ := h
  have hnodes : (Element.enclosed e elements others).nodes? templates =
      some [.choice (ns :: os) e.range] :=
    nodes?_enclosed_iff.mpr ⟨ns, os, hspells.nodes_eq, hothers.nodes_eq, rfl⟩
  have hwhole : (Element.enclosed e elements others).IsWhole (HasNode templates) :=
    ⟨hspells.hasNode hne, hspells.allWhole, hothers.othersWhole⟩
  -- The frame holds nothing but the nodes before the bracket, so that the rest of the outer sequence is
  -- read after this element.
  have hreads := Reads.element _ hnodes hwhole houter
  rwa [Element.tokens, List.cons_append, List.append_assoc, List.append_assoc] at hreads

/-- A bar is put in front, and what was the current sequence becomes one more alternative. -/
theorem Reads.pipe {b : Bracket} {before : Sequence} {alternatives : List Sequence}
    (hne : nodes ≠ [])
    (h : Reads templates (⟨b, before, alternatives ++ [nodes]⟩ :: frames) [] rest sequence) :
    Reads templates (⟨b, before, alternatives⟩ :: frames) nodes (.pipe :: rest) sequence := by
  obtain ⟨elements, ns, others, os, e, after, rfl, hspells, hne', hothers, hbracket, houter⟩ := h
  rw [List.append_assoc] at houter
  refine ⟨[], [], elements :: others, ns :: os, e, after, ?_, spells_nil, ?_,
    .cons hspells hne' hothers, hbracket, ?_⟩
  · rw [tokensOthers, List.cons_append, List.append_assoc]
    rfl
  · rwa [List.append_nil]
  · rw [List.append_nil]
    exact houter

/-- A closing bracket is put in front. -/
theorem Reads.closing (e : Enclosure) {before : Sequence} {alternatives : List Sequence}
    (hne : nodes ≠ [])
    (h : Reads templates frames (before ++ [.choice (alternatives ++ [nodes]) e.range]) rest sequence) :
    Reads templates (⟨e.bracket, before, alternatives⟩ :: frames) nodes (e.closing ++ rest)
      sequence := by
  refine ⟨[], [], [], [], e, rest, rfl, spells_nil, ?_, spellsOthers_nil, rfl, ?_⟩
  · rwa [List.append_nil]
  · rwa [List.append_nil]

/-- **Soundness.**  What the parser accepts is written for the rest of a grammar. -/
theorem reads_of_parseFrom {tokens : List Token}
    (h : parseFrom templates frames nodes i tokens = .ok sequence) :
    Reads templates frames nodes tokens sequence := by
  -- Each step that does not fail puts one piece in front of what the rest is read as.
  fun_induction parseFrom templates frames nodes i tokens with
  | case2 nodes i hempty =>
    obtain rfl := Except.ok.inj h
    exact reads_nil (by simpa using hempty)
  | case4 frames nodes i text m rest ih =>
    have hns : (Element.word text (some m)).nodes? templates =
        some [.literal text (m.repeats Repeat.unbounded)] := by
      rw [Element.nodes?, Mark.range_some]
      rfl
    exact Reads.element _ hns trivial (ih h)
  | case5 frames nodes i text rest _ ih =>
    exact Reads.element (.word text none) rfl trivial (ih h)
  | case9 frames nodes i b rest _ _ ih => exact (ih h).opening
  | case13 nodes i hempty frame outer rest _ ih =>
    exact Reads.pipe (by simpa using hempty) (ih h)
  | case18 nodes i hempty frame outer rest _ hbracket ih =>
    obtain ⟨b, before, alternatives⟩ := frame
    obtain rfl : Bracket.optional = b := not_not.mp hbracket
    exact Reads.closing .square (by simpa using hempty) (ih h)
  | case19 nodes i hempty frame outer m rest hbracket ih =>
    obtain ⟨b, before, alternatives⟩ := frame
    obtain rfl : Bracket.group = b := not_not.mp hbracket
    have hrest := ih h
    rw [← Mark.range_some] at hrest
    exact Reads.closing (.round (some m)) (by simpa using hempty) hrest
  | case20 nodes i hempty frame outer rest _ hbracket ih =>
    obtain ⟨b, before, alternatives⟩ := frame
    obtain rfl : Bracket.group = b := not_not.mp hbracket
    exact Reads.closing (.round none) (by simpa using hempty) (ih h)
  | case22 frames nodes i name template hlookup m rest hrepeatable ih =>
    have hns : (Element.reference name (some m)).nodes? templates =
        some (repeatTemplate template (m.repeats Repeat.unbounded)) := by
      rw [Element.nodes?, hlookup, Option.bind_some, ranged?_eq, if_pos hrepeatable, Mark.range_some]
      rfl
    exact Reads.element _ hns trivial (ih h)
  | case24 frames nodes i name template hlookup rest _ ih =>
    exact Reads.element (.reference name none) hlookup trivial (ih h)
  | _ => cases h

/-- **What is accepted has a derivation.** -/
theorem exists_derivation_of_parse {source : String} (h : parse templates source = .ok sequence) :
    ∃ tokens, tokenize source = .ok tokens ∧
      Nonempty (Derivation (HasNode templates) templates tokens sequence) := by
  obtain ⟨tokens, htokens, hparsed⟩ := parse_eq_ok_iff_parseTokens.mp h
  obtain ⟨elements, ns, htokens_eq, hspells, rfl, hne⟩ := reads_of_parseFrom hparsed
  exact ⟨tokens, htokens,
    ⟨elements, hspells.hasNode hne, hspells.allWhole, htokens_eq, hspells.nodes_eq⟩⟩

/-! ## Together -/

theorem repeatTemplate_ne_nil (template : Sequence) (r : Repeat) : repeatTemplate template r ≠ [] := by
  unfold repeatTemplate
  split <;> exact List.cons_ne_nil _ _

/-- Where no template is empty, every element stands for a node. -/
theorem Element.nodes?_ne_nil (hfull : ∀ name, templates.lookup name ≠ some []) (e : Element) :
    e.nodes? templates ≠ some [] := by
  match e with
  | .word text mark => exact nofun
  | .enclosed e first others =>
    intro h
    obtain ⟨ns, os, -, -, hne⟩ := nodes?_enclosed_iff.mp h
    exact List.cons_ne_nil _ _ hne
  | .reference name none => exact hfull name
  | .reference name (some mark) =>
    intro h
    rw [nodes?, Option.bind_eq_some_iff] at h
    obtain ⟨template, -, hranged⟩ := h
    rw [ranged?_eq] at hranged
    split at hranged
    · exact repeatTemplate_ne_nil _ _ (Option.some.inj hranged)
    · cases hranged

/-- Where no template is empty, what has an element has a node. -/
theorem HasElement.hasNode (hfull : ∀ name, templates.lookup name ≠ some [])
    {elements : List Element} (h : HasElement elements) : HasNode templates elements := by
  cases elements with
  | nil => exact absurd rfl h
  | cons e rest =>
    intro hnodes
    obtain ⟨ns, ms, hns, -, hnil⟩ := nodesAll?_cons_iff.mp hnodes
    obtain ⟨rfl, -⟩ := List.append_eq_nil_iff.mp hnil
    exact e.nodes?_ne_nil hfull hns

theorem HasNode.hasElement {elements : List Element} (h : HasNode templates elements) :
    HasElement elements := by
  rintro rfl
  exact h rfl

/-- A source is accepted if and only if it has a derivation in which every sequence has a node. -/
theorem parse_eq_ok_iff {source : String} :
    parse templates source = .ok sequence ↔ ∃ tokens, tokenize source = .ok tokens ∧
      Nonempty (Derivation (HasNode templates) templates tokens sequence) := by
  constructor
  · exact exists_derivation_of_parse
  · rintro ⟨tokens, htokens, ⟨d⟩⟩
    exact parse_of_derivation htokens d

/-- **The parser accepts exactly its notation.**  A source is accepted as a grammar if and only if it
    splits into tokens that have a derivation of this grammar in which every sequence has a node, and
    tokens never have two derivations.  Where no template is empty, it is enough that every sequence has
    an element. -/
theorem parse_eq_ok_iff_derivation (templates : Templates) (source : String) :
    (∀ sequence, parse templates source = .ok sequence ↔
      ∃ tokens, tokenize source = .ok tokens ∧
        Nonempty (Derivation (HasNode templates) templates tokens sequence)) ∧
    (∀ isSequence tokens sequence sequence'
      (d : Derivation isSequence templates tokens sequence)
      (d' : Derivation isSequence templates tokens sequence'),
      d.elements = d'.elements ∧ sequence = sequence') ∧
    ((∀ name, templates.lookup name ≠ some []) →
      ∀ sequence, parse templates source = .ok sequence ↔
        ∃ tokens, tokenize source = .ok tokens ∧
          Nonempty (Derivation HasElement templates tokens sequence)) := by
  refine ⟨fun _ => parse_eq_ok_iff, fun _ _ _ _ d d' => d.unique d', ?_⟩
  -- Without empty templates the two notions of a sequence are the same.
  intro hfull sequence
  rw [parse_eq_ok_iff]
  refine exists_congr fun tokens => and_congr_right fun _ => ⟨?_, ?_⟩
  · rintro ⟨d⟩
    exact ⟨d.mono fun _ => HasNode.hasElement⟩
  · rintro ⟨d⟩
    exact ⟨d.mono fun _ => HasElement.hasNode hfull⟩

/-- A context in which a name stands for nothing. -/
def withEmptyTemplate : Templates := ⟨Ordered.put "e" [] Templates.builtin.entries⟩

/-- A reference to an empty template is a sequence of the documented notation, and is refused. -/
theorem not_parse_eq_ok_iff_empty_reference :
    ¬ ∀ sequence, parse withEmptyTemplate "$e" = .ok sequence ↔
      ∃ tokens, tokenize "$e" = .ok tokens ∧
        Nonempty (Derivation HasElement withEmptyTemplate tokens sequence) := by
  intro h
  have htokens : tokenize "$e" = .ok [.dollar, .word "e"] := rfl
  have hlookup : withEmptyTemplate.lookup "e" = some [] := rfl
  have hrefused : parse withEmptyTemplate "$e" = .error (.emptySequence 2) := rfl
  have hnodes : nodesAll? withEmptyTemplate [.reference "e" none] = some [] := by
    rw [nodesAll?, Element.nodes?, hlookup]
    rfl
  have hparsed := (h []).mpr ⟨_, htokens,
    ⟨[.reference "e" none], List.cons_ne_nil _ _, ⟨trivial, trivial⟩, rfl, hnodes⟩⟩
  rw [hrefused] at hparsed
  cases hparsed

end SpokenCommand.Grammar
