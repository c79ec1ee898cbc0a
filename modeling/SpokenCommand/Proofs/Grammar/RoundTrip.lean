import SpokenCommand.Grammar.Render
import SpokenCommand.Proofs.Grammar.Writable
/-!
Grammars that are written and read again.

What is written for a grammar stands between the grammar and the notation: every node is written as one
element (`Node.source`), and the text of the node is the text of that element.

1. **The normal form.**  The notation has no upper end for a choice and no way to write that an optional
   choice repeats.  `Node.normal` is what is left of a grammar, and it is written as the grammar is.

2. **The crux** is in two halves that meet at the elements.  The text of a writable grammar splits into
   the tokens of its elements (`Node.splits_render`), and the elements stand for the normal form
   (`Node.nodes?_source`).  So the elements are a derivation of the text, and the parser finds it.
-/

namespace SpokenCommand.Grammar

variable {templates : Templates}

/-! ## The normal form -/

/-- What is left of the range of a choice: once or not at all, one or more times, or exactly once. -/
def Repeat.normal (r : Repeat) : Repeat :=
  if r.min = 0 then ⟨0, 1⟩ else if r.min = 1 ∧ 1 < r.max then ⟨1, 1000⟩ else r

mutual

/-- A node with the ranges of choices as they are written, at every depth. -/
def Node.normal : Node → Node
  | .literal text r => .literal text r
  | .choice alternatives r => .choice (normalAny alternatives) r.normal
  | .dictation => .dictation
  | .wildcard => .wildcard

def normalAny : List (List Node) → List (List Node)
  | [] => []
  | sequence :: rest => normalAll sequence :: normalAny rest

def normalAll : List Node → List Node
  | [] => []
  | node :: rest => node.normal :: normalAll rest

end

theorem Repeat.groupMark_normal (r : Repeat) : Node.groupMark r.normal = Node.groupMark r := by
  unfold normal
  split
  · rename_i hmin
    simp [Node.groupMark, hmin]
  · split
    · rename_i hmin hmax
      simp [Node.groupMark, hmax.1, hmax.2]
    · rfl

theorem Repeat.min_normal_eq_zero_iff (r : Repeat) : r.normal.min = 0 ↔ r.min = 0 := by
  unfold normal
  split
  · rename_i hmin
    exact iff_of_true rfl hmin
  · rename_i hmin
    split
    · exact iff_of_false Nat.one_ne_zero hmin
    · exact Iff.rfl

mutual

/-- The normal form is written as the node is. -/
theorem Node.render_normal (node : Node) : node.normal.render = node.render := by
  match node with
  | .literal text r => rfl
  | .choice alternatives r =>
    rw [Node.normal, Node.render, Node.render, renderAlternatives_normalAny alternatives,
      r.groupMark_normal]
    simp only [r.min_normal_eq_zero_iff]
  | .dictation => rfl
  | .wildcard => rfl

theorem renderAlternatives_normalAny (alternatives : List (List Node)) :
    Node.renderAlternatives (normalAny alternatives) = Node.renderAlternatives alternatives := by
  match alternatives with
  | [] => rfl
  | [sequence] =>
    rw [normalAny, normalAny, Node.renderAlternatives, Node.renderAlternatives,
      renderAll_normalAll sequence]
  | sequence :: other :: rest =>
    have hrest := renderAlternatives_normalAny (other :: rest)
    rw [normalAny] at hrest
    rw [normalAny, normalAny, Node.renderAlternatives_cons_cons, Node.renderAlternatives_cons_cons,
      renderAll_normalAll sequence, hrest]

theorem renderAll_normalAll (nodes : List Node) :
    Node.renderAll (normalAll nodes) = Node.renderAll nodes := by
  match nodes with
  | [] => rfl
  | [node] => rw [normalAll, normalAll, Node.renderAll, Node.renderAll, node.render_normal]
  | node :: other :: rest =>
    have hrest := renderAll_normalAll (other :: rest)
    rw [normalAll] at hrest
    rw [normalAll, normalAll, Node.renderAll_cons_cons, Node.renderAll_cons_cons, node.render_normal,
      hrest]

end

/-! ## The elements of a grammar -/

/-- The mark of a word. -/
def Repeat.wordMark? (r : Repeat) : Option Mark :=
  if 1 < r.max then some (if r.min = 0 then .star else .plus) else none

/-- The brackets of a choice. -/
def Repeat.enclosure (r : Repeat) : Enclosure :=
  if r.min = 0 then .square else .round (if 1 < r.max then some .plus else none)

mutual

/-- The element that a node is written as. -/
def Node.source : Node → Element
  | .literal text r => .word text r.wordMark?
  | .choice [] r => .enclosed r.enclosure [] []
  | .choice (first :: others) r => .enclosed r.enclosure (sourceAll first) (sourceAny others)
  | .dictation => .reference Templates.dictateName none
  | .wildcard => .reference Templates.wildcardName none

def sourceAny : List (List Node) → List (List Element)
  | [] => []
  | sequence :: rest => sourceAll sequence :: sourceAny rest

def sourceAll : List Node → List Element
  | [] => []
  | node :: rest => node.source :: sourceAll rest

end

/-- How all alternatives are written. -/
def tokensAny : List (List Element) → List Token
  | [] => []
  | first :: others => tokensAll first ++ tokensOthers others

theorem Repeat.splits_wordMark (r : Repeat) :
    Splits (Node.wordMark r).toList (Mark.tokens r.wordMark?) ∧
      EndsWord (Node.wordMark r).toList := by
  unfold Node.wordMark wordMark?
  by_cases hmax : 1 < r.max
  · by_cases hmin : r.min = 0
    · simp only [gt_iff_lt, hmax, hmin, if_true]
      exact ⟨splits_nil.symbol (c := '*') rfl, endsWord_symbol (c := '*') rfl⟩
    · simp only [gt_iff_lt, hmax, hmin, if_true, if_false]
      exact ⟨splits_nil.symbol (c := '+') rfl, endsWord_symbol (c := '+') rfl⟩
  · simp only [gt_iff_lt, hmax, if_false]
    exact ⟨splits_nil, endsWord_nil⟩

theorem Repeat.toList_opening (r : Repeat) : (if r.min = 0 then "[" else "(").toList =
    [r.enclosure.bracket.openingChar] := by
  unfold enclosure
  split <;> rfl

theorem Repeat.splits_closing (r : Repeat) :
    Splits ((if r.min = 0 then "]" else ")").toList ++ (Node.groupMark r).toList)
        r.enclosure.closing ∧
      EndsWord ((if r.min = 0 then "]" else ")").toList ++ (Node.groupMark r).toList) := by
  unfold Node.groupMark enclosure
  by_cases hmin : r.min = 0
  · simp only [gt_iff_lt, hmin, Nat.lt_irrefl, decide_false, Bool.false_and, Bool.false_eq_true,
      if_true, if_false]
    exact ⟨splits_nil.symbol (c := ']') rfl, endsWord_symbol (c := ']') rfl⟩
  · have hpos : 0 < r.min := Nat.pos_of_ne_zero hmin
    by_cases hmax : 1 < r.max
    · simp only [gt_iff_lt, hmin, hpos, hmax, decide_true, Bool.and_true, if_true, if_false]
      exact ⟨(splits_nil.symbol (c := '+') rfl).symbol (c := ')') rfl,
        endsWord_symbol (c := ')') rfl⟩
    · simp only [gt_iff_lt, hmin, hpos, hmax, decide_true, decide_false, Bool.and_false,
        Bool.false_eq_true, if_false]
      exact ⟨splits_nil.symbol (c := ')') rfl, endsWord_symbol (c := ')') rfl⟩

theorem Bracket.ofSymbol?_openingChar (b : Bracket) :
    Token.ofSymbol? b.openingChar = some (.opening b) := by
  cases b <;> rfl

theorem isWord_dictateName : IsWord Templates.dictateName :=
  ⟨by decide, List.all_eq_true.mp (by decide)⟩

theorem isWord_wildcardName : IsWord Templates.wildcardName :=
  ⟨by decide, List.all_eq_true.mp (by decide)⟩

mutual

/-- **The text of a node** splits into the tokens of its element. -/
theorem Node.splits_render (node : Node) (h : node.IsWritable) :
    Splits node.render.toList node.source.tokens := by
  match node with
  | .literal text r =>
    obtain ⟨hmark, hends⟩ := r.splits_wordMark
    rw [Node.render, String.toList_append]
    exact (splits_word h.1).append hmark hends
  | .choice alternatives r =>
    obtain ⟨hclosing, hends⟩ := r.splits_closing
    -- The closing bracket ends the last word inside, and the opening one needs nothing.
    have halternatives := splits_renderAlternatives alternatives h.2.2.2
    have hinner := (halternatives.append hclosing hends).symbol
      r.enclosure.bracket.ofSymbol?_openingChar
    have htext : (Node.choice alternatives r).render.toList =
        r.enclosure.bracket.openingChar :: ((Node.renderAlternatives alternatives).toList ++
          ((if r.min = 0 then "]" else ")").toList ++ (Node.groupMark r).toList)) := by
      rw [Node.render, String.toList_append, String.toList_append, String.toList_append,
        r.toList_opening, List.append_assoc, List.append_assoc]
      rfl
    have htokens : (Node.choice alternatives r).source.tokens =
        .opening r.enclosure.bracket :: (tokensAny (sourceAny alternatives) ++ r.enclosure.closing) := by
      cases alternatives with
      | nil => exact absurd rfl h.2.2.1
      | cons first others =>
        rw [Node.source, Element.tokens, sourceAny, tokensAny, List.append_assoc]
    rw [htext, htokens]
    exact hinner
  | .dictation => exact (splits_word isWord_dictateName).symbol (c := '$') rfl
  | .wildcard => exact (splits_word isWord_wildcardName).symbol (c := '$') rfl

theorem splits_renderAlternatives (alternatives : List (List Node)) (h : AnyWritable alternatives) :
    Splits (Node.renderAlternatives alternatives).toList (tokensAny (sourceAny alternatives)) := by
  match alternatives with
  | [] => exact splits_nil
  | [sequence] =>
    rw [Node.renderAlternatives, sourceAny, tokensAny, sourceAny, tokensOthers, List.append_nil]
    exact splits_renderAll sequence h.2.1
  | first :: second :: rest =>
    have hrest := splits_renderAlternatives (second :: rest) h.2.2
    rw [Node.renderAlternatives_cons_cons, String.toList_append, String.toList_append,
      List.append_assoc]
    exact (splits_renderAll first h.2.1).append (hrest.space.symbol (c := '|') rfl).space endsWord_space

theorem splits_renderAll (nodes : List Node) (h : AllWritable nodes) :
    Splits (Node.renderAll nodes).toList (tokensAll (sourceAll nodes)) := by
  match nodes with
  | [] => exact splits_nil
  | [node] =>
    rw [Node.renderAll, sourceAll, tokensAll, sourceAll, tokensAll, List.append_nil]
    exact node.splits_render h.1
  | first :: second :: rest =>
    have hrest := splits_renderAll (second :: rest) h.2
    rw [Node.renderAll_cons_cons, String.toList_append, String.toList_append, List.append_assoc]
    exact (first.splits_render h.1).append hrest.space endsWord_space

end

/-! ## What the elements stand for -/

theorem Mark.range_wordMark? (mark : Option Mark) :
    Mark.range 4294967295 (Mark.range 4294967295 mark).wordMark? =
      Mark.range 4294967295 mark := by
  match mark with
  | none | some .plus | some .star => rfl

/-- The brackets of a choice have the range that is left of its own. -/
theorem Repeat.range_enclosure {r : Repeat} (hmin : r.min ≤ 1) (hmax : 1 ≤ r.max) :
    r.enclosure.range = r.normal := by
  obtain ⟨min, max⟩ := r
  unfold enclosure normal
  dsimp only at hmin hmax ⊢
  by_cases hzero : min = 0
  · rw [if_pos hzero, if_pos hzero]
    rfl
  · obtain rfl : min = 1 := by omega
    by_cases hmore : 1 < max
    · rw [if_neg hzero, if_neg hzero, if_pos hmore, if_pos ⟨rfl, hmore⟩]
      rfl
    · obtain rfl : max = 1 := by omega
      rfl

theorem normalAll_ne_nil {nodes : List Node} (h : nodes ≠ []) : normalAll nodes ≠ [] := by
  cases nodes with
  | nil => exact absurd rfl h
  | cons node rest => exact List.cons_ne_nil _ _

mutual

/-- **The element of a node** stands for its normal form. -/
theorem Node.nodes?_source (ht : templates.AreWritable) (node : Node) (h : node.IsWritable) :
    node.source.nodes? templates = some [node.normal] ∧
      node.source.IsWhole (HasNode templates) := by
  match node with
  | .literal text r =>
    obtain ⟨-, mark, rfl⟩ := h
    refine ⟨?_, trivial⟩
    rw [Node.source, Element.nodes?, Mark.range_wordMark?, Node.normal]
  | .choice [] r => exact absurd rfl h.2.2.1
  | .choice (first :: others) r =>
    obtain ⟨hmin, hmax, -, hne, hfirst, hothers⟩ := h
    obtain ⟨hms, hall⟩ := nodesAll?_sourceAll ht first hfirst
    obtain ⟨hos, hwhole⟩ := nodesOthers?_sourceAny ht others hothers
    refine ⟨?_, ?_, hall, hwhole⟩
    · rw [Node.source, nodes?_enclosed_iff]
      refine ⟨_, _, hms, hos, ?_⟩
      rw [Repeat.range_enclosure hmin hmax, Node.normal, normalAny]
    · rw [HasNode, hms]
      exact fun heq => normalAll_ne_nil hne (Option.some.inj heq)
  | .dictation => exact ⟨ht.dictation_eq, trivial⟩
  | .wildcard => exact ⟨ht.wildcard_eq, trivial⟩

theorem nodesAll?_sourceAll (ht : templates.AreWritable) (nodes : List Node) (h : AllWritable nodes) :
    nodesAll? templates (sourceAll nodes) = some (normalAll nodes) ∧
      AllWhole (HasNode templates) (sourceAll nodes) := by
  match nodes with
  | [] => exact ⟨rfl, trivial⟩
  | node :: rest =>
    obtain ⟨hnode, hwhole⟩ := node.nodes?_source ht h.1
    obtain ⟨hrest, hall⟩ := nodesAll?_sourceAll ht rest h.2
    exact ⟨nodesAll?_cons_iff.mpr ⟨_, _, hnode, hrest, rfl⟩, hwhole, hall⟩

theorem nodesOthers?_sourceAny (ht : templates.AreWritable) (others : List (List Node))
    (h : AnyWritable others) :
    nodesOthers? templates (sourceAny others) = some (normalAny others) ∧
      OthersWhole (HasNode templates) (sourceAny others) := by
  match others with
  | [] => exact ⟨rfl, trivial⟩
  | sequence :: rest =>
    obtain ⟨hne, hfirst, hothers⟩ := h
    obtain ⟨hms, hall⟩ := nodesAll?_sourceAll ht sequence hfirst
    obtain ⟨hos, hwhole⟩ := nodesOthers?_sourceAny ht rest hothers
    refine ⟨nodesOthers?_cons_iff.mpr ⟨_, _, hms, hos, rfl⟩, ?_, hall, hwhole⟩
    rw [HasNode, hms]
    exact fun heq => normalAll_ne_nil hne (Option.some.inj heq)

end

/-- A writable grammar is read as its normal form. -/
theorem parse_render_of_writable (ht : templates.AreWritable) {g : Sequence} (hne : g ≠ [])
    (h : AllWritable g) : parse templates (render g) = .ok (normalAll g) := by
  obtain ⟨hnodes, hwhole⟩ := nodesAll?_sourceAll ht g h
  have hnode : HasNode templates (sourceAll g) := by
    rw [HasNode, hnodes]
    exact fun heq => normalAll_ne_nil hne (Option.some.inj heq)
  exact parse_of_derivation (splits_renderAll g h).tokenize_eq
    ⟨sourceAll g, hnode, hwhole, rfl, hnodes⟩

/-- **A grammar that is written and read again** is its normal form, in any context that was defined
    from sources, and is written as before. -/
theorem parse_render {sources : List (String × String)} {source : String} {g : Sequence}
    (h : parse (.ofSources sources) source = .ok g) :
    parse (.ofSources sources) (render g) = .ok (normalAll g) ∧
      (parse (.ofSources sources) (render g)).map render = .ok (render g) := by
  have ht := Templates.areWritable_ofSources sources
  obtain ⟨hne, hwritable⟩ := writable_of_parse ht h
  have hparse := parse_render_of_writable ht hne hwritable
  refine ⟨hparse, ?_⟩
  rw [hparse, Except.map, render, renderAll_normalAll, render]

/-- A grammar with a template spliced into a choice that repeats, and with free speech. -/
def farGrammar : Sequence :=
  [.literal "go" ⟨1, 4294967295⟩,
    .choice [[.choice [[.literal "house" ⟨1, 1⟩], [.literal "café" ⟨1, 1⟩]] ⟨0, 1000⟩, .dictation],
      [.wildcard]] ⟨1, 1000⟩,
    .choice [[.dictation]] ⟨1, 4294967295⟩]

/-- It is written as `go+ ([house | café] $dictate | $wildcard)+ ($dictate)+`. -/
theorem parse_render_far :
    parse (.ofSources [("Far", "(house | café)* $Dictate")])
        "go+ ($far | $wildcard)+ $dictate+" = .ok farGrammar ∧
      parse (.ofSources [("Far", "(house | café)* $Dictate")]) (render farGrammar) =
        .ok (normalAll farGrammar) ∧
      (parse (.ofSources [("Far", "(house | café)* $Dictate")]) (render farGrammar)).map render =
        .ok (render farGrammar) := by
  have htemplate : parse .builtin "(house | café)* $Dictate" =
      .ok [.choice [[.literal "house" ⟨1, 1⟩], [.literal "café" ⟨1, 1⟩]] ⟨0, 1000⟩, .dictation] :=
    parse_eq_ok_iff_parseTokens.mpr ⟨[.opening .group, .word "house", .pipe, .word "café",
      .closing .group, .mark .star, .dollar, .word "Dictate"], rfl, rfl⟩
  have hcontext : Templates.builtin.afterSource "Far" "(house | café)* $Dictate" = _ :=
    Templates.afterSource_of_parse rfl rfl htemplate
  have hparse : parse (.ofSources [("Far", "(house | café)* $Dictate")])
      "go+ ($far | $wildcard)+ $dictate+" = .ok farGrammar := by
    rw [Templates.ofSources, List.foldl_cons, List.foldl_nil, hcontext, parse_eq_ok_iff_parseTokens]
    exact ⟨[.word "go", .mark .plus, .opening .group, .dollar, .word "far", .pipe, .dollar,
      .word "wildcard", .closing .group, .mark .plus, .dollar, .word "dictate", .mark .plus], rfl, rfl⟩
  exact ⟨hparse, parse_render hparse⟩

end SpokenCommand.Grammar
