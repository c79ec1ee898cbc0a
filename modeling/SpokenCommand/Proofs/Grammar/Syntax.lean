import Mathlib.Logic.Function.Basic
import SpokenCommand.Grammar.Parser
/-!
The notation of grammars, as trees.

A grammar is written as a list of ELEMENTS.  The trees here say what the notation is without saying how
it is read: how an element is written (`tokens`), and what it stands for in a context of templates
(`nodes?`), which is nothing when it refers to a name that is not defined or marks what cannot be
marked.

1. **Sequences.**  The notation has `sequence := element+`, at the top and between brackets.  Which lists
   of elements count as sequences is a parameter (`isSequence`), because there are two answers:
   the lists that have an element (`HasElement`), and the lists that stand for a node
   (`HasNode`).  They differ where a template is empty.

2. **Derivations.**  A derivation of a list of tokens is a list of elements that is written so and is
   made of sequences throughout.

3. **The crux (`tokensAll_injective`)** is that no two lists of elements are written alike.  An element
   ends where no mark follows, and a list of elements where no element starts; between brackets that is
   at a bar or at the closing bracket.
-/

namespace SpokenCommand.Grammar

/-- A pair of brackets as it is written: round ones, which may have a mark, or square ones, which may
    not. -/
inductive Enclosure where
  | round (mark : Option Mark)
  | square

/-- What a grammar is written as a list of. -/
inductive Element where
  | word (text : String) (mark : Option Mark)
  | /-- One or more alternatives between brackets. -/
    enclosed (enclosure : Enclosure) (first : List Element) (others : List (List Element))
  | reference (name : String) (mark : Option Mark)

/-! ## How elements are written -/

/-- A mark as it is written, if there is one. -/
def Mark.tokens (mark : Option Mark) : List Token := mark.toList.map .mark

namespace Enclosure

def bracket : Enclosure → Bracket
  | round _ => .group
  | square => .optional

def mark : Enclosure → Option Mark
  | round mark => mark
  | square => none

/-- How an enclosure ends. -/
def closing (e : Enclosure) : List Token := .closing e.bracket :: Mark.tokens e.mark

end Enclosure

mutual

/-- How an element is written. -/
def Element.tokens : Element → List Token
  | .word text mark => .word text :: Mark.tokens mark
  | .enclosed enclosure first others =>
    .opening enclosure.bracket :: (tokensAll first ++ (tokensOthers others ++ enclosure.closing))
  | .reference name mark => .dollar :: .word name :: Mark.tokens mark

/-- How elements after one another are written. -/
def tokensAll : List Element → List Token
  | [] => []
  | element :: rest => element.tokens ++ tokensAll rest

/-- How the alternatives after the first one are written. -/
def tokensOthers : List (List Element) → List Token
  | [] => []
  | sequence :: rest => .pipe :: (tokensAll sequence ++ tokensOthers rest)

end

/-! ## What elements stand for -/

/-- The range that a mark stands for, where `max` is the upper end of both marks. -/
def Mark.range (max : Nat) : Option Mark → Repeat
  | none => ⟨1, 1⟩
  | some plus => ⟨1, max⟩
  | some star => ⟨0, max⟩

/-- The range that an enclosure stands for. -/
def Enclosure.range : Enclosure → Repeat
  | round mark => Mark.range 1000 mark
  | square => ⟨0, 1⟩

/-- A template in a range, if it can be in one: its leading node, if it has one, must occur exactly
    once.  A single literal or choice takes the range, and any other template is the alternative of a
    choice that does. -/
def ranged? (r : Repeat) (template : Sequence) : Option Sequence :=
  if template.head?.all (·.repeats = ⟨1, 1⟩) then
    match template with
    | [.literal text _] => some [.literal text r]
    | [.choice alternatives _] => some [.choice alternatives r]
    | _ => some [.choice [template] r]
  else none

section Meaning

variable (templates : Templates)

mutual

/-- The nodes that an element stands for. -/
def Element.nodes? : Element → Option Sequence
  | .word text mark => some [.literal text (Mark.range 4294967295 mark)]
  | .enclosed enclosure first others => do
    let head ← nodesAll? first
    let tail ← nodesOthers? others
    return [.choice (head :: tail) enclosure.range]
  | .reference name none => templates.lookup name
  | .reference name (some mark) =>
    (templates.lookup name).bind (ranged? (Mark.range 4294967295 mark))

/-- The nodes that elements after one another stand for. -/
def nodesAll? : List Element → Option Sequence
  | [] => some []
  | element :: rest => do
    let head ← element.nodes?
    let tail ← nodesAll? rest
    return head ++ tail

/-- The sequences that the alternatives after the first one stand for. -/
def nodesOthers? : List (List Element) → Option (List Sequence)
  | [] => some []
  | sequence :: rest => do
    let head ← nodesAll? sequence
    let tail ← nodesOthers? rest
    return head :: tail

end

end Meaning

theorem nodes?_enclosed_iff {templates : Templates} {enclosure : Enclosure} {first : List Element}
    {others : List (List Element)} {nodes : Sequence} :
    (Element.enclosed enclosure first others).nodes? templates = some nodes ↔
      ∃ head tail, nodesAll? templates first = some head ∧ nodesOthers? templates others = some tail ∧
        [.choice (head :: tail) enclosure.range] = nodes := by
  simp [Element.nodes?, Option.bind_eq_some_iff]

theorem nodesAll?_cons_iff {templates : Templates} {e : Element} {rest : List Element}
    {nodes : Sequence} :
    nodesAll? templates (e :: rest) = some nodes ↔
      ∃ head tail, e.nodes? templates = some head ∧ nodesAll? templates rest = some tail ∧
        head ++ tail = nodes := by
  simp [nodesAll?, Option.bind_eq_some_iff]

theorem nodesOthers?_cons_iff {templates : Templates} {elements : List Element}
    {rest : List (List Element)} {sequences : List Sequence} :
    nodesOthers? templates (elements :: rest) = some sequences ↔
      ∃ head tail, nodesAll? templates elements = some head ∧
        nodesOthers? templates rest = some tail ∧ head :: tail = sequences := by
  simp [nodesOthers?, Option.bind_eq_some_iff]

/-! ## Sequences -/

section Sequences

variable (isSequence : List Element → Prop)

mutual

/-- All alternatives in an element, at every depth, are sequences. -/
def Element.IsWhole : Element → Prop
  | .word _ _ => True
  | .enclosed _ first others => isSequence first ∧ AllWhole first ∧ OthersWhole others
  | .reference _ _ => True

/-- All alternatives in some elements are sequences. -/
def AllWhole : List Element → Prop
  | [] => True
  | element :: rest => element.IsWhole ∧ AllWhole rest

/-- The alternatives after the first one, and all alternatives in them, are sequences. -/
def OthersWhole : List (List Element) → Prop
  | [] => True
  | sequence :: rest => isSequence sequence ∧ AllWhole sequence ∧ OthersWhole rest

end

end Sequences

/-- The elements are one or more. -/
def HasElement (elements : List Element) : Prop := elements ≠ []

/-- The elements stand for one or more nodes, if they stand for anything. -/
def HasNode (templates : Templates) (elements : List Element) : Prop :=
  nodesAll? templates elements ≠ some []

/-- A derivation of tokens: elements that are written as the tokens, are made of sequences throughout,
    and stand for a grammar. -/
structure Derivation (isSequence : List Element → Prop) (templates : Templates)
    (tokens : List Token) (sequence : Sequence) where
  elements : List Element
  isSequence_elements : isSequence elements
  allWhole : AllWhole isSequence elements
  tokens_eq : tokensAll elements = tokens
  nodes_eq : nodesAll? templates elements = some sequence

mutual

theorem Element.IsWhole.mono {p q : List Element → Prop} (h : ∀ elements, p elements → q elements)
    {e : Element} (he : e.IsWhole p) : e.IsWhole q := by
  match e with
  | .word _ _ => exact trivial
  | .enclosed _ first others => exact ⟨h _ he.1, he.2.1.mono h, he.2.2.mono h⟩
  | .reference _ _ => exact trivial

theorem AllWhole.mono {p q : List Element → Prop} (h : ∀ elements, p elements → q elements)
    {elements : List Element} (he : AllWhole p elements) : AllWhole q elements := by
  match elements with
  | [] => exact trivial
  | element :: rest => exact ⟨he.1.mono h, AllWhole.mono h he.2⟩

theorem OthersWhole.mono {p q : List Element → Prop} (h : ∀ elements, p elements → q elements)
    {others : List (List Element)} (he : OthersWhole p others) : OthersWhole q others := by
  match others with
  | [] => exact trivial
  | sequence :: rest => exact ⟨h _ he.1, he.2.1.mono h, OthersWhole.mono h he.2.2⟩

end

/-- A derivation by a stricter notion of sequences is one by a laxer notion. -/
def Derivation.mono {p q : List Element → Prop} (h : ∀ elements, p elements → q elements)
    {templates : Templates} {tokens : List Token} {sequence : Sequence}
    (d : Derivation p templates tokens sequence) : Derivation q templates tokens sequence :=
  { d with
    isSequence_elements := h _ d.isSequence_elements
    allWhole := d.allWhole.mono h }

/-! ## No two lists of elements are written alike -/

/-- Whether an element can start with a token. -/
def Token.starts : Token → Bool
  | word _ => true
  | opening _ => true
  | dollar => true
  | _ => false

/-- The tokens do not go on with a mark. -/
def Unmarked (tokens : List Token) : Prop := ∀ t ∈ tokens.head?, t.isMark = false

/-- The tokens do not go on with a mark or an element. -/
def Stops (tokens : List Token) : Prop :=
  ∀ t ∈ tokens.head?, t.isMark = false ∧ t.starts = false

theorem Stops.unmarked {tokens : List Token} (h : Stops tokens) : Unmarked tokens :=
  fun t ht => (h t ht).1

theorem stops_nil : Stops [] := nofun

theorem stops_closing (e : Enclosure) (rest : List Token) : Stops (e.closing ++ rest) := by
  intro t ht
  obtain rfl : Token.closing e.bracket = t := Option.some.inj ht
  exact ⟨rfl, rfl⟩

theorem stops_others {others : List (List Element)} {rest : List Token} (h : Stops rest) :
    Stops (tokensOthers others ++ rest) := by
  cases others with
  | nil => exact h
  | cons sequence others =>
    intro t ht
    obtain rfl : Token.pipe = t := Option.some.inj ht
    exact ⟨rfl, rfl⟩

/-- An element starts with a token that starts one. -/
theorem Element.exists_tokens_eq (e : Element) : ∃ t rest, e.tokens = t :: rest ∧ t.starts = true := by
  match e with
  | .word text mark => exact ⟨_, _, rfl, rfl⟩
  | .enclosed enclosure first others => exact ⟨_, _, rfl, rfl⟩
  | .reference name mark => exact ⟨_, _, rfl, rfl⟩

theorem isMark_of_starts {t : Token} (h : t.starts = true) : t.isMark = false := by
  cases t <;> first | rfl | cases h

/-- Elements never go on with a mark of their own. -/
theorem unmarked_all {elements : List Element} {rest : List Token} (h : Unmarked rest) :
    Unmarked (tokensAll elements ++ rest) := by
  cases elements with
  | nil => exact h
  | cons e elements =>
    obtain ⟨t, tail, htokens, hstarts⟩ := e.exists_tokens_eq
    rw [tokensAll, htokens]
    intro u hu
    obtain rfl : t = u := Option.some.inj hu
    exact isMark_of_starts hstarts

theorem Mark.tokens_inj {mark mark' : Option Mark} {rest rest' : List Token} (h : Unmarked rest)
    (h' : Unmarked rest') (heq : Mark.tokens mark ++ rest = Mark.tokens mark' ++ rest') :
    mark = mark' ∧ rest = rest' := by
  match mark, mark' with
  | none, none => exact ⟨rfl, heq⟩
  | none, some m =>
    obtain rfl : rest = .mark m :: rest' := heq
    cases h _ rfl
  | some m, none =>
    obtain rfl : .mark m :: rest = rest' := heq
    cases h' _ rfl
  | some m, some m' =>
    obtain ⟨hmark, hrest⟩ := List.cons.inj heq
    exact ⟨congrArg some (Token.mark.inj hmark), hrest⟩

theorem Enclosure.closing_inj {e e' : Enclosure} {rest rest' : List Token} (h : Unmarked rest)
    (h' : Unmarked rest') (heq : e.closing ++ rest = e'.closing ++ rest') :
    e = e' ∧ rest = rest' := by
  obtain ⟨hbracket, htail⟩ := List.cons.inj heq
  obtain ⟨hmark, hrest⟩ := Mark.tokens_inj h h' htail
  refine ⟨?_, hrest⟩
  match e, e' with
  | round _, round _ => exact congrArg round hmark
  | round _, square => cases hbracket
  | square, round _ => cases hbracket
  | square, square => rfl

mutual

/-- **What is written for an element** is written for no other one, whatever follows. -/
theorem Element.tokens_inj {e e' : Element} {rest rest' : List Token} (h : Unmarked rest)
    (h' : Unmarked rest') (heq : e.tokens ++ rest = e'.tokens ++ rest') :
    e = e' ∧ rest = rest' := by
  match e, e' with
  | .word text mark, .word text' mark' =>
    obtain ⟨htext, htail⟩ := List.cons.inj heq
    obtain ⟨rfl, hrest⟩ := Mark.tokens_inj h h' htail
    obtain rfl := Token.word.inj htext
    exact ⟨rfl, hrest⟩
  | .word _ _, .enclosed _ _ _ => cases (List.cons.inj heq).1
  | .word _ _, .reference _ _ => cases (List.cons.inj heq).1
  | .enclosed _ _ _, .word _ _ => cases (List.cons.inj heq).1
  | .enclosed enclosure first others, .enclosed enclosure' first' others' =>
    rw [Element.tokens, Element.tokens, List.cons_append, List.cons_append, List.append_assoc,
      List.append_assoc, List.append_assoc, List.append_assoc] at heq
    have htail := (List.cons.inj heq).2
    -- The first alternative ends at a bar or at the closing bracket, whichever comes.
    have hstop := stops_closing enclosure rest
    have hstop' := stops_closing enclosure' rest'
    obtain ⟨rfl, hothers⟩ := tokensAll_inj (stops_others hstop) (stops_others hstop') htail
    obtain ⟨rfl, hclosing⟩ := tokensOthers_inj hothers
    obtain ⟨rfl, hrest⟩ := Enclosure.closing_inj h h' hclosing
    exact ⟨rfl, hrest⟩
  | .enclosed _ _ _, .reference _ _ => cases (List.cons.inj heq).1
  | .reference _ _, .word _ _ => cases (List.cons.inj heq).1
  | .reference _ _, .enclosed _ _ _ => cases (List.cons.inj heq).1
  | .reference name mark, .reference name' mark' =>
    obtain ⟨-, htail⟩ := List.cons.inj heq
    obtain ⟨hname, htail⟩ := List.cons.inj htail
    obtain ⟨rfl, hrest⟩ := Mark.tokens_inj h h' htail
    obtain rfl := Token.word.inj hname
    exact ⟨rfl, hrest⟩

theorem tokensAll_inj {elements elements' : List Element} {rest rest' : List Token} (h : Stops rest)
    (h' : Stops rest') (heq : tokensAll elements ++ rest = tokensAll elements' ++ rest') :
    elements = elements' ∧ rest = rest' := by
  match elements, elements' with
  | [], [] => exact ⟨rfl, heq⟩
  | [], e :: _ =>
    obtain ⟨t, tail, htokens, hstarts⟩ := e.exists_tokens_eq
    rw [tokensAll, tokensAll, htokens] at heq
    rw [show rest = t :: (tail ++ _ ++ rest') from heq] at h
    cases hstarts.symm.trans (h t rfl).2
  | e :: _, [] =>
    obtain ⟨t, tail, htokens, hstarts⟩ := e.exists_tokens_eq
    rw [tokensAll, tokensAll, htokens] at heq
    rw [show rest' = t :: (tail ++ _ ++ rest) from heq.symm] at h'
    cases hstarts.symm.trans (h' t rfl).2
  | e :: tail, e' :: tail' =>
    rw [tokensAll, tokensAll, List.append_assoc, List.append_assoc] at heq
    -- What follows the first element is another one, or where the elements end, but never a mark.
    obtain ⟨rfl, htail⟩ :=
      Element.tokens_inj (unmarked_all h.unmarked) (unmarked_all h'.unmarked) heq
    obtain ⟨rfl, hrest⟩ := tokensAll_inj h h' htail
    exact ⟨rfl, hrest⟩

theorem tokensOthers_inj {others others' : List (List Element)} {e e' : Enclosure}
    {rest rest' : List Token}
    (heq : tokensOthers others ++ (e.closing ++ rest) =
      tokensOthers others' ++ (e'.closing ++ rest')) :
    others = others' ∧ e.closing ++ rest = e'.closing ++ rest' := by
  match others, others' with
  | [], [] => exact ⟨rfl, heq⟩
  | [], _ :: _ => cases (List.cons.inj heq).1
  | _ :: _, [] => cases (List.cons.inj heq).1
  | sequence :: tail, sequence' :: tail' =>
    rw [tokensOthers, tokensOthers, List.cons_append, List.cons_append, List.append_assoc,
      List.append_assoc] at heq
    have htail := (List.cons.inj heq).2
    have hstop := stops_closing e rest
    have hstop' := stops_closing e' rest'
    obtain ⟨rfl, hothers⟩ := tokensAll_inj (stops_others hstop) (stops_others hstop') htail
    obtain ⟨rfl, hrest⟩ := tokensOthers_inj hothers
    exact ⟨rfl, hrest⟩

end

/-- **The notation is unambiguous.** -/
theorem tokensAll_injective : Function.Injective tokensAll := by
  intro elements elements' heq
  refine (tokensAll_inj stops_nil stops_nil ?_).1
  rw [heq]

/-- Two derivations of the same tokens are the same, and so are the grammars. -/
theorem Derivation.unique {p q : List Element → Prop} {templates : Templates} {tokens : List Token}
    {sequence sequence' : Sequence} (d : Derivation p templates tokens sequence)
    (d' : Derivation q templates tokens sequence') :
    d.elements = d'.elements ∧ sequence = sequence' := by
  have helements : d.elements = d'.elements :=
    tokensAll_injective (d.tokens_eq.trans d'.tokens_eq.symm)
  refine ⟨helements, Option.some.inj ?_⟩
  rw [← d.nodes_eq, helements, d'.nodes_eq]

end SpokenCommand.Grammar
