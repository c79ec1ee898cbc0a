import Mathlib.Data.List.TakeWhile
import SpokenCommand.Json.Token
/-!
What a value is spelled like, and what its spelling is read as.

A value is written as characters, and these are first read as tokens.  The tokens that ought to come
out are those of the value itself (`Value.tokens`), and they do, wherever the value stands in a text.

1. **Strings.**  A piece is known by its first characters: only an escape begins with a backslash, and only
   the escape of a unit goes on with a `u`.  Reading the spelling of a piece therefore gives back the piece,
   whatever comes after it (`readString_piece`), as long as it is one that can be spelled
   (`Piece.IsSpelled`): a plain piece is no quote, and a unit has four hexadecimal digits.

2. **Numbers** are the only tokens without an end of their own.  What is read of one is what was written
   as long as no digit, point or exponent comes after it (`EndsNumber`).

3. **Pieces of text** with their tokens (`Lexes`) can be put together when such a character begins the
   second: after a number comes a mark or the end of the text, and marks end numbers (`mark_facts`).
-/

namespace SpokenCommand.Json

variable {c : Char} {cs cs' rest digits : List Char} {token : Token} {ts ts' : List Token}

/-! ## Strings -/

/-- A piece that has a spelling of its own. -/
def Piece.IsSpelled : Piece → Prop
  | .plain c => ¬ c.toNat < 0x20 ∧ c ≠ '\x22' ∧ c ≠ '\\'
  | .short c => c ∈ shortEscapes.map Prod.snd
  | .unit code => code < 0x10000

theorem ofShortEscape?_shortEscapeOf (h : c ∈ shortEscapes.map Prod.snd) :
    ofShortEscape? (shortEscapeOf c) = some c ∧ shortEscapeOf c ≠ 'u' := by
  simp only [shortEscapes, List.map_cons, List.map_nil, List.mem_cons, List.not_mem_nil, or_false] at h
  rcases h with rfl | rfl | rfl | rfl | rfl | rfl | rfl | rfl
  all_goals decide

theorem hexValue?_hexDigit : ∀ n, n < 16 → hexValue? (hexDigit n) = some n := by
  decide

/-- A unit is the number of its digits. -/
theorem hexValue4?_hexDigits {code : Nat} (h : code < 0x10000) :
    hexValue4? (hexDigit (code / 0x1000 % 16)) (hexDigit (code / 0x100 % 16))
      (hexDigit (code / 0x10 % 16)) (hexDigit (code % 16)) = some code := by
  have hdigit : ∀ n, hexValue? (hexDigit (n % 16)) = some (n % 16) := by
    intro n
    exact hexValue?_hexDigit (n % 16) (Nat.mod_lt n (by omega))
  have hsum : (code / 0x1000 % 16 * 16 + code / 0x100 % 16) * 256 +
      (code / 0x10 % 16 * 16 + code % 16) = code := by
    omega
  rw [hexValue4?, hdigit, hdigit, hdigit, hdigit]
  exact congrArg some hsum

/-- **A piece** is read back from its spelling. -/
theorem readString_piece {p : Piece} (h : p.IsSpelled) (cs : List Char) :
    readString (p.render ++ cs) = (readString cs).map fun (pieces, left) => (p :: pieces, left) := by
  cases p with
  | plain c =>
    obtain ⟨hcontrol, hquote, hslash⟩ := h
    show readString (c :: cs) = _
    rw [readString]
    · rw [if_neg (by simp [hcontrol, hslash])]
    · exact hquote
    · intro _ _ _ _ _ hc
      exact absurd hc hslash
    · intro _ _ hc
      exact absurd hc hslash
  | short c =>
    obtain ⟨hletter, hunit⟩ := ofShortEscape?_shortEscapeOf h
    show readString ('\\' :: shortEscapeOf c :: cs) = _
    rw [readString, hletter]
    -- the letter is not the one that begins a unit
    intro _ _ _ _ _ hu
    exact absurd hu hunit
  | unit code =>
    show readString ('\\' :: 'u' :: _ :: _ :: _ :: _ :: cs) = _
    rw [readString, hexValue4?_hexDigits h]

theorem readString_pieces {pieces : List Piece} (h : ∀ p ∈ pieces, p.IsSpelled) (rest : List Char) :
    readString (pieces.flatMap Piece.render ++ '\x22' :: rest) = some (pieces, rest) := by
  induction pieces with
  | nil => rfl
  | cons p pieces ih =>
    rw [List.forall_mem_cons] at h
    rw [List.flatMap_cons, List.append_assoc, readString_piece h.1, ih h.2]
    rfl

/-! ## Numbers -/

/-- One or more digits. -/
def IsDigits (digits : List Char) : Prop := digits ≠ [] ∧ ∀ c ∈ digits, c.isDigit = true

/-- The characters do not go on digits that are read before them. -/
def EndsDigits (cs : List Char) : Prop := ∀ c ∈ cs.head?, c.isDigit = false

/-- The characters do not go on a number that is read before them. -/
def EndsNumber (cs : List Char) : Prop :=
  ∀ c ∈ cs.head?, c.isDigit = false ∧ c ≠ '.' ∧ c ≠ 'e' ∧ c ≠ 'E'

theorem EndsNumber.endsDigits (h : EndsNumber cs) : EndsDigits cs := fun c hc => (h c hc).1

theorem EndsNumber.append (h : EndsNumber cs) (h' : EndsNumber rest) : EndsNumber (cs ++ rest) := by
  cases cs with
  | nil => exact h'
  | cons c cs => exact h

/-- A number that has a spelling: digits everywhere, and no zero before others. -/
structure Number.IsSpelled (n : Number) : Prop where
  whole : n.whole = ['0'] ∨ IsDigits n.whole ∧ n.whole.head? ≠ some '0'
  fraction : ∀ digits ∈ n.fraction, IsDigits digits
  exponent : ∀ e ∈ n.exponent, IsDigits e.2

/-- What is written for a fraction. -/
def fractionText (fraction : Option (List Char)) : List Char :=
  match fraction with
  | some digits => '.' :: digits
  | none => []

/-- What is written for an exponent. -/
def exponentText (exponent : Option (Bool × List Char)) : List Char :=
  match exponent with
  | some (isNegative, digits) => 'e' :: (if isNegative then '-' :: digits else digits)
  | none => []

/-- A number without its sign. -/
def Number.unsigned (n : Number) : List Char :=
  n.whole ++ (fractionText n.fraction ++ exponentText n.exponent)

theorem Number.render_eq (n : Number) :
    n.render = (if n.isNegative then ['-'] else []) ++ n.unsigned := by
  rw [Number.render, unsigned, List.append_assoc, List.append_assoc]
  rfl

theorem IsDigits.isDigit_of_append_eq (h : IsDigits digits) (hcons : digits ++ rest = c :: cs) :
    c.isDigit = true := by
  cases digits with
  | nil => exact absurd rfl h.1
  | cons d digits =>
    obtain ⟨rfl, -⟩ := List.cons.inj hcons
    exact h.2 d List.mem_cons_self

theorem readDigits_append (h : IsDigits digits) (hends : EndsDigits rest) :
    readDigits (digits ++ rest) = some (digits, rest) := by
  have htake : rest.takeWhile Char.isDigit = [] := by
    cases rest with
    | nil => rfl
    | cons c rest => exact List.takeWhile_cons_of_neg (by simp [hends c rfl])
  have hdrop : rest.dropWhile Char.isDigit = rest := by
    cases rest with
    | nil => rfl
    | cons c rest => exact List.dropWhile_cons_of_neg (by simp [hends c rfl])
  rw [readDigits, List.takeWhile_append_of_pos h.2, htake, List.append_nil,
    List.dropWhile_append_of_pos h.2, hdrop]
  cases digits with
  | nil => exact absurd rfl h.1
  | cons c digits => rfl

theorem readWhole_append (h : digits = ['0'] ∨ IsDigits digits ∧ digits.head? ≠ some '0')
    (hends : EndsDigits rest) : readWhole (digits ++ rest) = some (digits, rest) := by
  rcases h with rfl | ⟨hdigits, hzero⟩
  · rfl
  · rw [readWhole]
    · exact readDigits_append hdigits hends
    · intro after hafter
      cases digits with
      | nil => exact absurd rfl hdigits.1
      | cons c digits =>
        obtain ⟨rfl, -⟩ := List.cons.inj hafter
        exact absurd rfl hzero

theorem readFraction_append {fraction : Option (List Char)}
    (h : ∀ digits ∈ fraction, IsDigits digits) (hends : EndsDigits rest)
    (hpoint : rest.head? ≠ some '.') :
    readFraction (fractionText fraction ++ rest) = some (fraction, rest) := by
  cases fraction with
  | none =>
    show readFraction rest = _
    rw [readFraction]
    intro after hafter
    rw [hafter] at hpoint
    exact hpoint rfl
  | some digits =>
    show (readDigits (digits ++ rest)).map _ = _
    rw [readDigits_append (h digits rfl) hends]
    rfl

theorem readExponent_append {exponent : Option (Bool × List Char)}
    (h : ∀ e ∈ exponent, IsDigits e.2) (hends : EndsNumber rest) :
    readExponent (exponentText exponent ++ rest) = some (exponent, rest) := by
  match exponent with
  | none =>
    show readExponent rest = _
    rw [readExponent]
    · intro after hafter
      exact (hends 'e' (by rw [hafter]; rfl)).2.2.1 rfl
    · intro after hafter
      exact (hends 'E' (by rw [hafter]; rfl)).2.2.2 rfl
  | some (true, digits) =>
    show (readDigits (digits ++ rest)).map _ = _
    rw [readDigits_append (h _ rfl) hends.endsDigits]
    rfl
  | some (false, digits) =>
    have hdigits : IsDigits digits := h _ rfl
    show readExponentDigits (digits ++ rest) = _
    rw [readExponentDigits, readDigits_append hdigits hends.endsDigits]
    · rfl
    -- the digits do not begin with a sign
    · intro after hafter
      exact absurd (hdigits.isDigit_of_append_eq hafter) (by decide)
    · intro after hafter
      exact absurd (hdigits.isDigit_of_append_eq hafter) (by decide)

theorem endsDigits_fractionText (fraction : Option (List Char)) (h : EndsDigits rest) :
    EndsDigits (fractionText fraction ++ rest) := by
  cases fraction with
  | none => exact h
  | some digits =>
    intro c hc
    obtain rfl : '.' = c := Option.some.inj hc
    rfl

theorem ends_exponentText (exponent : Option (Bool × List Char)) (h : EndsNumber rest) :
    EndsDigits (exponentText exponent ++ rest) ∧
      (exponentText exponent ++ rest).head? ≠ some '.' := by
  cases exponent with
  | none => exact ⟨h.endsDigits, fun hpoint => (h '.' hpoint).2.1 rfl⟩
  | some e =>
    refine ⟨?_, (by decide : some 'e' ≠ some '.')⟩
    intro c hc
    obtain rfl : 'e' = c := Option.some.inj hc
    rfl

/-- **A number** is read back from its spelling. -/
theorem readNumber_append {n : Number} (h : n.IsSpelled) (hends : EndsNumber rest) :
    readNumber n.isNegative (n.unsigned ++ rest) = some (n, rest) := by
  obtain ⟨hexponent, hpoint⟩ := ends_exponentText n.exponent hends
  have hwhole := readWhole_append h.whole (endsDigits_fractionText n.fraction hexponent)
  have hfraction := readFraction_append h.fraction hexponent hpoint
  have hlast := readExponent_append h.exponent hends
  have htext : n.unsigned ++ rest =
      n.whole ++ (fractionText n.fraction ++ (exponentText n.exponent ++ rest)) := by
    rw [Number.unsigned, List.append_assoc, List.append_assoc]
  rw [readNumber, htext, hwhole]
  dsimp only [bind, Option.bind]
  rw [hfraction]
  dsimp only
  rw [hlast]
  rfl

/-- After its sign a number begins with a digit. -/
theorem Number.exists_unsigned {n : Number} (h : n.IsSpelled) :
    ∃ c cs, n.unsigned = c :: cs ∧ c.isDigit = true := by
  have hwhole : IsDigits n.whole := by
    rcases h.whole with hzero | ⟨hdigits, -⟩
    · rw [hzero]
      exact ⟨List.cons_ne_nil _ _, List.forall_mem_singleton.mpr rfl⟩
    · exact hdigits
  obtain ⟨c, digits, hdigits⟩ := List.exists_cons_of_ne_nil hwhole.1
  refine ⟨c, digits ++ (fractionText n.fraction ++ exponentText n.exponent), ?_, ?_⟩
  · rw [unsigned, hdigits, List.cons_append]
  · exact hwhole.2 c (hdigits ▸ List.mem_cons_self)

/-! ## Pieces of text -/

/-- Characters that are read as tokens, whatever stands before them, and after them whatever does not go
    on a number. -/
def Lexes (cs : List Char) (ts : List Token) : Prop :=
  ∀ done rest, EndsNumber rest → tokensFrom done (cs ++ rest) = tokensFrom (ts.reverse ++ done) rest

theorem tokensFrom_of_readToken (hblank : isBlank c = false)
    (h : readToken c cs = some (token, rest)) (done : List Token) :
    tokensFrom done (c :: cs) = tokensFrom (token :: done) rest := by
  rw [tokensFrom, if_neg (by simp [hblank])]
  split
  · rename_i hnone
    rw [h] at hnone
    cases hnone
  · rename_i token' rest' hsome
    rw [h] at hsome
    cases hsome
    rfl

theorem lexes_of_readToken (hblank : isBlank c = false)
    (h : ∀ rest, EndsNumber rest → readToken c (cs ++ rest) = some (token, rest)) :
    Lexes (c :: cs) [token] := by
  intro done rest hrest
  exact tokensFrom_of_readToken hblank (h rest hrest) done

theorem lexes_nil : Lexes [] [] := fun _ _ _ => rfl

theorem Lexes.append (h : Lexes cs ts) (h' : Lexes cs' ts') (hends : EndsNumber cs') :
    Lexes (cs ++ cs') (ts ++ ts') := by
  intro done rest hrest
  rw [List.append_assoc, h done _ (hends.append hrest), h' _ rest hrest, List.reverse_append,
    List.append_assoc]

/-- The marks and their tokens. -/
def marks : List (Char × Token) :=
  [('\x7b', .beginObject), ('\x7d', .endObject), ('[', .beginArray), (']', .endArray), (':', .colon),
    (',', .comma)]

/-- A mark stands for itself, and ends a number before it. -/
theorem mark_facts (h : (c, token) ∈ marks) :
    isBlank c = false ∧ (∀ cs, readToken c cs = some (token, cs)) ∧ ∀ cs, EndsNumber (c :: cs) := by
  have hends : ∀ {d : Char}, (d.isDigit = false ∧ d ≠ '.' ∧ d ≠ 'e' ∧ d ≠ 'E') →
      ∀ cs, EndsNumber (d :: cs) := by
    intro d hd cs d' hd'
    obtain rfl : d = d' := Option.some.inj hd'
    exact hd
  simp only [marks, List.mem_cons, Prod.mk.injEq, List.not_mem_nil, or_false] at h
  rcases h with ⟨rfl, rfl⟩ | ⟨rfl, rfl⟩ | ⟨rfl, rfl⟩ | ⟨rfl, rfl⟩ | ⟨rfl, rfl⟩ | ⟨rfl, rfl⟩
  all_goals exact ⟨by decide, fun cs => rfl, hends (by decide)⟩

theorem Lexes.mark (h : Lexes cs ts) (hmark : (c, token) ∈ marks) : Lexes (c :: cs) (token :: ts) := by
  intro done rest hrest
  obtain ⟨hblank, hread, -⟩ := mark_facts hmark
  rw [List.cons_append, tokensFrom_of_readToken hblank (hread (cs ++ rest)), h _ rest hrest,
    List.reverse_cons, List.append_assoc]
  rfl

/-- Two pieces with a mark between them. -/
theorem Lexes.separate (h : Lexes cs ts) (hmark : (c, token) ∈ marks) (h' : Lexes cs' ts') :
    Lexes (cs ++ c :: cs') (ts ++ token :: ts') :=
  h.append (h'.mark hmark) ((mark_facts hmark).2.2 cs')

theorem lexes_string {pieces : List Piece} (h : ∀ p ∈ pieces, p.IsSpelled) :
    Lexes (renderString pieces) [.string pieces] := by
  refine lexes_of_readToken (by decide) ?_
  intro rest _
  have htext : pieces.flatMap Piece.render ++ ['\x22'] ++ rest =
      pieces.flatMap Piece.render ++ '\x22' :: rest := List.append_assoc _ _ _
  show (readString (pieces.flatMap Piece.render ++ ['\x22'] ++ rest)).map _ = _
  rw [htext, readString_pieces h]
  rfl

theorem readToken_of_isDigit (h : c.isDigit = true) (cs : List Char) :
    readToken c cs = (readNumber false (c :: cs)).map fun (n, left) => (.number n, left) := by
  unfold readToken
  split
  case h_12 => rw [if_pos h]
  all_goals exact absurd h (by decide)

theorem isBlank_of_isDigit (h : c.isDigit = true) : isBlank c = false := by
  rw [Bool.eq_false_iff]
  intro hblank
  simp only [isBlank, Bool.or_eq_true, decide_eq_true_eq] at hblank
  rcases hblank with ((rfl | rfl) | rfl) | rfl
  all_goals exact absurd h (by decide)

theorem lexes_number {n : Number} (h : n.IsSpelled) : Lexes n.render [.number n] := by
  have hread : ∀ rest, EndsNumber rest →
      readNumber n.isNegative (n.unsigned ++ rest) = some (n, rest) := by
    intro rest hrest
    exact readNumber_append h hrest
  rw [n.render_eq]
  cases hsign : n.isNegative with
  | true =>
    rw [hsign] at hread
    refine lexes_of_readToken (by decide) ?_
    intro rest hrest
    show (readNumber true (n.unsigned ++ rest)).map _ = _
    rw [hread rest hrest]
    rfl
  | false =>
    obtain ⟨c, cs, hunsigned, hdigit⟩ := n.exists_unsigned h
    rw [hsign, hunsigned] at hread
    rw [hunsigned]
    refine lexes_of_readToken (isBlank_of_isDigit hdigit) ?_
    intro rest hrest
    rw [readToken_of_isDigit hdigit, ← List.cons_append, hread rest hrest]
    rfl

/-! ## Values -/

mutual

/-- The tokens of a value. -/
def Value.tokens : Value → List Token
  | .null => [.null]
  | .bool b => [.bool b]
  | .number n => [.number n]
  | .string pieces => [.string pieces]
  | .array items => .beginArray :: (itemTokens items ++ [.endArray])
  | .object members => .beginObject :: (memberTokens members ++ [.endObject])

/-- The tokens of the items of an array, with commas between them. -/
def itemTokens : List Value → List Token
  | [] => []
  | [item] => item.tokens
  | item :: rest => item.tokens ++ .comma :: itemTokens rest

/-- The tokens of the members of an object, with commas between them. -/
def memberTokens : List (List Piece × Value) → List Token
  | [] => []
  | [(key, value)] => .string key :: .colon :: value.tokens
  | (key, value) :: rest => .string key :: .colon :: (value.tokens ++ .comma :: memberTokens rest)

end

mutual

/-- All strings and numbers of a value have spellings. -/
def Value.IsSpelled : Value → Prop
  | .null => True
  | .bool _ => True
  | .number n => n.IsSpelled
  | .string pieces => ∀ p ∈ pieces, p.IsSpelled
  | .array items => AreSpelled items
  | .object members => MembersAreSpelled members

/-- All values of a list have spellings. -/
def AreSpelled : List Value → Prop
  | [] => True
  | item :: rest => item.IsSpelled ∧ AreSpelled rest

/-- All keys and values of members have spellings. -/
def MembersAreSpelled : List (List Piece × Value) → Prop
  | [] => True
  | (key, value) :: rest => (∀ p ∈ key, p.IsSpelled) ∧ value.IsSpelled ∧ MembersAreSpelled rest

end

theorem areSpelled_iff {items : List Value} : AreSpelled items ↔ ∀ item ∈ items, item.IsSpelled := by
  induction items with
  | nil => simp [AreSpelled]
  | cons item items ih => rw [AreSpelled, ih, List.forall_mem_cons]

theorem membersAreSpelled_iff {members : List (List Piece × Value)} :
    MembersAreSpelled members ↔ ∀ m ∈ members, (∀ p ∈ m.1, p.IsSpelled) ∧ m.2.IsSpelled := by
  induction members with
  | nil => simp [MembersAreSpelled]
  | cons m members ih => rw [MembersAreSpelled, ih, List.forall_mem_cons, and_assoc]

theorem renderItems_cons_cons (first second : Value) (rest : List Value) :
    renderItems (first :: second :: rest) = first.render ++ ',' :: renderItems (second :: rest) := by
  rw [renderItems]
  exact fun h => List.cons_ne_nil _ _ h

theorem itemTokens_cons_cons (first second : Value) (rest : List Value) :
    itemTokens (first :: second :: rest) = first.tokens ++ .comma :: itemTokens (second :: rest) := by
  rw [itemTokens]
  exact fun h => List.cons_ne_nil _ _ h

theorem renderMembers_cons_cons (key : List Piece) (value : Value) (second : List Piece × Value)
    (rest : List (List Piece × Value)) :
    renderMembers ((key, value) :: second :: rest) =
      renderString key ++ ':' :: (value.render ++ ',' :: renderMembers (second :: rest)) := by
  rw [renderMembers, List.append_assoc]
  · rfl
  · exact fun h => List.cons_ne_nil _ _ h

theorem memberTokens_cons_cons (key : List Piece) (value : Value) (second : List Piece × Value)
    (rest : List (List Piece × Value)) :
    memberTokens ((key, value) :: second :: rest) =
      .string key :: .colon :: (value.tokens ++ .comma :: memberTokens (second :: rest)) := by
  rw [memberTokens]
  exact fun h => List.cons_ne_nil _ _ h

mutual

/-- **A value** is read as its tokens. -/
theorem Value.lexes_render (value : Value) (h : value.IsSpelled) : Lexes value.render value.tokens := by
  match value with
  | .null => exact lexes_of_readToken (by decide) fun _ _ => rfl
  | .bool true => exact lexes_of_readToken (by decide) fun _ _ => rfl
  | .bool false => exact lexes_of_readToken (by decide) fun _ _ => rfl
  | .number n => exact lexes_number h
  | .string pieces => exact lexes_string h
  | .array items =>
    have hinner : Lexes (renderItems items ++ [']']) (itemTokens items ++ [.endArray]) :=
      (lexes_renderItems items h).separate (by simp [marks]) lexes_nil
    exact hinner.mark (by simp [marks])
  | .object members =>
    have hinner : Lexes (renderMembers members ++ ['\x7d']) (memberTokens members ++ [.endObject]) :=
      (lexes_renderMembers members h).separate (by simp [marks]) lexes_nil
    exact hinner.mark (by simp [marks])

theorem lexes_renderItems (items : List Value) (h : AreSpelled items) :
    Lexes (renderItems items) (itemTokens items) := by
  match items with
  | [] => exact lexes_nil
  | [item] => exact item.lexes_render h.1
  | first :: second :: rest =>
    have hrest := lexes_renderItems (second :: rest) h.2
    rw [renderItems_cons_cons, itemTokens_cons_cons]
    exact (first.lexes_render h.1).separate (by simp [marks]) hrest

theorem lexes_renderMembers (members : List (List Piece × Value)) (h : MembersAreSpelled members) :
    Lexes (renderMembers members) (memberTokens members) := by
  match members with
  | [] => exact lexes_nil
  | [(key, value)] =>
    exact (lexes_string h.1).separate (by simp [marks]) (value.lexes_render h.2.1)
  | (key, value) :: second :: rest =>
    have hrest := lexes_renderMembers (second :: rest) h.2.2
    rw [renderMembers_cons_cons, memberTokens_cons_cons]
    exact (lexes_string h.1).separate (by simp [marks])
      ((value.lexes_render h.2.1).separate (by simp [marks]) hrest)

end

/-- **A text** that spells a value has the tokens of the value. -/
theorem tokens_render {value : Value} (h : value.IsSpelled) :
    tokens (String.ofList value.render) = some value.tokens := by
  have hlexes := value.lexes_render h [] [] nofun
  rw [List.append_nil, List.append_nil] at hlexes
  rw [tokens, String.toList_ofList, hlexes, tokensFrom, List.reverse_reverse]

end SpokenCommand.Json
