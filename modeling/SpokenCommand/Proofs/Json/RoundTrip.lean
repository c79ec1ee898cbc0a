import SpokenCommand.Json.Reader
import SpokenCommand.Proofs.Json.Spelling
/-!
A value that is written is read again.

The reader goes over the tokens with a list of frames.  On the tokens of a value it does what one step
would do: it holds the value, with the frames as they were (`Value.readFrom_tokens`).  This is shown for
any frames and any tokens behind, and for a container that is part way through, whose items so far are in
its frame.

The one token that does not decide a step is the comma, after which the reader looks for a key and its
colon.  An item that is a string looks like a key at first, but no colon comes after an item
(`BeginsItem`).

A text is written one piece for each character, and the piece stands for that character alone, whatever
comes after it (`decode_pieceOf`): surrogates are no characters, so no piece is half of a pair.
-/

namespace SpokenCommand.Json

variable {frames : List Frame} {items : List Value} {value : Value} {ts : List Token}

/-! ## Steps of the reader -/

/-- The tokens begin neither with the end of an array nor with a key. -/
def BeginsItem (ts : List Token) : Prop :=
  ts.head? ≠ some .endArray ∧ ∀ key rest, ts ≠ .string key :: .colon :: rest

/-- A value begins an item, unless a colon comes after it. -/
theorem beginsItem_tokens (value : Value) (hcolon : ts.head? ≠ some .colon) :
    BeginsItem (value.tokens ++ ts) := by
  have hother : ∀ {token : Token} {rest : List Token}, token ≠ .endArray →
      (∀ pieces, token ≠ .string pieces) → BeginsItem (token :: rest) := by
    intro token rest hend hstring
    refine ⟨fun hhead => hend (Option.some.inj hhead), ?_⟩
    intro key rest' heq
    exact hstring key (List.cons.inj heq).1
  cases value with
  | null => exact hother nofun nofun
  | bool b => exact hother nofun nofun
  | number n => exact hother nofun nofun
  | array items => exact hother nofun nofun
  | object members => exact hother nofun nofun
  | string pieces =>
    refine ⟨nofun, ?_⟩
    intro key rest heq
    obtain ⟨-, hrest⟩ := List.cons.inj heq
    exact hcolon (congrArg List.head? hrest)

theorem beginsItem_itemTokens (first : Value) (rest : List Value) (ts : List Token) :
    BeginsItem (itemTokens (first :: rest) ++ .endArray :: ts) := by
  cases rest with
  | nil => exact beginsItem_tokens first nofun
  | cons second rest =>
    rw [itemTokens_cons_cons, List.append_assoc]
    exact beginsItem_tokens first nofun

theorem readFrom_beginArray (h : BeginsItem ts) :
    readFrom frames none (.beginArray :: ts) = readFrom (.array [] :: frames) none ts := by
  rw [readFrom]
  intro rest heq
  exact h.1 (congrArg List.head? heq)

theorem readFrom_comma_item (h : BeginsItem ts) :
    readFrom (.array items :: frames) (some value) (.comma :: ts) =
      readFrom (.array (value :: items) :: frames) none ts := by
  rw [readFrom]
  intro key rest heq
  exact h.2 key rest heq

/-! ## Values -/

theorem memberTokens_cons (key : List Piece) (value : Value) (rest : List (List Piece × Value)) :
    memberTokens ((key, value) :: rest) =
      .string key :: .colon :: (memberTokens ((key, value) :: rest)).drop 2 := by
  cases rest with
  | nil => rfl
  | cons second rest =>
    rw [memberTokens_cons_cons]
    rfl

mutual

/-- **The tokens of a value** are read as the value. -/
theorem Value.readFrom_tokens (value : Value) (frames : List Frame) (ts : List Token) :
    readFrom frames none (value.tokens ++ ts) = readFrom frames (some value) ts := by
  match value with
  | .null => rw [Value.tokens, List.singleton_append, readFrom]
  | .bool b => rw [Value.tokens, List.singleton_append, readFrom]
  | .number n => rw [Value.tokens, List.singleton_append, readFrom]
  | .string pieces => rw [Value.tokens, List.singleton_append, readFrom]
  | .array [] => rfl
  | .array (first :: rest) =>
    have htokens : (Value.array (first :: rest)).tokens ++ ts =
        .beginArray :: (itemTokens (first :: rest) ++ .endArray :: ts) := by
      rw [Value.tokens, List.cons_append, List.append_assoc, List.singleton_append]
    rw [htokens, readFrom_beginArray (beginsItem_itemTokens first rest ts)]
    exact readFrom_items first rest [] frames ts
  | .object [] => rfl
  | .object ((key, value) :: rest) =>
    have htokens : (Value.object ((key, value) :: rest)).tokens ++ ts =
        .beginObject :: .string key :: .colon ::
          ((memberTokens ((key, value) :: rest)).drop 2 ++ .endObject :: ts) := by
      rw [Value.tokens, memberTokens_cons, List.cons_append, List.append_assoc, List.singleton_append]
      rfl
    rw [htokens, readFrom]
    exact readFrom_members key value rest [] frames ts
termination_by sizeOf value

/-- The rest of the items of an array. -/
theorem readFrom_items (first : Value) (rest items : List Value) (frames : List Frame)
    (ts : List Token) :
    readFrom (.array items :: frames) none (itemTokens (first :: rest) ++ .endArray :: ts) =
      readFrom frames (some (.array (items.reverse ++ first :: rest))) ts := by
  match rest with
  | [] =>
    rw [itemTokens, first.readFrom_tokens, readFrom, List.reverse_cons]
  | second :: rest =>
    have hrest := readFrom_items second rest (first :: items) frames ts
    rw [List.reverse_cons, List.append_assoc, List.singleton_append] at hrest
    rw [itemTokens_cons_cons, List.append_assoc, first.readFrom_tokens, List.cons_append,
      readFrom_comma_item (beginsItem_itemTokens second rest ts), hrest]
termination_by sizeOf first + sizeOf rest

/-- The rest of the members of an object, after a key that has been read. -/
theorem readFrom_members (key : List Piece) (value : Value) (rest members : List (List Piece × Value))
    (frames : List Frame) (ts : List Token) :
    readFrom (.object members key :: frames) none
        ((memberTokens ((key, value) :: rest)).drop 2 ++ .endObject :: ts) =
      readFrom frames (some (.object (members.reverse ++ (key, value) :: rest))) ts := by
  match rest with
  | [] =>
    show readFrom _ none (value.tokens ++ .endObject :: ts) = _
    rw [value.readFrom_tokens, readFrom, List.reverse_cons]
  | (key', value') :: rest =>
    have hrest := readFrom_members key' value' rest ((key, value) :: members) frames ts
    rw [List.reverse_cons, List.append_assoc, List.singleton_append] at hrest
    rw [memberTokens_cons_cons]
    show readFrom _ none (value.tokens ++ .comma :: memberTokens ((key', value') :: rest) ++ _) = _
    rw [List.append_assoc, value.readFrom_tokens, List.cons_append, memberTokens_cons,
      List.cons_append, List.cons_append, readFrom, hrest]
termination_by sizeOf value + sizeOf rest

end

/-- **Writing and reading**: a value whose strings and numbers have spellings is read from its compact
    form. -/
theorem read_render {value : Value} (h : value.IsSpelled) :
    read (String.ofList value.render) = some value := by
  have hread := value.readFrom_tokens [] []
  rw [List.append_nil] at hread
  rw [read, tokens_render h]
  exact hread

/-! ## Texts -/

/-- A character has a spelling. -/
theorem isSpelled_pieceOf (c : Char) : (pieceOf c).IsSpelled := by
  rw [pieceOf]
  split
  · rename_i hshort
    show c ∈ shortEscapes.map Prod.snd
    rcases hshort with rfl | rfl | rfl | rfl | rfl | rfl | rfl
    all_goals decide
  · rename_i hshort
    split
    · rename_i hcontrol
      exact Nat.lt_trans hcontrol (by decide)
    · rename_i hcontrol
      exact ⟨hcontrol, fun hquote => hshort (.inl hquote), fun hslash => hshort (.inr (.inl hslash))⟩

/-- The piece of a character stands for that character, whatever comes after it. -/
theorem decode_pieceOf (c : Char) (pieces : List Piece) :
    decode (pieceOf c :: pieces) = (decode pieces).map (c :: ·) := by
  rw [pieceOf]
  split
  · rw [decode]
  · split
    · rename_i hcontrol
      have hhigh : isHighSurrogate c.toNat = false := by
        simp only [isHighSurrogate, Bool.and_eq_false_iff, decide_eq_false_iff_not]
        omega
      have hlow : isLowSurrogate c.toNat = false := by
        simp only [isLowSurrogate, Bool.and_eq_false_iff, decide_eq_false_iff_not]
        omega
      rw [decode.eq_def]
      dsimp only
      rw [hhigh, hlow, Char.ofNat_toNat]
      rfl
    · rw [decode]

theorem textOf?_pieces (text : String) : textOf? (text.toList.map pieceOf) = some text := by
  have hdecode : ∀ cs : List Char, decode (cs.map pieceOf) = some cs := by
    intro cs
    induction cs with
    | nil => rfl
    | cons c cs ih => rw [List.map_cons, decode_pieceOf, ih, Option.map_some]
  rw [textOf?, hdecode, Option.map_some, String.ofList_toList]

theorem text?_ofText (text : String) : (Value.ofText text).text? = some text := textOf?_pieces text

theorem isSpelled_pieces (text : String) : ∀ p ∈ text.toList.map pieceOf, p.IsSpelled := by
  intro p hp
  obtain ⟨c, -, rfl⟩ := List.mem_map.mp hp
  exact isSpelled_pieceOf c

theorem isSpelled_ofText (text : String) : (Value.ofText text).IsSpelled := isSpelled_pieces text

end SpokenCommand.Json
