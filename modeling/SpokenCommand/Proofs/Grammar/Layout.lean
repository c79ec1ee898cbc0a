import SpokenCommand.Proofs.Grammar.Splitting
/-!
Sources as layouts of tokens.

A LAYOUT of tokens is what a person writes to mean them: the tokens in order, with separators in any
number around them, and a word that ends where it is written to end.

1. **The crux (`tokenize_eq_ok_iff`)** is that a source is split into some tokens just when it is a layout
   of them.  The one way, a word grows as long as plain characters come, so that it is complete where a
   separator or a symbol comes; the other way, a layout is put together of pieces that split on their own.
   A layout has no control character but tabs, and every source without one is a layout.

2. **What tokens tell of their source** is then read off the layout.  Without separators they are the
   source (`Layout.texts`); between two words that follow each other there is a separator
   (`Layout.exists_gap`); and a symbol divides a layout into two (`Layout.exists_divided`).

3. **Written again** with one space after another, tokens are a layout of themselves, since the words that
   come out of a source are words (`Layout.tokenize_joined`).

4. **Refusals.**  The source is searched for the first control character, and the offset counts the bytes
   before it (`findControl_eq_some_iff`).
-/

namespace SpokenCommand.Grammar

variable {cs : List Char} {tokens before after : List Token} {token : Token} {c : Char}

/-! ## Layouts -/

/-- The characters are the tokens, laid out with separators.  A word goes as far as it can. -/
inductive Layout : List Char → List Token → Prop where
  | nil : Layout [] []
  | separator {c : Char} {cs : List Char} {tokens : List Token} : isSeparator c = true →
      Layout cs tokens → Layout (c :: cs) tokens
  | symbol {c : Char} {cs : List Char} {token : Token} {tokens : List Token} :
      Token.ofSymbol? c = some token → Layout cs tokens → Layout (c :: cs) (token :: tokens)
  | word {text : String} {cs : List Char} {tokens : List Token} : IsWord text → EndsWord cs →
      Layout cs tokens → Layout (text.toList ++ cs) (.word text :: tokens)

theorem endsWord_separator (h : isSeparator c = true) : EndsWord (c :: cs) := by
  intro d hd
  obtain rfl : c = d := Option.some.inj hd
  exact Or.inl h

theorem EndsWord.of_append {rest : List Char} (h : EndsWord (cs ++ rest)) : EndsWord cs := by
  cases cs with
  | nil => exact endsWord_nil
  | cons c cs => exact h

/-- The word read so far, if it has begun, is complete before what ends a word. -/
theorem Layout.pending {word : List Char} (hword : ∀ c ∈ word, isPlain c = true) (hends : EndsWord cs)
    (h : Layout cs tokens) : Layout (word ++ cs) (pendingWord word ++ tokens) := by
  cases word with
  | nil => exact h
  | cons c word =>
    have htext : (String.ofList (c :: word)).toList = c :: word := String.toList_ofList
    have hisWord : IsWord (String.ofList (c :: word)) := by
      rw [IsWord, htext]
      exact ⟨List.cons_ne_nil _ _, hword⟩
    have hlayout := Layout.word hisWord hends h
    rwa [htext] at hlayout

/-- Every source without control characters is a layout of the tokens into which it splits. -/
theorem layout_tokensFrom {word : List Char} (hword : ∀ c ∈ word, isPlain c = true)
    (hcs : ∀ c ∈ cs, isControl c = false) : Layout (word ++ cs) (tokensFrom word cs) := by
  induction cs generalizing word with
  | nil =>
    have hlayout := Layout.pending hword endsWord_nil .nil
    rwa [List.append_nil (pendingWord word)] at hlayout
  | cons c cs ih =>
    obtain ⟨hc, hrest⟩ := List.forall_mem_cons.mp hcs
    have hfresh : Layout cs (tokensFrom [] cs) := ih (fun _ hd => absurd hd List.not_mem_nil) hrest
    rw [tokensFrom]
    split
    · rename_i hseparator
      exact Layout.pending hword (endsWord_separator hseparator) (.separator hseparator hfresh)
    · rename_i hseparator
      split
      · rename_i token hsymbol
        exact Layout.pending hword (endsWord_symbol hsymbol) (.symbol hsymbol hfresh)
      · rename_i hsymbol
        have hplain : isPlain c = true :=
          isPlain_iff.mpr ⟨Bool.eq_false_iff.mpr hseparator, hsymbol, hc⟩
        have hgrown : ∀ d ∈ word ++ [c], isPlain d = true :=
          List.forall_mem_append.mpr ⟨hword, List.forall_mem_singleton.mpr hplain⟩
        have hlayout := ih hgrown hrest
        rwa [List.append_assoc, List.singleton_append] at hlayout

/-- A layout is put together of pieces that split on their own. -/
theorem Layout.splits (h : Layout cs tokens) : Splits cs tokens := by
  induction h with
  | nil => exact splits_nil
  | separator hseparator _ ih => exact ih.separator hseparator
  | symbol hsymbol _ ih => exact ih.symbol hsymbol
  | word hword hends _ ih => exact (splits_word hword).append ih hends

/-- **Sources split into the tokens** of which they are layouts. -/
theorem tokenize_eq_ok_iff {source : String} :
    tokenize source = .ok tokens ↔ Layout source.toList tokens := by
  constructor
  · intro h
    rw [tokenize] at h
    split at h
    · cases h
    · rename_i hcontrol
      obtain rfl := Except.ok.inj h
      exact layout_tokensFrom (fun _ hd => absurd hd List.not_mem_nil)
        (findControl_eq_none_iff.mp hcontrol)
  · exact fun h => h.splits.tokenize_eq

theorem Layout.tokenize_eq (h : Layout cs tokens) : tokenize (String.ofList cs) = .ok tokens := by
  rw [tokenize_eq_ok_iff, String.toList_ofList]
  exact h

/-! ## What tokens tell of their source -/

/-- The symbols of the notation. -/
def symbols : List Char := ['[', ']', '(', ')', '+', '*', '|', '$']

theorem mem_symbols_iff : c ∈ symbols ↔ ∃ token, Token.ofSymbol? c = some token := by
  constructor
  · intro h
    simp only [symbols, List.mem_cons, List.not_mem_nil, or_false] at h
    rcases h with rfl | rfl | rfl | rfl | rfl | rfl | rfl | rfl
    all_goals exact ⟨_, rfl⟩
  · rintro ⟨token, h⟩
    unfold Token.ofSymbol? at h
    repeat' split at h
    all_goals cases h
    all_goals
      rename_i hc
      subst hc
      decide

theorem text_of_ofSymbol? (h : Token.ofSymbol? c = some token) : token.text = String.singleton c := by
  unfold Token.ofSymbol? at h
  repeat' split at h
  all_goals cases h
  all_goals
    rename_i hc
    subst hc
    rfl

/-- **Nothing is lost**: without separators, the source is the texts of the tokens. -/
theorem Layout.texts (h : Layout cs tokens) :
    tokens.flatMap (fun token => token.text.toList) = cs.filter fun c => !isSeparator c := by
  induction h with
  | nil => rfl
  | separator hseparator _ ih => rw [ih, List.filter_cons_of_neg (by simp [hseparator])]
  | symbol hsymbol _ ih =>
    have hseparator := (symbol_facts hsymbol).1
    rw [List.flatMap_cons, ih, List.filter_cons_of_pos (by simp [hseparator]),
      text_of_ofSymbol? hsymbol, String.toList_singleton]
    rfl
  | @word text cs tokens hword _ _ ih =>
    have hall : text.toList.filter (fun c => !isSeparator c) = text.toList := by
      rw [List.filter_eq_self]
      intro c hc
      obtain ⟨hseparator, -, -⟩ := isPlain_iff.mp (hword.2 c hc)
      rw [hseparator]
      rfl
    rw [List.flatMap_cons, ih, List.filter_append, hall]
    rfl

theorem Layout.isSeparator_of_nil (h : Layout cs []) : ∀ c ∈ cs, isSeparator c = true := by
  have hempty := List.filter_eq_nil_iff.mp h.texts.symm
  simpa using hempty

/-- A layout divides where one of its tokens stands. -/
theorem Layout.exists_around (h : Layout cs (before ++ token :: after)) :
    ∃ left right, cs = left ++ (token.text.toList ++ right) ∧ Layout left before ∧
      Layout right after ∧ ∀ text, token = .word text → IsWord text ∧ EndsWord right := by
  generalize htokens : before ++ token :: after = tokens at h
  induction h generalizing before with
  | nil => exact absurd htokens (by simp)
  | @separator c cs tokens hseparator _ ih =>
    obtain ⟨left, right, rfl, hleft, hright, hword⟩ := ih htokens
    exact ⟨c :: left, right, rfl, .separator hseparator hleft, hright, hword⟩
  | @symbol c cs first tokens hsymbol hrest ih =>
    cases before with
    | nil =>
      obtain ⟨rfl, rfl⟩ := List.cons.inj htokens
      refine ⟨[], cs, ?_, .nil, hrest, ?_⟩
      · rw [text_of_ofSymbol? hsymbol, String.toList_singleton]
        rfl
      · exact fun text htext => absurd htext ((symbol_facts hsymbol).2.2 text)
    | cons _ before =>
      obtain ⟨rfl, htail⟩ := List.cons.inj htokens
      obtain ⟨left, right, rfl, hleft, hright, hword⟩ := ih htail
      exact ⟨c :: left, right, rfl, .symbol hsymbol hleft, hright, hword⟩
  | @word text cs tokens hword hends hrest ih =>
    cases before with
    | nil =>
      obtain ⟨rfl, rfl⟩ := List.cons.inj htokens
      refine ⟨[], cs, rfl, .nil, hrest, fun text' htext => ?_⟩
      obtain rfl := Token.word.inj htext
      exact ⟨hword, hends⟩
    | cons _ before =>
      obtain ⟨rfl, htail⟩ := List.cons.inj htokens
      obtain ⟨left, right, rfl, hleft, hright, hlater⟩ := ih htail
      refine ⟨text.toList ++ left, right, ?_, .word hword hends.of_append hleft, hright, hlater⟩
      rw [List.append_assoc]

theorem Layout.isWord {text : String} (h : Layout cs tokens) (hmem : .word text ∈ tokens) :
    IsWord text := by
  obtain ⟨before, after, rfl⟩ := List.append_of_mem hmem
  obtain ⟨left, right, -, -, -, hword⟩ := h.exists_around
  exact (hword text rfl).1

/-- **Two words that follow each other** are written with separators between them. -/
theorem Layout.exists_gap {a b : String} (h : Layout cs (before ++ .word a :: .word b :: after)) :
    ∃ left gap right, cs = left ++ a.toList ++ gap ++ b.toList ++ right ∧ gap ≠ [] ∧
      (∀ c ∈ gap, isSeparator c = true) ∧ Layout left before ∧ Layout right after := by
  obtain ⟨left, rest, rfl, hleft, hrest, hfirst⟩ := h.exists_around
  obtain ⟨-, hends⟩ := hfirst a rfl
  have hsecond : Layout rest ([] ++ .word b :: after) := hrest
  obtain ⟨gap, right, rfl, hgap, hright, hword⟩ := hsecond.exists_around
  refine ⟨left, gap, right, by simp [Token.text], ?_, hgap.isSeparator_of_nil, hleft, hright⟩
  rintro rfl
  -- without a gap the first word would go on with the characters of the second
  obtain ⟨⟨hne, hplain⟩, -⟩ := hword b rfl
  obtain ⟨c, cs, hb⟩ := List.exists_cons_of_ne_nil hne
  obtain ⟨hseparator, hsymbol, -⟩ := isPlain_iff.mp (hplain c (by rw [hb]; exact List.mem_cons_self))
  have hc : c ∈ ([] ++ ((Token.word b).text.toList ++ right)).head? := by
    rw [Token.text, hb]
    rfl
  rcases hends c hc with hsep | hsym
  · rw [hseparator] at hsep
    cases hsep
  · rw [hsymbol] at hsym
    cases hsym

/-- **A symbol** is a token of its own, wherever it stands, and divides a source into two. -/
theorem Layout.exists_divided {left right : List Char} (hsymbol : Token.ofSymbol? c = some token)
    (h : Layout (left ++ c :: right) tokens) :
    ∃ before after, tokens = before ++ token :: after ∧ Layout left before ∧ Layout right after := by
  obtain ⟨hleft, hrest⟩ := List.forall_mem_append.mp h.splits.noControl
  obtain ⟨-, hright⟩ := List.forall_mem_cons.mp hrest
  have hnone : ∀ d ∈ ([] : List Char), isPlain d = true := fun _ hd => absurd hd List.not_mem_nil
  have hbefore : Layout left (tokensFrom [] left) := layout_tokensFrom hnone hleft
  have hafter : Layout right (tokensFrom [] right) := layout_tokensFrom hnone hright
  have hwhole := hbefore.splits.append (hafter.splits.symbol hsymbol) (endsWord_symbol hsymbol)
  refine ⟨_, _, ?_, hbefore, hafter⟩
  have hsplit := h.splits.tokensFrom_eq [] endsWord_nil
  rw [hwhole.tokensFrom_eq [] endsWord_nil] at hsplit
  simpa [tokensFrom, pendingWord] using hsplit.symm

/-! ## Written again -/

/-- A token that is no word is the token of a symbol. -/
theorem Token.exists_symbol (token : Token) (h : ∀ text, token ≠ .word text) :
    ∃ c, ofSymbol? c = some token := by
  cases token with
  | word text => exact absurd rfl (h text)
  | opening b => exact ⟨b.openingChar, by cases b <;> rfl⟩
  | closing b => exact ⟨b.closingChar, by cases b <;> rfl⟩
  | mark m => exact ⟨m.char, by cases m <;> rfl⟩
  | pipe => exact ⟨'|', rfl⟩
  | dollar => exact ⟨'$', rfl⟩

/-- A token is written in front of a layout that does not go on with its word. -/
theorem Layout.cons (hword : ∀ text, token = .word text → IsWord text) (hends : EndsWord cs)
    (h : Layout cs tokens) : Layout (token.text.toList ++ cs) (token :: tokens) := by
  by_cases htoken : ∃ text, token = .word text
  · obtain ⟨text, rfl⟩ := htoken
    exact .word (hword text rfl) hends h
  · obtain ⟨c, hsymbol⟩ := token.exists_symbol (not_exists.mp htoken)
    rw [text_of_ofSymbol? hsymbol, String.toList_singleton]
    exact .symbol hsymbol h

theorem layout_joined (h : ∀ text, .word text ∈ tokens → IsWord text) :
    Layout ([' '].intercalate (tokens.map fun token => token.text.toList)) tokens := by
  induction tokens with
  | nil => exact .nil
  | cons first tokens ih =>
    have hfirst : ∀ text, first = .word text → IsWord text := by
      rintro text rfl
      exact h text List.mem_cons_self
    have hrest := ih fun text hmem => h text (List.mem_cons_of_mem _ hmem)
    cases tokens with
    | nil =>
      rw [List.map_singleton, List.intercalate_singleton, ← List.append_nil first.text.toList]
      exact Layout.cons hfirst endsWord_nil .nil
    | cons second tokens =>
      have hlayout := Layout.cons hfirst endsWord_space (.separator rfl hrest)
      rwa [← List.singleton_append, ← List.append_assoc, List.map_cons, ← List.intercalate_cons_cons]
        at hlayout

/-- **Tokens written again**, with one space between them, are the same tokens. -/
theorem Layout.tokenize_joined (h : Layout cs tokens) :
    tokenize (" ".intercalate (tokens.map Token.text)) = .ok tokens := by
  rw [tokenize_eq_ok_iff, String.toList_intercalate, List.map_map]
  exact layout_joined fun text hmem => h.isWord hmem

/-! ## Refusals -/

/-- A control character other than the tab, by its code. -/
def IsForbidden (c : Char) : Prop :=
  (c.toNat ≤ 0x1f ∨ (0x7f ≤ c.toNat ∧ c.toNat ≤ 0x9f)) ∧ c ≠ '\t'

theorem isControl_iff : isControl c = true ↔ IsForbidden c := by
  simp only [isControl, IsForbidden, Bool.and_eq_true, Bool.or_eq_true, decide_eq_true_eq]
  rw [Nat.lt_succ_iff]

theorem isControl_eq_false_iff : isControl c = false ↔ ¬IsForbidden c := by
  rw [← isControl_iff, Bool.not_eq_true]

theorem utf8ByteSize_cons (c : Char) (cs : List Char) :
    (String.ofList (c :: cs)).utf8ByteSize = c.utf8Size + (String.ofList cs).utf8ByteSize := by
  rw [String.ofList_cons, String.utf8ByteSize_append, String.utf8ByteSize_singleton]

/-- **The first control character** is found, with the number of bytes before it. -/
theorem findControl_eq_some_iff {offset n : Nat} :
    findControl offset cs = some (c, n) ↔ ∃ before after, cs = before ++ c :: after ∧
      (∀ d ∈ before, isControl d = false) ∧ isControl c = true ∧
        n = offset + (String.ofList before).utf8ByteSize := by
  induction cs generalizing offset with
  | nil => simp [findControl]
  | cons d cs ih =>
    rw [findControl]
    split
    · rename_i hd
      constructor
      · intro h
        obtain ⟨rfl, rfl⟩ := Prod.mk.inj (Option.some.inj h)
        exact ⟨[], cs, rfl, fun _ he => absurd he List.not_mem_nil, hd, rfl⟩
      · rintro ⟨before, after, hcs, hbefore, -, rfl⟩
        cases before with
        | nil =>
          obtain ⟨rfl, -⟩ := List.cons.inj hcs
          rfl
        | cons e before =>
          obtain ⟨rfl, -⟩ := List.cons.inj hcs
          rw [hbefore d List.mem_cons_self] at hd
          cases hd
    · rename_i hd
      rw [ih]
      constructor
      · rintro ⟨before, after, rfl, hbefore, hc, rfl⟩
        refine ⟨d :: before, after, rfl, List.forall_mem_cons.mpr ⟨?_, hbefore⟩, hc, ?_⟩
        · exact Bool.eq_false_iff.mpr hd
        · rw [utf8ByteSize_cons]
          omega
      · rintro ⟨before, after, hcs, hbefore, hc, rfl⟩
        cases before with
        | nil =>
          obtain ⟨rfl, -⟩ := List.cons.inj hcs
          exact absurd hc hd
        | cons e before =>
          obtain ⟨rfl, rfl⟩ := List.cons.inj hcs
          refine ⟨before, after, rfl, (List.forall_mem_cons.mp hbefore).2, hc, ?_⟩
          rw [utf8ByteSize_cons]
          omega

theorem exists_tokenize_eq_ok_iff {source : String} :
    (∃ tokens, tokenize source = .ok tokens) ↔ ∀ c ∈ source.toList, ¬IsForbidden c := by
  constructor
  · rintro ⟨tokens, h⟩ c hc
    exact isControl_eq_false_iff.mp ((tokenize_eq_ok_iff.mp h).splits.noControl c hc)
  · intro h
    have hcontrol : findControl 0 source.toList = none :=
      findControl_eq_none_iff.mpr fun c hc => isControl_eq_false_iff.mpr (h c hc)
    rw [tokenize, hcontrol]
    exact ⟨_, rfl⟩

theorem tokenize_eq_error_iff {source : String} {e : Error} :
    tokenize source = .error e ↔ ∃ before c after, source.toList = before ++ c :: after ∧
      (∀ d ∈ before, ¬IsForbidden d) ∧ IsForbidden c ∧
      e = .controlCharacter c (String.ofList before).utf8ByteSize := by
  simp only [← isControl_iff, Bool.not_eq_true]
  rw [tokenize]
  cases hfind : findControl 0 source.toList with
  | none =>
    have hnone := findControl_eq_none_iff.mp hfind
    constructor
    · intro h
      cases h
    · rintro ⟨before, c, after, hsource, -, hc, -⟩
      rw [hnone c (by rw [hsource]; simp)] at hc
      cases hc
  | some found =>
    obtain ⟨c, n⟩ := found
    obtain ⟨before, after, hsource, hbefore, hc, rfl⟩ := findControl_eq_some_iff.mp hfind
    constructor
    · intro h
      obtain rfl := Except.error.inj h
      exact ⟨before, c, after, hsource, hbefore, hc, by rw [Nat.zero_add]⟩
    · rintro ⟨before', c', after', hsource', hbefore', hc', rfl⟩
      have hfind' : findControl 0 source.toList =
          some (c', 0 + (String.ofList before').utf8ByteSize) :=
        findControl_eq_some_iff.mpr ⟨before', after', hsource', hbefore', hc', rfl⟩
      rw [hfind] at hfind'
      obtain ⟨rfl, hn⟩ := Prod.mk.inj (Option.some.inj hfind')
      dsimp only
      rw [hn, Nat.zero_add]

/-! ## The tokens of a source -/

/-- What the tokens of a source are. -/
structure AreTokensOf (tokens : List Token) (source : String) : Prop where
  /-- Together they are the source without spaces and tabs. -/
  texts : tokens.flatMap (fun token => token.text.toList) =
    source.toList.filter fun c => c ≠ ' ' ∧ c ≠ '\t'
  /-- A symbol is a token of its own, between the tokens of what stands before and behind it. -/
  symbol : ∀ left c right, source.toList = left ++ c :: right → c ∈ symbols →
    ∃ before token after, tokens = before ++ token :: after ∧ token.text = String.singleton c ∧
      tokenize (String.ofList left) = .ok before ∧ tokenize (String.ofList right) = .ok after
  /-- A word has characters, and they are neither spaces nor tabs nor symbols. -/
  word : ∀ text, .word text ∈ tokens →
    text ≠ "" ∧ ∀ c ∈ text.toList, c ≠ ' ' ∧ c ≠ '\t' ∧ c ∉ symbols
  /-- There are spaces or tabs between two words that follow each other. -/
  gap : ∀ before a b after, tokens = before ++ .word a :: .word b :: after →
    ∃ left gap right, source.toList = left ++ a.toList ++ gap ++ b.toList ++ right ∧ gap ≠ [] ∧
      (∀ c ∈ gap, c = ' ' ∨ c = '\t') ∧
      tokenize (String.ofList left) = .ok before ∧ tokenize (String.ofList right) = .ok after
  /-- Written with one space between them they are the same tokens. -/
  again : tokenize (" ".intercalate (tokens.map Token.text)) = .ok tokens

theorem Layout.areTokensOf {source : String} (h : Layout source.toList tokens) :
    AreTokensOf tokens source where
  texts := by
    rw [h.texts]
    apply List.filter_congr
    intro c _
    simp [isSeparator]
  symbol := by
    intro left c right hsource hc
    obtain ⟨token, hsymbol⟩ := mem_symbols_iff.mp hc
    rw [hsource] at h
    obtain ⟨before, after, htokens, hbefore, hafter⟩ := h.exists_divided hsymbol
    exact ⟨before, token, after, htokens, text_of_ofSymbol? hsymbol, hbefore.tokenize_eq,
      hafter.tokenize_eq⟩
  word := by
    intro text hmem
    obtain ⟨hne, hplain⟩ := h.isWord hmem
    refine ⟨by simpa using hne, fun c hc => ?_⟩
    obtain ⟨hseparator, hsymbol, -⟩ := isPlain_iff.mp (hplain c hc)
    rw [Bool.eq_false_iff, ne_eq, isSeparator_iff, not_or] at hseparator
    refine ⟨hseparator.1, hseparator.2, fun hmem => ?_⟩
    obtain ⟨token, htoken⟩ := mem_symbols_iff.mp hmem
    rw [hsymbol] at htoken
    cases htoken
  gap := by
    rintro before a b after rfl
    obtain ⟨left, gap, right, hsource, hne, hgap, hleft, hright⟩ := h.exists_gap
    exact ⟨left, gap, right, hsource, hne, fun c hc => isSeparator_iff.mp (hgap c hc),
      hleft.tokenize_eq, hright.tokenize_eq⟩
  again := h.tokenize_joined

/-- **Splitting a source into tokens**: it succeeds just when there is no control character in the source
    but tabs; the tokens are those that the source shows; and otherwise the first control character is
    refused, at its offset in bytes. -/
theorem tokenize_exact (source : String) :
    ((∃ tokens, tokenize source = .ok tokens) ↔ ∀ c ∈ source.toList, ¬IsForbidden c) ∧
    (∀ tokens, tokenize source = .ok tokens → AreTokensOf tokens source) ∧
    ∀ e, tokenize source = .error e ↔ ∃ before c after, source.toList = before ++ c :: after ∧
      (∀ d ∈ before, ¬IsForbidden d) ∧ IsForbidden c ∧
      e = .controlCharacter c (String.ofList before).utf8ByteSize :=
  ⟨exists_tokenize_eq_ok_iff, fun _ h => (tokenize_eq_ok_iff.mp h).areTokensOf,
    fun _ => tokenize_eq_error_iff⟩

-- five bytes, since one of the four characters before it has two
example : tokenize "gr\u00fcn\u0085" = .error (.controlCharacter '\u0085' 5) := by rfl

end SpokenCommand.Grammar
