import SpokenCommand.Grammar.Parser
/-!
How source splits into tokens.

A source is read from left to right with the part of a word read so far, so that a piece of source does
not split on its own: its last word goes on until a separator or a symbol comes.

1. **Words.**  Every word that comes out of a source is one or more PLAIN characters, those that are
   neither separators nor symbols nor control characters (`isWord_of_mem_tokens`).

2. **Pieces.**  `Splits` says what a piece of source splits into whenever something that ends a word
   comes after it.  That is the form in which pieces can be put together: a symbol or a space in front
   of a piece, and a piece behind another one if it ends a word (`Splits.append`).
-/

namespace SpokenCommand.Grammar

/-! ## Words -/

/-- Whether a character is part of a word. -/
def isPlain (c : Char) : Bool := !isSeparator c && (Token.ofSymbol? c).isNone && !isControl c

/-- A text that stands in source as one word. -/
def IsWord (text : String) : Prop := text.toList ≠ [] ∧ ∀ c ∈ text.toList, isPlain c = true

theorem isPlain_iff {c : Char} : isPlain c = true ↔
    isSeparator c = false ∧ Token.ofSymbol? c = none ∧ isControl c = false := by
  simp [isPlain, and_assoc]

/-- A symbol is neither a separator nor a control character, and it is no word. -/
theorem symbol_facts {c : Char} {token : Token} (h : Token.ofSymbol? c = some token) :
    isSeparator c = false ∧ isControl c = false ∧ ∀ text, token ≠ .word text := by
  unfold Token.ofSymbol? at h
  repeat' split at h
  all_goals cases h
  all_goals
    rename_i hc
    subst hc
    exact ⟨by decide, by decide, nofun⟩

theorem isSeparator_iff {c : Char} : isSeparator c = true ↔ c = ' ' ∨ c = '\t' := by
  simp [isSeparator]

/-- The tab is a control character, but it belongs between words. -/
theorem isControl_of_isSeparator {c : Char} (h : isSeparator c = true) : isControl c = false := by
  rcases isSeparator_iff.mp h with rfl | rfl
  · decide
  · decide

theorem findControl_eq_none_iff {offset : Nat} {cs : List Char} :
    findControl offset cs = none ↔ ∀ c ∈ cs, isControl c = false := by
  induction cs generalizing offset with
  | nil => simp [findControl]
  | cons c rest ih =>
    rw [findControl, List.forall_mem_cons]
    cases hc : isControl c with
    | true => simp
    | false => simp [ih]

/-- A text is a word, made of what was read before and of plain characters of the source. -/
def IsMadeOf (word cs : List Char) (text : String) : Prop :=
  text.toList ≠ [] ∧ ∀ c ∈ text.toList,
    c ∈ word ∨ c ∈ cs ∧ isSeparator c = false ∧ Token.ofSymbol? c = none

theorem isMadeOf_of_mem_pendingWord {word : List Char} {text : String}
    (h : .word text ∈ pendingWord word) (cs : List Char) : IsMadeOf word cs text := by
  unfold pendingWord at h
  split at h
  · exact absurd h List.not_mem_nil
  · rename_i hne
    rw [IsMadeOf, Token.word.inj (List.mem_singleton.mp h), String.toList_ofList]
    exact ⟨mt List.isEmpty_iff.mpr hne, fun c hc => Or.inl hc⟩

theorem isMadeOf_of_mem_tokensFrom {word cs : List Char} {text : String}
    (h : .word text ∈ tokensFrom word cs) : IsMadeOf word cs text := by
  induction cs generalizing word with
  | nil => exact isMadeOf_of_mem_pendingWord h []
  | cons c rest ih =>
    have hpending : .word text ∈ pendingWord word → IsMadeOf word (c :: rest) text :=
      fun hmem => isMadeOf_of_mem_pendingWord hmem _
    -- a word that begins later has nothing to do with the one read so far
    have hlater : .word text ∈ tokensFrom [] rest → IsMadeOf word (c :: rest) text := by
      intro hmem
      obtain ⟨hne, hchars⟩ := ih hmem
      refine ⟨hne, fun d hd => Or.inr ?_⟩
      obtain ⟨hrest, hplain⟩ := (hchars d hd).resolve_left List.not_mem_nil
      exact ⟨List.mem_cons_of_mem c hrest, hplain⟩
    rw [tokensFrom] at h
    split at h
    · exact (List.mem_append.mp h).elim hpending hlater
    · rename_i hseparator
      split at h
      · rename_i token hsymbol
        rcases List.mem_append.mp h with hmem | hmem
        · exact hpending hmem
        · rcases List.mem_cons.mp hmem with rfl | hmem
          · exact absurd rfl ((symbol_facts hsymbol).2.2 text)
          · exact hlater hmem
      · rename_i hsymbol
        obtain ⟨hne, hchars⟩ := ih h
        refine ⟨hne, fun d hd => ?_⟩
        rcases hchars d hd with hread | ⟨hrest, hplain⟩
        · rcases List.mem_append.mp hread with hword | hc
          · exact Or.inl hword
          · obtain rfl := List.mem_singleton.mp hc
            exact Or.inr ⟨List.mem_cons_self, Bool.eq_false_iff.mpr hseparator, hsymbol⟩
        · exact Or.inr ⟨List.mem_cons_of_mem c hrest, hplain⟩

/-- The characters of a word of source come from the source and are plain. -/
theorem isWord_and_mem_of_mem_tokens {source : String} {tokens : List Token}
    (h : tokenize source = .ok tokens) {text : String} (hmem : .word text ∈ tokens) :
    IsWord text ∧ ∀ c ∈ text.toList, c ∈ source.toList := by
  unfold tokenize at h
  split at h
  · cases h
  · rename_i hcontrol
    obtain rfl := Except.ok.inj h
    obtain ⟨hne, hchars⟩ := isMadeOf_of_mem_tokensFrom hmem
    have hsource := fun c hc => (hchars c hc).resolve_left List.not_mem_nil
    refine ⟨⟨hne, fun c hc => ?_⟩, fun c hc => (hsource c hc).1⟩
    obtain ⟨hc, hseparator, hsymbol⟩ := hsource c hc
    exact isPlain_iff.mpr ⟨hseparator, hsymbol, findControl_eq_none_iff.mp hcontrol c hc⟩

/-- **Every word of a source** is made of plain characters. -/
theorem isWord_of_mem_tokens {source : String} {tokens : List Token}
    (h : tokenize source = .ok tokens) {text : String} (hmem : .word text ∈ tokens) :
    IsWord text :=
  (isWord_and_mem_of_mem_tokens h hmem).1

/-! ## Pieces -/

/-- The characters end a word that is read before them. -/
def EndsWord (cs : List Char) : Prop :=
  ∀ c ∈ cs.head?, isSeparator c = true ∨ (Token.ofSymbol? c).isSome = true

/-- A piece of source and its tokens, whatever comes after it to end its last word. -/
structure Splits (cs : List Char) (tokens : List Token) : Prop where
  noControl : ∀ c ∈ cs, isControl c = false
  tokensFrom_eq : ∀ rest, EndsWord rest →
    tokensFrom [] (cs ++ rest) = tokens ++ tokensFrom [] rest

variable {cs cs' rest : List Char} {tokens tokens' : List Token} {token : Token} {c : Char}

theorem endsWord_nil : EndsWord [] := nofun

theorem endsWord_symbol (h : Token.ofSymbol? c = some token) : EndsWord (c :: rest) := by
  intro d hd
  obtain rfl : c = d := Option.some.inj hd
  exact Or.inr (by rw [h]; rfl)

theorem endsWord_space : EndsWord (' ' :: rest) := by
  intro d hd
  obtain rfl : ' ' = d := Option.some.inj hd
  exact Or.inl rfl

theorem EndsWord.append (h : EndsWord cs) (h' : EndsWord rest) : EndsWord (cs ++ rest) := by
  cases cs with
  | nil => exact h'
  | cons c cs => exact h

/-- What ends a word leaves the word as it is. -/
theorem tokensFrom_of_endsWord (h : EndsWord rest) (word : List Char) :
    tokensFrom word rest = pendingWord word ++ tokensFrom [] rest := by
  cases rest with
  | nil => simp [tokensFrom, pendingWord]
  | cons c rest =>
    rw [tokensFrom, tokensFrom]
    rcases h c rfl with hseparator | hsymbol
    · rw [if_pos hseparator, if_pos hseparator]
      rfl
    · obtain ⟨token, htoken⟩ := Option.isSome_iff_exists.mp hsymbol
      have hseparator : ¬ isSeparator c = true := by simp [(symbol_facts htoken).1]
      rw [if_neg hseparator, if_neg hseparator, htoken]
      rfl

theorem tokensFrom_plain (hplain : ∀ c ∈ cs, isPlain c = true) (word rest : List Char) :
    tokensFrom word (cs ++ rest) = tokensFrom (word ++ cs) rest := by
  induction cs generalizing word with
  | nil => rw [List.nil_append, List.append_nil]
  | cons c cs ih =>
    rw [List.forall_mem_cons] at hplain
    obtain ⟨hseparator, hsymbol, -⟩ := isPlain_iff.mp hplain.1
    rw [List.cons_append, tokensFrom, if_neg (by simp [hseparator]), hsymbol]
    dsimp only
    rw [ih hplain.2, List.append_assoc, List.singleton_append]

theorem splits_nil : Splits [] [] := ⟨fun _ hc => absurd hc List.not_mem_nil, fun _ _ => rfl⟩

theorem splits_word {text : String} (h : IsWord text) : Splits text.toList [.word text] where
  noControl := fun _ hc => (isPlain_iff.mp (h.2 _ hc)).2.2
  tokensFrom_eq := by
    intro rest hrest
    have hne : text.toList.isEmpty = false := by simpa using h.1
    rw [tokensFrom_plain h.2, List.nil_append, tokensFrom_of_endsWord hrest, pendingWord, hne,
      String.ofList_toList]
    rfl

/-- A symbol stands alone, whatever comes after it. -/
theorem Splits.symbol (hsymbol : Token.ofSymbol? c = some token) (h : Splits cs tokens) :
    Splits (c :: cs) (token :: tokens) where
  noControl := List.forall_mem_cons.mpr ⟨(symbol_facts hsymbol).2.1, h.noControl⟩
  tokensFrom_eq := by
    intro rest hrest
    have hseparator : ¬ isSeparator c = true := by simp [(symbol_facts hsymbol).1]
    rw [List.cons_append, tokensFrom, if_neg hseparator, hsymbol]
    dsimp only
    rw [h.tokensFrom_eq rest hrest]
    rfl

theorem Splits.separator (hseparator : isSeparator c = true) (h : Splits cs tokens) :
    Splits (c :: cs) tokens where
  noControl := List.forall_mem_cons.mpr ⟨isControl_of_isSeparator hseparator, h.noControl⟩
  tokensFrom_eq := by
    intro rest hrest
    rw [List.cons_append, tokensFrom, if_pos hseparator, h.tokensFrom_eq rest hrest]
    rfl

theorem Splits.space (h : Splits cs tokens) : Splits (' ' :: cs) tokens := h.separator rfl

/-- A piece that ends a word can stand behind any other. -/
theorem Splits.append (h : Splits cs tokens) (h' : Splits cs' tokens') (hends : EndsWord cs') :
    Splits (cs ++ cs') (tokens ++ tokens') where
  noControl := List.forall_mem_append.mpr ⟨h.noControl, h'.noControl⟩
  tokensFrom_eq := by
    intro rest hrest
    rw [List.append_assoc, h.tokensFrom_eq _ (hends.append hrest), h'.tokensFrom_eq rest hrest,
      List.append_assoc]

/-- **A whole source** splits into the tokens of its pieces. -/
theorem Splits.tokenize_eq {source : String} (h : Splits source.toList tokens) :
    tokenize source = .ok tokens := by
  have htokens := h.tokensFrom_eq [] endsWord_nil
  have hempty : tokensFrom [] [] = [] := rfl
  rw [List.append_nil, hempty, List.append_nil] at htokens
  rw [tokenize, findControl_eq_none_iff.mpr h.noControl]
  dsimp only
  rw [htokens]

end SpokenCommand.Grammar
