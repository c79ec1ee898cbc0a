import Mathlib.Computability.Language
import SpokenCommand.Grammar.Matching
/-!
The language of a grammar, and that matching decides it.

A grammar denotes a LANGUAGE, a set of word lists, built from the language operations alone: a word
is a one-letter language, a choice is a union, a sequence is a concatenation, and a repeat is the
union of the powers whose exponent lies in its range.  Matching works with positions in place of word
lists; the two meet in `Spans`, which says that the words between two positions are in a language.

1. **Spans** turn the operations on languages into operations on positions: a concatenation passes
   through a middle position, a power is a chain of that many spans.

2. **The crux (`mem_rounds`)** is that dropping positions seen before loses no end.  The invariant is
   that a seen position outside the frontier has all its moves among the seen ones (`Settled`), so
   that a chain which leaves the seen positions does so through the frontier, with no fewer rounds to
   spare than it has moves left.

3. **Exactness** (`accepts_iff_mem_language`) follows by induction on the grammar.  The ranges are
   arbitrary: also one that starts above one, and one that no count meets.
-/

namespace SpokenCommand.Grammar

variable {words : List String} {p q : Nat}

/-! ## The language of a grammar -/

/-- The word lists that split into as many parts in `L` as `r` admits. -/
def Repeat.language (r : Repeat) (L : Language String) : Language String :=
  {spoken | ∃ k, r.min ≤ k ∧ k ≤ r.max ∧ spoken ∈ L ^ k}

namespace Node

mutual

/-- The lowercase word lists that a node stands for. -/
def language : Node → Language String
  | literal text r => r.language {[Text.lowercase text]}
  | choice alternatives r => r.language (languageAny alternatives)
  | dictation => {spoken | spoken ≠ []}
  | wildcard => {spoken | spoken ≠ []}

/-- The lowercase word lists that one of several sequences stands for. -/
def languageAny : List (List Node) → Language String
  | [] => 0
  | sequence :: rest => languageAll sequence + languageAny rest

/-- The lowercase word lists that a sequence stands for. -/
def languageAll : List Node → Language String
  | [] => 1
  | node :: rest => node.language * languageAll rest

end

end Node

/-! ## Spans: the words between two positions -/

/-- The words from `p` to `q` are in a language. -/
def Spans (words : List String) (L : Language String) (p q : Nat) : Prop :=
  ∃ spoken ∈ L, spoken <+: words.drop p ∧ q = p + spoken.length

/-- All words are in a language when it spans them. -/
theorem spans_zero_length {L : Language String} : Spans words L 0 words.length ↔ words ∈ L := by
  constructor
  · rintro ⟨spoken, hmem, hprefix, hlen⟩
    have heq : spoken = words := hprefix.eq_of_length (by simpa using hlen.symm)
    exact heq ▸ hmem
  · intro hmem
    exact ⟨words, hmem, by simp, by simp⟩

@[simp] theorem spans_one : Spans words 1 p q ↔ p = q := by
  constructor
  · rintro ⟨spoken, hmem, -, hq⟩
    rw [Language.mem_one] at hmem
    subst hmem
    exact hq.symm
  · rintro rfl
    exact ⟨[], Language.nil_mem_one, List.nil_prefix, rfl⟩

theorem spans_add {L M : Language String} :
    Spans words (L + M) p q ↔ Spans words L p q ∨ Spans words M p q := by
  constructor
  · rintro ⟨spoken, hL | hM, h⟩
    · exact Or.inl ⟨spoken, hL, h⟩
    · exact Or.inr ⟨spoken, hM, h⟩
  · rintro (⟨spoken, hL, h⟩ | ⟨spoken, hM, h⟩)
    · exact ⟨spoken, Or.inl hL, h⟩
    · exact ⟨spoken, Or.inr hM, h⟩

/-- A concatenation spans by way of a middle position. -/
theorem spans_mul {L M : Language String} :
    Spans words (L * M) p q ↔ ∃ m, Spans words L p m ∧ Spans words M m q := by
  constructor
  · rintro ⟨spoken, hmem, hprefix, hq⟩
    obtain ⟨first, hL, second, hM, rfl⟩ := Language.mem_mul.mp hmem
    obtain ⟨rest, hrest⟩ := hprefix
    refine ⟨p + first.length, ⟨first, hL, ?_, rfl⟩, second, hM, ?_, ?_⟩
    · exact ⟨second ++ rest, by rw [← hrest, List.append_assoc]⟩
    · refine ⟨rest, ?_⟩
      rw [← List.drop_drop, ← hrest, List.append_assoc, List.drop_left]
    · rw [hq, List.length_append]
      omega
  · rintro ⟨m, ⟨first, hL, ⟨r₁, h₁⟩, rfl⟩, second, hM, ⟨r₂, h₂⟩, rfl⟩
    refine ⟨first ++ second, Language.append_mem_mul hL hM, ⟨r₂, ?_⟩, ?_⟩
    · rw [← List.drop_drop, ← h₁, List.drop_left] at h₂
      rw [← h₁, List.append_assoc, h₂]
    · rw [List.length_append]
      omega

/-- A power spans by a chain of as many spans. -/
theorem spans_pow_succ {L : Language String} {k : Nat} :
    Spans words (L ^ (k + 1)) p q ↔ ∃ m, Spans words L p m ∧ Spans words (L ^ k) m q := by
  rw [pow_succ', spans_mul]

theorem spans_repeat {r : Repeat} {L : Language String} :
    Spans words (r.language L) p q ↔ ∃ k, r.min ≤ k ∧ k ≤ r.max ∧ Spans words (L ^ k) p q := by
  constructor
  · rintro ⟨spoken, ⟨k, hmin, hmax, hmem⟩, h⟩
    exact ⟨k, hmin, hmax, spoken, hmem, h⟩
  · rintro ⟨k, hmin, hmax, spoken, hmem, h⟩
    exact ⟨spoken, ⟨k, hmin, hmax, hmem⟩, h⟩

/-- One word spans from its position to the next. -/
theorem spans_word {text : String} : Spans words {[text]} p q ↔ words[p]? = some text ∧ q = p + 1 := by
  constructor
  · rintro ⟨spoken, hmem, ⟨rest, hrest⟩, hq⟩
    obtain rfl : spoken = [text] := hmem
    refine ⟨?_, hq⟩
    rw [← List.head?_drop, ← hrest]
    rfl
  · rintro ⟨hget, hq⟩
    refine ⟨[text], rfl, ?_, hq⟩
    rw [← List.head?_drop] at hget
    obtain ⟨rest, hrest⟩ := List.head?_eq_some_iff.mp hget
    exact ⟨rest, hrest.symm⟩

/-- Free speech spans any stretch of words that is not empty. -/
theorem spans_open : Spans words {spoken | spoken ≠ []} p q ↔ p < q ∧ q ≤ words.length := by
  constructor
  · rintro ⟨spoken, hne, hprefix, rfl⟩
    have hpos : 0 < spoken.length := List.length_pos_of_ne_nil hne
    have hle := hprefix.length_le
    rw [List.length_drop] at hle
    omega
  · rintro ⟨hlt, hle⟩
    have hlen : ((words.drop p).take (q - p)).length = q - p := by
      rw [List.length_take, List.length_drop]
      omega
    refine ⟨(words.drop p).take (q - p), ?_, List.take_prefix _ _, by omega⟩
    intro hnil
    rw [hnil, List.length_nil] at hlen
    omega

/-! ## Sets of positions -/

theorem mem_mergeHead {x y : Nat} {others : List Nat → List Nat} {ys : List Nat}
    (hothers : ∀ zs, y ∈ others zs ↔ y ∈ others [] ∨ y ∈ zs) :
    y ∈ mergeHead x others ys ↔ y = x ∨ y ∈ others [] ∨ y ∈ ys := by
  induction ys with
  | nil => simp [mergeHead]
  | cons z zs ih =>
    rw [mergeHead]
    split
    · rw [List.mem_cons, ih, List.mem_cons]
      tauto
    · split
      · rename_i heq
        rw [List.mem_cons, hothers, List.mem_cons, heq]
        tauto
      · rw [List.mem_cons, hothers]

@[simp] theorem mem_merge {x : Nat} {xs ys : List Nat} : x ∈ merge xs ys ↔ x ∈ xs ∨ x ∈ ys := by
  suffices h : ∀ ys, x ∈ xs.foldr mergeHead id ys ↔ x ∈ xs ∨ x ∈ ys from h ys
  induction xs with
  | nil => simp
  | cons z zs ih =>
    intro ys
    have hothers : ∀ ws, x ∈ zs.foldr mergeHead id ws ↔ x ∈ zs.foldr mergeHead id [] ∨ x ∈ ws := by
      intro ws
      rw [ih, ih]
      simp
    rw [List.foldr_cons, mem_mergeHead hothers, ih, List.mem_cons]
    simp [or_assoc]

@[simp] theorem mem_mergeAll {x : Nat} {move : Nat → List Nat} {positions : List Nat} :
    x ∈ mergeAll move positions ↔ ∃ m ∈ positions, x ∈ move m := by
  unfold mergeAll
  induction positions with
  | nil => simp
  | cons y ys ih => simp [ih]

/-! ## Rounds -/

/-- `q` is reached from `p` by exactly `k` moves. -/
def Reaches (once : Nat → List Nat) : Nat → Nat → Nat → Prop
  | 0, p, q => p = q
  | k + 1, p, q => ∃ m ∈ once p, Reaches once k m q

/-- Every seen position that is not in the frontier has all its moves among the seen ones. -/
def Settled (once : Nat → List Nat) (seen frontier : List Nat) : Prop :=
  ∀ m ∈ seen, m ∉ frontier → ∀ x ∈ once m, x ∈ seen

section Rounds

variable {once : Nat → List Nat} {least left count : Nat} {seen frontier found : List Nat}

/-- A round keeps the seen positions settled. -/
theorem Settled.round (h : Settled once seen frontier) :
    Settled once (merge seen ((mergeAll once frontier).filter fun p => !seen.contains p))
      ((mergeAll once frontier).filter fun p => !seen.contains p) := by
  intro m hm hfresh x hx
  have hseen : m ∈ seen := (mem_merge.mp hm).resolve_right hfresh
  rw [mem_merge]
  by_cases hx' : x ∈ seen
  · exact Or.inl hx'
  · refine Or.inr (List.mem_filter.mpr ⟨?_, by simpa using hx'⟩)
    by_cases hfr : m ∈ frontier
    · exact mem_mergeAll.mpr ⟨m, hfr, hx⟩
    · exact absurd (h m hseen hfr x hx) hx'

/-- From a settled set, moves end among the seen positions or go on from the frontier. -/
theorem Settled.reaches (h : Settled once seen frontier) {k : Nat} (hp : p ∈ seen)
    (hq : Reaches once k p q) :
    q ∈ seen ∨ ∃ j, 1 ≤ j ∧ j ≤ k ∧ ∃ m ∈ frontier, Reaches once j m q := by
  induction k generalizing p with
  | zero => exact Or.inl (hq ▸ hp)
  | succ k ih =>
    by_cases hfr : p ∈ frontier
    · exact Or.inr ⟨k + 1, by omega, by omega, p, hfr, hq⟩
    · obtain ⟨m, hm, hmq⟩ := hq
      rcases ih (h p hp hfr m hm) hmq with hs | ⟨j, h1, hj, f, hf, hfq⟩
      · exact Or.inl hs
      · exact Or.inr ⟨j, h1, by omega, f, hf, hfq⟩

/-- Once the minimum is met, the ends are those found and all that the frontier still reaches. -/
theorem mem_rounds_of_le (hcount : least ≤ count + 1) (hsettled : Settled once seen frontier)
    (hfound : ∀ m ∈ seen, m ∈ found) :
    q ∈ rounds least once left count seen frontier found ↔
      q ∈ found ∨ ∃ j, 1 ≤ j ∧ j ≤ left ∧ ∃ m ∈ frontier, Reaches once j m q := by
  induction left generalizing count seen frontier found with
  | zero =>
    rw [rounds]
    exact ⟨Or.inl, fun h => h.resolve_right (by rintro ⟨j, h1, h0, -⟩; omega)⟩
  | succ left ih =>
    rw [rounds]
    split
    · rename_i hempty
      rw [List.isEmpty_iff] at hempty
      simp [hempty]
    · show q ∈ rounds least once left (count + 1) (merge seen _) _ (merge found _) ↔ _
      rw [ih (by omega) hsettled.round]
      · constructor
        · rintro (hf | ⟨j, h1, hj, m, hm, hmq⟩)
          · rcases mem_merge.mp hf with hf | hnext
            · exact Or.inl hf
            · obtain ⟨m, hm, hqm⟩ := mem_mergeAll.mp hnext
              exact Or.inr ⟨1, le_rfl, by omega, m, hm, q, hqm, rfl⟩
          · obtain ⟨f, hf, hmf⟩ := mem_mergeAll.mp (List.mem_filter.mp hm).1
            exact Or.inr ⟨j + 1, by omega, by omega, f, hf, m, hmf, hmq⟩
        · rintro (hf | ⟨j, h1, hj, f, hf, hfq⟩)
          · exact Or.inl (mem_merge.mpr (Or.inl hf))
          · obtain ⟨k, rfl⟩ : ∃ k, j = k + 1 := ⟨j - 1, by omega⟩
            obtain ⟨m, hm, hmq⟩ := hfq
            have hnext : m ∈ mergeAll once frontier := mem_mergeAll.mpr ⟨f, hf, hm⟩
            -- The first move is either fresh or was seen before; both are seen now.
            have hseen : m ∈ merge seen
                ((mergeAll once frontier).filter fun p => !seen.contains p) := by
              by_cases hs : m ∈ seen
              · exact mem_merge.mpr (Or.inl hs)
              · exact mem_merge.mpr (Or.inr (List.mem_filter.mpr ⟨hnext, by simpa using hs⟩))
            rcases hsettled.round.reaches hseen hmq with hq | ⟨i, h1, hi, hrest⟩
            · refine Or.inl (mem_merge.mpr ?_)
              rcases mem_merge.mp hq with hq | hq
              · exact Or.inl (hfound q hq)
              · exact Or.inr (List.mem_filter.mp hq).1
            · exact Or.inr ⟨i, h1, by omega, hrest⟩
      · intro m hm
        rcases mem_merge.mp hm with hm | hm
        · exact mem_merge.mpr (Or.inl (hfound m hm))
        · exact mem_merge.mpr (Or.inr (List.mem_filter.mp hm).1)

/-- **The ends of the rounds.**  While nothing is seen yet, they are the ends found and all that the
    frontier reaches in as many rounds as are allowed and no fewer than the minimum still asks. -/
theorem mem_rounds :
    q ∈ rounds least once left count [] frontier found ↔
      q ∈ found ∨
        ∃ j, 1 ≤ j ∧ j ≤ left ∧ least ≤ count + j ∧ ∃ m ∈ frontier, Reaches once j m q := by
  induction left generalizing count frontier with
  | zero =>
    rw [rounds]
    exact ⟨Or.inl, fun h => h.resolve_right (by rintro ⟨j, h1, h0, -⟩; omega)⟩
  | succ left ih =>
    by_cases hcount : least ≤ count + 1
    · rw [mem_rounds_of_le hcount (by simp [Settled]) (by simp)]
      constructor
      · rintro (hf | ⟨j, h1, hj, h⟩)
        · exact Or.inl hf
        · exact Or.inr ⟨j, h1, hj, by omega, h⟩
      · rintro (hf | ⟨j, h1, hj, -, h⟩)
        · exact Or.inl hf
        · exact Or.inr ⟨j, h1, hj, h⟩
    · rw [rounds]
      split
      · rename_i hempty
        rw [List.isEmpty_iff] at hempty
        simp [hempty]
      · show q ∈ rounds least once left (count + 1) [] (mergeAll once frontier) found ↔ _
        rw [ih]
        refine or_congr_right ⟨?_, ?_⟩
        · rintro ⟨j, h1, hj, hleast, m, hm, hmq⟩
          obtain ⟨f, hf, hmf⟩ := mem_mergeAll.mp hm
          exact ⟨j + 1, by omega, by omega, by omega, f, hf, m, hmf, hmq⟩
        · rintro ⟨j, h1, hj, hleast, f, hf, hfq⟩
          -- One round is not enough yet, so that there is a first move and a rest.
          obtain ⟨k, rfl⟩ : ∃ k, j = k + 1 := ⟨j - 1, by omega⟩
          obtain ⟨m, hm, hmq⟩ := hfq
          exact ⟨k, by omega, by omega, by omega, m, mem_mergeAll.mpr ⟨f, hf, hm⟩, hmq⟩

/-- The ends of a repeat are what the admitted numbers of moves reach. -/
theorem Repeat.mem_ends {r : Repeat} :
    q ∈ r.ends once p ↔ ∃ k, r.min ≤ k ∧ k ≤ r.max ∧ Reaches once k p q := by
  rw [Repeat.ends, mem_rounds]
  constructor
  · rintro (hstart | ⟨k, h1, hmax, hmin, m, hm, hmq⟩)
    · split at hstart
      · rename_i hzero
        exact ⟨0, by omega, by omega, (List.mem_singleton.mp hstart).symm⟩
      · exact absurd hstart List.not_mem_nil
    · obtain rfl := List.mem_singleton.mp hm
      exact ⟨k, by omega, hmax, hmq⟩
  · rintro ⟨k, hmin, hmax, hpq⟩
    rcases Nat.eq_zero_or_pos k with rfl | hpos
    · have hpq' : p = q := hpq
      refine Or.inl ?_
      rw [if_pos (by omega), hpq']
      exact List.mem_singleton_self q
    · exact Or.inr ⟨k, hpos, hmax, by omega, p, List.mem_singleton_self p, hpq⟩

/-- When the moves are the spans of a language, chains of moves are the spans of its powers. -/
theorem reaches_iff_spans_pow {L : Language String} (honce : ∀ p q, q ∈ once p ↔ Spans words L p q)
    {k : Nat} : Reaches once k p q ↔ Spans words (L ^ k) p q := by
  induction k generalizing p with
  | zero => rw [pow_zero, spans_one, Reaches]
  | succ k ih =>
    rw [Reaches, spans_pow_succ]
    exact exists_congr fun m => and_congr (honce p m) ih

/-- A repeat ends where the repeated language does. -/
theorem Repeat.mem_ends_iff_spans {r : Repeat} {L : Language String}
    (honce : ∀ p q, q ∈ once p ↔ Spans words L p q) :
    q ∈ r.ends once p ↔ Spans words (r.language L) p q := by
  rw [Repeat.mem_ends, spans_repeat]
  exact exists_congr fun k => and_congr_right fun _ => and_congr_right fun _ =>
    reaches_iff_spans_pow honce

end Rounds

/-! ## Exactness -/

theorem mem_pastWord {text : String} :
    q ∈ pastWord words text p ↔ words[p]? = some text ∧ q = p + 1 := by
  unfold pastWord
  split
  · rename_i hget
    simp [hget]
  · rename_i hget
    simp [hget]

theorem mem_pastSpan : q ∈ pastSpan words p ↔ p < q ∧ q ≤ words.length := by
  rw [pastSpan, List.mem_range'_1]
  omega

namespace Node

mutual

/-- A node ends where its language does. -/
theorem mem_ends_iff_spans (node : Node) (p q : Nat) :
    q ∈ node.ends words p ↔ Spans words node.language p q := by
  match node with
  | literal text r =>
    rw [ends, language]
    exact r.mem_ends_iff_spans fun p q => mem_pastWord.trans spans_word.symm
  | choice alternatives r =>
    rw [ends, language]
    exact r.mem_ends_iff_spans (mem_endsAny_iff_spans alternatives)
  | dictation =>
    rw [ends, language]
    exact mem_pastSpan.trans spans_open.symm
  | wildcard =>
    rw [ends, language]
    exact mem_pastSpan.trans spans_open.symm

/-- Alternatives end where one of their languages does. -/
theorem mem_endsAny_iff_spans (alternatives : List (List Node)) (p q : Nat) :
    q ∈ endsAny words alternatives p ↔ Spans words (languageAny alternatives) p q := by
  match alternatives with
  | [] =>
    rw [endsAny, languageAny]
    simp [Spans]
  | sequence :: rest =>
    rw [endsAny, languageAny, mem_merge, spans_add, mem_endsAny_iff_spans rest,
      mem_endsAll_iff_spans sequence]
    simp

/-- A sequence ends where its language does, from one of the positions it starts at. -/
theorem mem_endsAll_iff_spans (sequence : List Node) (frontier : List Nat) (q : Nat) :
    q ∈ endsAll words sequence frontier ↔
      ∃ p ∈ frontier, Spans words (languageAll sequence) p q := by
  match sequence with
  | [] =>
    rw [endsAll, languageAll]
    simp
  | node :: rest =>
    rw [endsAll, languageAll, mem_endsAll_iff_spans rest]
    constructor
    · rintro ⟨m, hm, hmq⟩
      obtain ⟨p, hp, hpm⟩ := mem_mergeAll.mp hm
      exact ⟨p, hp, spans_mul.mpr ⟨m, (mem_ends_iff_spans node p m).mp hpm, hmq⟩⟩
    · rintro ⟨p, hp, hpq⟩
      obtain ⟨m, hpm, hmq⟩ := spans_mul.mp hpq
      exact ⟨m, mem_mergeAll.mpr ⟨p, hp, (mem_ends_iff_spans node p m).mpr hpm⟩, hmq⟩

end

end Node

/-- A grammar accepts the words that its language spans from end to end. -/
theorem accepts_iff_spans {sequence : Sequence} :
    accepts sequence words = true ↔
      Spans (words.map Text.lowercase) (Node.languageAll sequence) 0 words.length := by
  rw [accepts, List.contains_iff_mem, Node.mem_endsAll_iff_spans]
  simp

/-- **Matching decides the language of a grammar**: whatever its nesting and its ranges, a grammar
    accepts a list of words exactly when the words, in lowercase, are in its language. -/
theorem accepts_iff_mem_language (sequence : Sequence) (words : List String) :
    accepts sequence words = true ↔
      words.map Text.lowercase ∈ Node.languageAll sequence := by
  have hlen : words.length = (words.map Text.lowercase).length := (List.length_map _).symm
  rw [accepts_iff_spans, hlen]
  exact spans_zero_length

-- A group that may match nothing, in a repeat: `([maybe])+ done`.
example : accepts [.choice [[.optional [[.literal "maybe" .once]]]] ⟨1, 1000⟩, .literal "Done" .once]
    ["MAYBE", "maybe", "done"] = true := by decide

end SpokenCommand.Grammar
