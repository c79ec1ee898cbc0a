import Mathlib.Data.List.DropRight
import Mathlib.Data.Nat.Digits.Defs
import SpokenCommand.Session.Request
/-!
What spoken digits come to.

1. **The value** of digit words is that of the decimal number that they spell (`decimal`), however long it
   is.  Reading clamps after every digit, which is the same as clamping once at the end
   (`valueOfDigits_eq`): a number that is too large stays so when digits are added.

2. **The run from an index on** (`IsRunFrom`) goes up to the next word that is no digit.  It is what
   `readNumber` reads, and `readInteger` behind a word for the sign.  A clamped number can be negated: it
   is at most the largest one, and there is one more number below zero than above.

3. **The last run** of digit words (`IsLastRun`) ends with the last digit word, and no digit word comes
   before it without another word between.  Words have one unless none of them is a digit
   (`exists_isLastRun`), and it is what is read backwards from the end (`readLastNumber_of_isLastRun`).
-/

namespace SpokenCommand.Session

/-! ## The value -/

/-- The number that digit words spell. -/
def decimal (digits : List String) : Nat :=
  Nat.ofDigits 10 (digits.reverse.map fun word => (digit? word).getD 0)

/-- One more digit. -/
theorem decimal_concat (digits : List String) (word : String) :
    decimal (digits ++ [word]) = 10 * decimal digits + (digit? word).getD 0 := by
  rw [decimal, List.reverse_concat, List.map_cons, Nat.ofDigits_cons, Nat.add_comm, decimal]

/-- **Clamping** after every digit is clamping once. -/
theorem valueOfDigits_eq (digits : List String) :
    valueOfDigits digits = min (decimal digits) Text.maxInt64 := by
  induction digits using List.reverseRecOn with
  | nil => rfl
  | append_singleton digits word ih =>
    have hstep : valueOfDigits (digits ++ [word]) = appendDigit (valueOfDigits digits) word :=
      List.foldl_concat ..
    rw [hstep, ih, appendDigit, decimal_concat]
    -- a number beyond the largest one is beyond it with one more digit as well
    omega

/-! ## The run from an index on -/

/-- The run of digit words from an index on, up to the next word that is no digit.  Behind the last word
    there is an empty one. -/
structure IsRunFrom (words : List String) (start : Nat) (run : List String) : Prop where
  isDigitWord : ∀ word ∈ run, isDigitWord word = true
  split : ∃ after, words.drop start = run ++ after ∧
    ∀ word ∈ after.head?, Session.isDigitWord word = false

theorem exists_isRunFrom (words : List String) (start : Nat) : ∃ run, IsRunFrom words start run := by
  refine ⟨(words.drop start).takeWhile isDigitWord, fun word hword => List.mem_takeWhile_imp hword,
    (words.drop start).dropWhile isDigitWord, List.takeWhile_append_dropWhile.symm, ?_⟩
  intro word hword
  have hhead := List.head?_dropWhile_not isDigitWord (words.drop start)
  rw [Option.mem_def.mp hword] at hhead
  simpa using hhead

/-- Digit words are taken up to a word that is no digit. -/
theorem takeWhile_isDigitWord {run rest : List String} (hrun : ∀ word ∈ run, isDigitWord word = true)
    (hrest : ∀ word ∈ rest.head?, isDigitWord word = false) :
    (run ++ rest).takeWhile isDigitWord = run := by
  rw [List.takeWhile_append_of_pos hrun]
  cases rest with
  | nil => exact List.append_nil run
  | cons word rest =>
    rw [List.takeWhile_cons_of_neg (by simp [hrest word rfl]), List.append_nil]

/-- **The number of the run** is what is read from an index on, clamped, and reading stops behind it. -/
theorem readNumber_of_isRunFrom {words run : List String} {start : Nat}
    (h : IsRunFrom words start run) :
    readNumber words start = (min (decimal run) Text.maxInt64, start + run.length) := by
  obtain ⟨after, hdrop, hafter⟩ := h.split
  have hrun : (words.drop start).takeWhile isDigitWord = run := by
    rw [hdrop]
    exact takeWhile_isDigitWord h.isDigitWord hafter
  rw [readNumber, hrun, valueOfDigits_eq]

/-- Whether a number is to be negated that is read from an index on. -/
def IsNegated (words : List String) (start : Nat) : Prop :=
  words[start]? = some "minus" ∨ words[start]? = some "negative"

theorem readInteger_of_isNegated {words run : List String} {start : Nat} (hsign : IsNegated words start)
    (h : IsRunFrom words (start + 1) run) :
    readInteger words start =
      (-((min (decimal run) Text.maxInt64 : Nat) : Int), start + 1 + run.length) := by
  unfold IsNegated at hsign
  rw [readInteger, if_pos hsign, readNumber_of_isRunFrom h]

theorem readInteger_of_not_isNegated {words : List String} {start : Nat}
    (hsign : ¬IsNegated words start) :
    readInteger words start = (((readNumber words start).1 : Int), (readNumber words start).2) := by
  unfold IsNegated at hsign
  rw [readInteger, if_neg hsign]

/-- **An integer** that is read lies as far below zero as above. -/
theorem readInteger_bounds (words : List String) (start : Nat) :
    -(Text.maxInt64 : Int) ≤ (readInteger words start).1 ∧
      (readInteger words start).1 ≤ Text.maxInt64 := by
  by_cases hsign : IsNegated words start
  · obtain ⟨run, hrun⟩ := exists_isRunFrom words (start + 1)
    rw [readInteger_of_isNegated hsign hrun]
    dsimp only
    omega
  · obtain ⟨run, hrun⟩ := exists_isRunFrom words start
    rw [readInteger_of_not_isNegated hsign, readNumber_of_isRunFrom hrun]
    dsimp only
    omega

/-! ## The last run -/

/-- The last run of digit words among words. -/
structure IsLastRun (words run : List String) : Prop where
  ne_nil : run ≠ []
  isDigitWord : ∀ word ∈ run, isDigitWord word = true
  split : ∃ before after, words = before ++ run ++ after ∧
    (∀ word ∈ before.getLast?, Session.isDigitWord word = false) ∧
      ∀ word ∈ after, Session.isDigitWord word = false

variable {words run : List String}

/-- Words have a last run unless none of them is a digit word. -/
theorem exists_isLastRun (words : List String) :
    (∀ word ∈ words, isDigitWord word = false) ∨ ∃ run, IsLastRun words run := by
  let kept := words.rdropWhile fun word => !isDigitWord word
  let after := words.rtakeWhile fun word => !isDigitWord word
  have hwords : kept ++ after = words := List.rdropWhile_append_rtakeWhile
  have hafter : ∀ word ∈ after, isDigitWord word = false := by
    intro word hword
    have hnot := List.mem_rtakeWhile_imp (p := fun word => !isDigitWord word) hword
    rwa [Bool.not_eq_true'] at hnot
  by_cases hkept : kept = []
  · left
    rw [hkept, List.nil_append] at hwords
    rwa [hwords] at hafter
  · right
    refine ⟨kept.rtakeWhile isDigitWord, ?_, ?_, kept.rdropWhile isDigitWord, after, ?_, ?_, hafter⟩
    · intro hrun
      -- what is kept ends with a digit word, so that the run is not empty
      have hlast := List.rdropWhile_last_not (fun word => !isDigitWord word) words hkept
      have hnot := List.rtakeWhile_eq_nil_iff.mp hrun hkept
      rw [Bool.not_eq_true', Bool.not_eq_false] at hlast
      exact hnot hlast
    · intro word hword
      exact List.mem_rtakeWhile_imp hword
    · rw [List.rdropWhile_append_rtakeWhile, hwords]
    · intro word hword
      obtain ⟨hbefore, rfl⟩ := List.mem_getLast?_eq_getLast hword
      have hlast := List.rdropWhile_last_not isDigitWord kept hbefore
      rwa [Bool.not_eq_true] at hlast

/-- The last run is the whole run from where it begins. -/
theorem IsLastRun.exists_isRunFrom (h : IsLastRun words run) : ∃ start, IsRunFrom words start run := by
  obtain ⟨before, after, hwords, -, hafter⟩ := h.split
  refine ⟨before.length, h.isDigitWord, after, ?_, fun word hword => ?_⟩
  · rw [hwords, List.append_assoc, List.drop_left]
  · exact hafter word (List.mem_of_mem_head? hword)

/-- **The number of the last run** is what is read, clamped. -/
theorem readLastNumber_of_isLastRun (h : IsLastRun words run) :
    readLastNumber words = some (min (decimal run) Text.maxInt64) := by
  obtain ⟨before, after, hwords, hbefore, hafter⟩ := h.split
  have hreverse : words.reverse = after.reverse ++ (run.reverse ++ before.reverse) := by
    rw [hwords, List.reverse_append, List.reverse_append]
  -- backwards, the words after the run are skipped, and the run ends where another word comes
  have hskipped : words.reverse.dropWhile (fun word => !isDigitWord word) =
      run.reverse ++ before.reverse := by
    rw [hreverse, List.dropWhile_append_of_pos (by simpa using hafter)]
    have hne : run.reverse ≠ [] := by simpa using h.ne_nil
    obtain ⟨word, rest, hrun⟩ := List.exists_cons_of_ne_nil hne
    have hdigit : isDigitWord word = true := by
      apply h.isDigitWord
      rw [← List.mem_reverse, hrun]
      exact List.mem_cons_self
    rw [hrun, List.cons_append, List.dropWhile_cons_of_neg (by simp [hdigit])]
  have htaken : (run.reverse ++ before.reverse).takeWhile isDigitWord = run.reverse := by
    refine takeWhile_isDigitWord (by simpa using h.isDigitWord) fun word hword => hbefore word ?_
    rwa [List.getLast?_eq_head?_reverse]
  rw [readLastNumber, hskipped, htaken]
  split
  · rename_i hempty
    exact absurd (List.reverse_eq_nil_iff.mp hempty) h.ne_nil
  · rw [List.reverse_reverse, valueOfDigits_eq]

theorem readLastNumber_of_no_digits (h : ∀ word ∈ words, isDigitWord word = false) :
    readLastNumber words = none := by
  have hskipped : words.reverse.dropWhile (fun word => !isDigitWord word) = [] := by
    simpa using h
  rw [readLastNumber, hskipped]
  rfl

/-- **Spoken numbers** are read as the numbers that they are, up to `2 ^ 63 - 1`:

    * from an index on, the number of the run of digit words there, which is zero if there are none, and
      the index behind the run;
    * an integer from an index on, the number of the run one word later and negated if the word there
      says so, and otherwise that of the run there, so that it lies between `-(2 ^ 63 - 1)` and
      `2 ^ 63 - 1`;
    * the last number, that of the last run of digit words, wherever it begins, unless no word is a
      digit. -/
theorem numbers_spoken (words : List String) (start : Nat) :
    (∃ run, IsRunFrom words start run ∧
      readNumber words start = (min (decimal run) (2 ^ 63 - 1), start + run.length)) ∧
    (IsNegated words start → ∃ run, IsRunFrom words (start + 1) run ∧
      readInteger words start =
        (-((min (decimal run) (2 ^ 63 - 1) : Nat) : Int), start + 1 + run.length)) ∧
    (¬IsNegated words start →
      readInteger words start = (((readNumber words start).1 : Int), (readNumber words start).2)) ∧
    (-(2 ^ 63 - 1) ≤ (readInteger words start).1 ∧ (readInteger words start).1 ≤ 2 ^ 63 - 1) ∧
    (readLastNumber words = none ↔ ∀ word ∈ words, isDigitWord word = false) ∧
    ((∃ word ∈ words, isDigitWord word = true) → ∃ first run, IsLastRun words run ∧
      IsRunFrom words first run ∧ readLastNumber words = some (min (decimal run) (2 ^ 63 - 1))) := by
  obtain ⟨run, hrun⟩ := exists_isRunFrom words start
  obtain ⟨later, hlater⟩ := exists_isRunFrom words (start + 1)
  refine ⟨⟨run, hrun, readNumber_of_isRunFrom hrun⟩,
    fun hsign => ⟨later, hlater, readInteger_of_isNegated hsign hlater⟩,
    readInteger_of_not_isNegated, readInteger_bounds words start, ?_⟩
  rcases exists_isLastRun words with hnone | ⟨last, hlast⟩
  · refine ⟨iff_of_true (readLastNumber_of_no_digits hnone) hnone, fun ⟨word, hword, hdigit⟩ => ?_⟩
    rw [hnone word hword] at hdigit
    exact absurd hdigit Bool.false_ne_true
  · obtain ⟨first, hfirst⟩ := hlast.exists_isRunFrom
    have hread := readLastNumber_of_isLastRun hlast
    refine ⟨iff_of_false (by simp [hread]) fun hnone => ?_, fun _ => ⟨first, last, hlast, hfirst, hread⟩⟩
    rw [readLastNumber_of_no_digits hnone] at hread
    exact absurd hread (Option.some_ne_none _).symm

example : readLastNumber ["one", "more", "four", "oh", "please"] = some 40 := by decide

end SpokenCommand.Session
