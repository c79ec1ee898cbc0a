import SpokenCommand.Proofs.Text.Lowercase
import SpokenCommand.Text.Blank
/-!
Words that can be said.

A phrase is split at blanks, so that a text can come out of it as one word only if there is no blank in
it.

1. **Saying words**: the words of a phrase can be said, and words that can be said are the words of a
   phrase, one after another with blanks between them (`words_phraseOf`).

2. **Lowercasing** a text leaves its blanks and makes none, so that a word can be said in lowercase
   exactly if it can be said as it is (`isSayable_lowercase`).  As no run of the table comes near a blank,
   neither with its characters nor with their images, this is checked of the runs.
-/

namespace SpokenCommand.Text

/-- Whether a text can be said as one word. -/
def isSayable (word : String) : Bool := !word.toList.isEmpty && word.toList.all fun c => !isBlank c

theorem isSayable_iff {word : String} :
    isSayable word = true ↔ word.toList ≠ [] ∧ ∀ c ∈ word.toList, isBlank c = false := by
  simp [isSayable]

/-! ## Words of a phrase -/

theorem wordsFrom_sayable {word cs : List Char} (hword : ∀ c ∈ word, isBlank c = false) :
    ∀ found ∈ wordsFrom word cs, found ≠ [] ∧ ∀ c ∈ found, isBlank c = false := by
  intro found hfound
  -- the word read so far is empty again after each blank
  induction cs generalizing word with
  | nil =>
    rw [wordsFrom] at hfound
    split at hfound
    · exact absurd hfound List.not_mem_nil
    · rename_i hne
      obtain rfl := List.mem_singleton.mp hfound
      exact ⟨mt List.isEmpty_iff.mpr hne, hword⟩
  | cons c rest ih =>
    have hnil : ∀ d ∈ ([] : List Char), isBlank d = false := fun d hd => absurd hd List.not_mem_nil
    rw [wordsFrom] at hfound
    split at hfound
    · split at hfound
      · exact ih hnil hfound
      · rename_i hne
        rcases List.mem_cons.mp hfound with rfl | hlater
        · exact ⟨mt List.isEmpty_iff.mpr hne, hword⟩
        · exact ih hnil hlater
    · rename_i hc
      refine ih (List.forall_mem_append.mpr ⟨hword, ?_⟩) hfound
      exact List.forall_mem_singleton.mpr (Bool.eq_false_iff.mpr hc)

/-- What a phrase is split into can be said. -/
theorem isSayable_of_mem_words {phrase word : String} (h : word ∈ words phrase) :
    isSayable word = true := by
  obtain ⟨cs, hcs, rfl⟩ := List.mem_map.mp h
  rw [isSayable_iff, String.toList_ofList]
  exact wordsFrom_sayable (fun c hc => absurd hc List.not_mem_nil) cs hcs

/-- The phrase in which words are said one after another. -/
def phraseOf (spoken : List String) : String :=
  String.ofList (spoken.flatMap fun word => word.toList ++ [' '])

/-- A word that is said goes on to the next blank. -/
theorem wordsFrom_said {cs : List Char} (hcs : ∀ c ∈ cs, isBlank c = false) (word rest : List Char)
    (hne : word ++ cs ≠ []) : wordsFrom word (cs ++ ' ' :: rest) = (word ++ cs) :: wordsFrom [] rest := by
  induction cs generalizing word with
  | nil =>
    rw [List.append_nil] at hne ⊢
    have hspace : isBlank ' ' = true := rfl
    rw [List.nil_append, wordsFrom, if_pos hspace, if_neg (mt List.isEmpty_iff.mp hne)]
  | cons c cs ih =>
    rw [List.forall_mem_cons] at hcs
    have hc : ¬ isBlank c = true := Bool.eq_false_iff.mp hcs.1
    rw [List.cons_append, wordsFrom, if_neg hc, ih hcs.2 _ (by simp), List.append_assoc,
      List.singleton_append]

/-- **Words that can be said** are the words of the phrase in which they are said. -/
theorem words_phraseOf {spoken : List String} (h : ∀ word ∈ spoken, isSayable word = true) :
    words (phraseOf spoken) = spoken := by
  rw [words, phraseOf, String.toList_ofList]
  induction spoken with
  | nil => rfl
  | cons word rest ih =>
    rw [List.forall_mem_cons] at h
    obtain ⟨hne, hword⟩ := isSayable_iff.mp h.1
    rw [List.flatMap_cons, List.append_assoc, List.singleton_append, wordsFrom_said hword [] _ hne,
      List.map_cons, ih h.2, List.nil_append, String.ofList_toList]

/-! ## Lowercasing -/

/-- Of every run, neither the characters nor their images are blanks. -/
theorem run_blank_facts : ∀ run ∈ lowercaseRuns, ∀ range ∈ whiteSpace.ranges,
    (range.2 < run.first ∨ run.last < range.1) ∧
      (range.2 < run.image run.first ∨ run.image run.last < range.1) := by
  decide +kernel

theorem isBlank_of_forall_lt {c : Char}
    (h : ∀ range ∈ whiteSpace.ranges, range.2 < c.toNat ∨ c.toNat < range.1) : isBlank c = false := by
  rw [Bool.eq_false_iff]
  intro hblank
  obtain ⟨range, hrange, hfirst, hlast⟩ := CodeRanges.exists_of_covers hblank
  rcases h range hrange with hafter | hbefore
  · omega
  · omega

/-- A character becomes blanks only if it is one. -/
theorem isBlank_of_mem_lowercaseChar {c x : Char} (hx : x ∈ lowercaseChar c) :
    isBlank x = isBlank c := by
  rw [lowercaseChar] at hx
  split at hx
  · rename_i hdotted
    have hpair : ['i', '\u0307'].all fun y => isBlank y == isBlank 'İ' := by decide
    rw [hdotted]
    exact beq_iff_eq.mp (List.all_eq_true.mp hpair x hx)
  · obtain rfl := List.mem_singleton.mp hx
    rcases CaseRun.map_eq_self_or lowercaseRuns c with hself | ⟨run, hrun, hholds, himage⟩
    · rw [hself]
    · obtain ⟨hlo, hhi, hnat⟩ := image_bounds hrun hholds
      have hfirst := hholds.1
      have hlast := hholds.2.1
      have hchar : isBlank c = false := by
        refine isBlank_of_forall_lt fun range hrange => ?_
        have hrange := (run_blank_facts run hrun range hrange).1
        omega
      have hsmall : isBlank (Char.ofNat (run.image c.toNat)) = false := by
        refine isBlank_of_forall_lt fun range hrange => ?_
        have hrange := (run_blank_facts run hrun range hrange).2
        rw [hnat]
        omega
      rw [himage, hsmall, hchar]

theorem lowercaseChar_ne_nil (c : Char) : lowercaseChar c ≠ [] := by
  rw [lowercaseChar]
  split
  · exact List.cons_ne_nil _ _
  · exact List.cons_ne_nil _ _

/-- What one character becomes is not nothing, and is blank only if the character is. -/
theorem all_lowercaseChar (c : Char) :
    ((lowercaseChar c).all fun x => !isBlank x) = !isBlank c := by
  obtain ⟨x, rest, hlower⟩ := List.exists_cons_of_ne_nil (lowercaseChar_ne_nil c)
  have hall : ∀ y ∈ x :: rest, isBlank y = isBlank c := by
    intro y hy
    exact isBlank_of_mem_lowercaseChar (hlower ▸ hy)
  rw [hlower]
  cases hc : isBlank c with
  | true => simp [hall x List.mem_cons_self, hc]
  | false =>
    rw [hc] at hall
    simpa using hall

theorem all_lowercaseFrom (before cs : List Char) :
    ((lowercaseFrom before cs).all fun x => !isBlank x) = cs.all fun c => !isBlank c := by
  induction cs generalizing before with
  | nil => rfl
  | cons c rest ih =>
    rw [lowercaseFrom, List.all_append, ih, List.all_cons]
    congr 1
    split
    · rename_i hsigma
      rw [hsigma]
      split
      · decide
      · decide
    · exact all_lowercaseChar c

theorem isEmpty_lowercaseFrom (before cs : List Char) :
    (lowercaseFrom before cs).isEmpty = cs.isEmpty := by
  cases cs with
  | nil => rfl
  | cons c rest =>
    rw [List.isEmpty_cons, List.isEmpty_eq_false_iff, lowercaseFrom]
    intro hnil
    obtain ⟨hhead, -⟩ := List.append_eq_nil_iff.mp hnil
    split at hhead
    · cases hhead
    · exact lowercaseChar_ne_nil c hhead

/-- **A word in lowercase** can be said exactly if the word can. -/
theorem isSayable_lowercase (word : String) : isSayable (lowercase word) = isSayable word := by
  rw [isSayable, isSayable, lowercase, String.toList_ofList, all_lowercaseFrom, isEmpty_lowercaseFrom]

end SpokenCommand.Text
