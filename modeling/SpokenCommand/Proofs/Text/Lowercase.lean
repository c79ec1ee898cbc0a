import SpokenCommand.Text.Ascii
import SpokenCommand.Text.Lowercase
/-!
What lowercasing leaves behind.

The mapping is a table, and what is said of all its characters is checked of its runs: the images of a
run lie between the images of its ends, and those of a run of every second character are all even or
all odd.

1. **Once is enough** (`lowercase_lowercase`).  The crux is that no image of a run is in a run
   (`image_facts`), so that a character that lowercasing makes is SMALL: lowercasing leaves it alone
   wherever it stands.

2. **ASCII letters come from ASCII letters**, save for `k`, which the kelvin sign becomes as well.  So a
   word of the other letters is the lowercase form of that word in other letter case, and of nothing
   else (`lowerAscii_of_lowercase`).
-/

namespace SpokenCommand.Text

/-! ## Runs -/

namespace CaseRun

/-- The code point that a code point of a run is mapped to. -/
def image (run : CaseRun) (code : Nat) : Nat := (code + run.shift).toNat

/-- Whether a code point is in a run. -/
def Holds (run : CaseRun) (code : Nat) : Prop :=
  run.first ≤ code ∧ code ≤ run.last ∧ (code - run.first) % run.step = 0

/-- Whether runs hold none of the code points from `lo` to `hi`, or if `sparse` none of those that are
    even or odd as `lo` is. -/
def leaves (sparse : Bool) (lo hi : Nat) : List CaseRun → Bool
  | [] => true
  | run :: rest =>
    Nat.blt hi run.first ||
      (Nat.blt run.last lo || (sparse && Nat.beq run.step 2 && Nat.beq ((lo + run.first) % 2) 1))
        && leaves sparse lo hi rest

/-- Whether a run has one character or every second one. -/
def isSparse (run : CaseRun) : Bool := Nat.beq run.step 2 || Nat.beq run.first run.last

/-- A character that is mapped elsewhere is in a run. -/
theorem map_eq_self_or (runs : List CaseRun) (c : Char) :
    map runs c = c ∨ ∃ run ∈ runs, run.Holds c.toNat ∧ map runs c = Char.ofNat (run.image c.toNat) := by
  induction runs with
  | nil => exact Or.inl rfl
  | cons run rest ih =>
    rw [map]
    split
    · exact Or.inl rfl
    · rename_i hfirst
      split
      · rename_i hlast
        rw [Bool.and_eq_true, decide_eq_true_iff, beq_iff_eq] at hlast
        exact Or.inr ⟨run, List.mem_cons_self, ⟨Nat.le_of_not_lt hfirst, hlast⟩, rfl⟩
      · rcases ih with hself | ⟨found, hfound, hholds⟩
        · exact Or.inl hself
        · exact Or.inr ⟨found, List.mem_cons_of_mem _ hfound, hholds⟩

/-- A character that is in no run is mapped to itself. -/
theorem map_of_leaves {sparse : Bool} {lo hi : Nat} {runs : List CaseRun} {c : Char}
    (h : leaves sparse lo hi runs = true) (hlo : lo ≤ c.toNat) (hhi : c.toNat ≤ hi)
    (hsparse : sparse = true → c.toNat % 2 = lo % 2) : map runs c = c := by
  induction runs with
  | nil => rfl
  | cons run rest ih =>
    rw [map]
    split
    · rfl
    · rename_i hfirst
      simp only [leaves, Bool.or_eq_true, Bool.and_eq_true, Nat.blt_eq, Nat.beq_eq] at h
      rcases h with hbefore | ⟨houtside, hrest⟩
      · omega
      · rw [if_neg, ih hrest]
        rw [Bool.and_eq_true, decide_eq_true_iff, beq_iff_eq]
        rintro ⟨hlast, hstep⟩
        rcases houtside with hafter | ⟨⟨hs, htwo⟩, hparity⟩
        · omega
        · have hsame := hsparse hs
          rw [htwo] at hstep
          omega

end CaseRun

/-! ## Once is enough -/

/-- Of every run, the images are in no run, are characters, and are not the dotted capital. -/
theorem image_facts : ∀ run ∈ lowercaseRuns,
    CaseRun.leaves run.isSparse (run.image run.first) (run.image run.last) lowercaseRuns = true ∧
      0 < run.image run.first ∧
      (run.image run.last < 0xd800 ∨ 0xdfff < run.image run.first ∧ run.image run.last < 0x110000) ∧
      (run.image run.last < 0x130 ∨ 0x130 < run.image run.first) := by
  decide +kernel

/-- An image lies between those of the ends of its run, and is a character. -/
theorem image_bounds {run : CaseRun} (hrun : run ∈ lowercaseRuns) {code : Nat}
    (hcode : run.Holds code) :
    run.image run.first ≤ run.image code ∧ run.image code ≤ run.image run.last ∧
      (Char.ofNat (run.image code)).toNat = run.image code := by
  obtain ⟨-, -, hvalid, -⟩ := image_facts run hrun
  obtain ⟨hfirst, hlast, -⟩ := hcode
  have hlo : run.image run.first ≤ run.image code := by
    simp only [CaseRun.image]
    omega
  have hhi : run.image code ≤ run.image run.last := by
    simp only [CaseRun.image]
    omega
  have hchar : (run.image code).isValidChar := by
    simp only [Nat.isValidChar]
    omega
  refine ⟨hlo, hhi, ?_⟩
  rw [Char.ofNat, dif_pos hchar]
  rfl

/-- Lowercasing leaves the character alone wherever it stands. -/
def IsSmall (c : Char) : Prop := c ≠ 'Σ' ∧ lowercaseChar c = [c]

theorem isSmall_of_map {c : Char} (hmap : CaseRun.map lowercaseRuns c = c) (hdotted : c ≠ 'İ') :
    IsSmall c := by
  refine ⟨?_, ?_⟩
  · rintro rfl
    exact absurd hmap (by decide)
  · rw [lowercaseChar, if_neg hdotted, hmap]

theorem isSmall_image {run : CaseRun} (hrun : run ∈ lowercaseRuns) {code : Nat}
    (hcode : run.Holds code) : IsSmall (Char.ofNat (run.image code)) := by
  obtain ⟨hleaves, hpos, -, hdotted⟩ := image_facts run hrun
  obtain ⟨hlo, hhi, hnat⟩ := image_bounds hrun hcode
  obtain ⟨hfirst, hlast, hstep⟩ := hcode
  refine isSmall_of_map ?_ ?_
  · refine CaseRun.map_of_leaves hleaves (hnat.symm ▸ hlo) (hnat.symm ▸ hhi) ?_
    intro hsparse
    rw [hnat]
    simp only [CaseRun.isSparse, Bool.or_eq_true, Nat.beq_eq] at hsparse
    simp only [CaseRun.image] at hpos ⊢
    rcases hsparse with htwo | hone
    · rw [htwo] at hstep
      omega
    · omega
  · intro heq
    have hcode : run.image code = 0x130 := by rw [← hnat, heq]; rfl
    omega

theorem isSmall_of_mem_lowercaseChar {c x : Char} (hx : x ∈ lowercaseChar c) : IsSmall x := by
  rw [lowercaseChar] at hx
  split at hx
  · have hpair : ['i', '\u0307'].all fun y => decide (y ≠ 'Σ' ∧ lowercaseChar y = [y]) := by decide
    have hx := List.all_eq_true.mp hpair x hx
    rwa [decide_eq_true_iff] at hx
  · rename_i hdotted
    obtain rfl := List.mem_singleton.mp hx
    rcases CaseRun.map_eq_self_or lowercaseRuns c with hself | ⟨run, hrun, hholds, himage⟩
    · rw [hself]
      exact isSmall_of_map hself hdotted
    · rw [himage]
      exact isSmall_image hrun hholds

/-- What lowercasing makes is small. -/
theorem isSmall_of_mem_lowercaseFrom {before cs : List Char} {x : Char}
    (hx : x ∈ lowercaseFrom before cs) : IsSmall x := by
  induction cs generalizing before with
  | nil => exact absurd hx List.not_mem_nil
  | cons c rest ih =>
    rcases List.mem_append.mp hx with hhead | htail
    · split at hhead
      · obtain rfl := List.mem_singleton.mp hhead
        split
        · exact ⟨by decide, by decide⟩
        · exact ⟨by decide, by decide⟩
      · exact isSmall_of_mem_lowercaseChar hhead
    · exact ih htail

/-- What is small is left alone. -/
theorem lowercaseFrom_of_isSmall {before cs : List Char} (h : ∀ c ∈ cs, IsSmall c) :
    lowercaseFrom before cs = cs := by
  induction cs generalizing before with
  | nil => rfl
  | cons c rest ih =>
    obtain ⟨hsigma, hself⟩ := h c List.mem_cons_self
    rw [lowercaseFrom, if_neg hsigma, hself, ih fun x hx => h x (List.mem_cons_of_mem c hx)]
    rfl

/-- **Once is enough**: lowercasing a lowercase text leaves it alone. -/
@[simp] theorem lowercase_lowercase (text : String) : lowercase (lowercase text) = lowercase text := by
  have hsmall : ∀ c ∈ (lowercase text).toList, IsSmall c := by
    intro c hc
    rw [lowercase, String.toList_ofList] at hc
    exact isSmall_of_mem_lowercaseFrom hc
  rw [lowercase, lowercaseFrom_of_isSmall hsmall, String.ofList_toList]

/-! ## ASCII letters -/

/-- The small ASCII letters that only ASCII letters become: all but `k`. -/
def ownLetters : List Char := "abcdefghijlmnopqrstuvwxyz".toList

/-- The images of a run are not ASCII, unless they are of ASCII or of the kelvin sign. -/
theorem image_ascii : ∀ run ∈ lowercaseRuns,
    0x80 ≤ run.image run.first ∨ (run.first = 0x41 ∧ run.last = 0x5a ∧ run.shift = 32) ∨
      (run.first = 0x212a ∧ run.last = 0x212a) := by
  decide +kernel

theorem toLower_of_lt {c : Char} (h : 0x5a < c.toNat) : c.toLower = c := by
  refine dif_neg ?_
  rintro ⟨-, hle⟩
  exact absurd h (Nat.not_lt_of_le (UInt32.le_iff_toNat_le.mp hle))

/-- A character that is mapped to own letters is one of them in some letter case. -/
theorem map_toLower_lowercaseChar {c : Char} (h : ∀ x ∈ lowercaseChar c, x.toLower ∈ ownLetters) :
    (lowercaseChar c).map Char.toLower = [c.toLower] := by
  rw [lowercaseChar] at h ⊢
  split at h
  · exact absurd (h '\u0307' (by decide)) (by decide)
  · rename_i hdotted
    rw [if_neg hdotted]
    have hown := h _ List.mem_cons_self
    rcases CaseRun.map_eq_self_or lowercaseRuns c with hself | ⟨run, hrun, hholds, himage⟩
    · rw [hself]
      rfl
    · rw [himage] at hown ⊢
      obtain ⟨hlo, -, hnat⟩ := image_bounds hrun hholds
      obtain ⟨hfirst, hlast, -⟩ := hholds
      rcases image_ascii run hrun with hlarge | ⟨hA, hZ, hshift⟩ | ⟨hkelvin, hkelvin'⟩
      · -- an image beyond ASCII is no ASCII letter
        have hge : 0x80 ≤ (Char.ofNat (run.image c.toNat)).toNat := by
          rw [hnat]
          exact Nat.le_trans hlarge hlo
        rw [toLower_of_lt (by omega)] at hown
        have hlt : ownLetters.all fun x => decide (x.toNat < 0x80) := by decide
        exact absurd (of_decide_eq_true (List.all_eq_true.mp hlt _ hown)) (Nat.not_lt_of_le hge)
      · have himages : run.image c.toNat = c.toNat + 32 := by
          rw [CaseRun.image, hshift]
          omega
        have hcases : ∀ code ∈ List.range' 0x41 26,
            (Char.ofNat (code + 32)).toLower = (Char.ofNat code).toLower := by decide
        have hcase := hcases c.toNat (List.mem_range'_1.mpr (by omega))
        rw [Char.ofNat_toNat] at hcase
        rw [himages, List.map_singleton, hcase]
      · have hcode : c = Char.ofNat 0x212a := by
          rw [← Char.ofNat_toNat c, show c.toNat = 0x212a by omega]
        have hk : Char.ofNat (run.image c.toNat) = 'k' := by
          rw [← himage, hcode]
          decide
        rw [hk] at hown
        exact absurd hown (by decide)

theorem map_toLower_lowercaseFrom {before cs : List Char}
    (h : ∀ x ∈ lowercaseFrom before cs, x.toLower ∈ ownLetters) :
    (lowercaseFrom before cs).map Char.toLower = cs.map Char.toLower := by
  induction cs generalizing before with
  | nil => rfl
  | cons c rest ih =>
    rw [lowercaseFrom] at h ⊢
    rw [List.map_append, ih fun x hx => h x (List.mem_append_right _ hx), List.map_cons]
    split at h
    · -- neither form of sigma is an ASCII letter
      have hsigma := h _ (List.mem_append_left _ List.mem_cons_self)
      split at hsigma
      · exact absurd hsigma (by decide)
      · exact absurd hsigma (by decide)
    · rename_i hc
      rw [if_neg hc, map_toLower_lowercaseChar fun x hx => h x (List.mem_append_left _ hx)]
      rfl

/-- **ASCII letters**: a text whose lowercase form is a word of own letters is that word. -/
theorem lowerAscii_of_lowercase {text : String}
    (h : ∀ c ∈ (lowerAscii (lowercase text)).toList, c ∈ ownLetters) :
    lowerAscii text = lowerAscii (lowercase text) := by
  rw [lowerAscii, String.toList_ofList, lowercase, String.toList_ofList] at h
  rw [lowerAscii, lowerAscii, lowercase, String.toList_ofList, map_toLower_lowercaseFrom]
  intro x hx
  exact h _ (List.mem_map_of_mem hx)

end SpokenCommand.Text
