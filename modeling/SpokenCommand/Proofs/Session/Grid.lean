import Mathlib
import SpokenCommand.Proofs.Session.Failing
import SpokenCommand.Settings
/-!
The geometry of the mouse grid.

The words of a phrase name a quarter of the screen, a quarter of that quarter, and so on, and the cursor is
put into the middle of the last one.  Halving drops an odd pixel, so that quarters need not fill what they
are quarters of, and after enough words a side has no pixels left.

1. **Screens.**  Settings give sizes with positive sides that fit into 32 bits, and no others
   (`isScreen_of_environment`).

2. **Sides.**  Left and right, above and below are the same matter twice, so that what halving does is said
   of one SIDE, where it begins and how long it is.  The two halves of a side lie in it, and apart.

3. **The crux** is what remains true of a side of the screen however often it is halved (`Side.Fits`): it
   ends on the screen, and it BEGINS before the end of the screen.  Of a side with pixels the one follows
   from the other; of a side without, which may begin where its second half would, only the latter keeps
   its middle on the screen.

4. **Rectangles.**  Every rectangle on the way (`Rectangle.chain`) fits the screen, so that nothing that is
   computed of it exceeds 32 bits (`Rectangle.Fits.computesInt32`), and lies in the one before.  Two lists
   of words of the same length lead apart from the first word on in which they differ
   (`Rectangle.disjoint_of_narrow`).
-/

namespace SpokenCommand.Session

open Playback Script

/-! ## Screens -/

/-- A number that fits into 32 bits. -/
def IsInt32 (n : Int) : Prop := -2 ^ 31 ≤ n ∧ n ≤ 2 ^ 31 - 1

/-- A size with two sides that are positive and fit into 32 bits. -/
structure IsScreen (screen : Size) : Prop where
  width_pos : 0 < screen.width
  width_le : screen.width ≤ 2 ^ 31 - 1
  height_pos : 0 < screen.height
  height_le : screen.height ≤ 2 ^ 31 - 1

theorem readMagnitude_le {max value n : Nat} {excess : Text.IntegerError} {digits : List Char}
    (hvalue : value ≤ max) (h : Text.readMagnitude max excess value digits = .ok n) : n ≤ max := by
  induction digits generalizing value with
  | nil =>
    obtain rfl := Except.ok.inj h
    exact hvalue
  | cons c digits ih =>
    rw [Text.readMagnitude] at h
    split at h
    · cases h
    · split at h
      · cases h
      · rename_i hmax
        exact ih (Nat.not_lt.mp hmax) h

theorem readUnsigned_le {max n : Nat} {excess : Text.IntegerError} {digits : List Char}
    (h : Text.readUnsigned max excess digits = .ok n) : n ≤ max := by
  rw [Text.readUnsigned] at h
  split at h
  · cases h
  · exact readMagnitude_le (Nat.zero_le max) h

theorem exists_of_map_eq_ok {ε α β : Type} {x : Except ε α} {f : α → β} {b : β}
    (h : x.map f = .ok b) : ∃ a, x = .ok a ∧ f a = b := by
  cases x with
  | error e => cases h
  | ok a => exact ⟨a, rfl, Except.ok.inj h⟩

theorem integer32_le {text : String} {n : Int} (h : Text.integer32 text = .ok n) :
    n ≤ Text.maxInt32 := by
  unfold Text.integer32 at h
  split at h
  · cases h
  · obtain ⟨value, hvalue, rfl⟩ := exists_of_map_eq_ok h
    obtain ⟨k, -, hvalue⟩ := bind_eq_ok hvalue
    cases hvalue
    exact Int.le_trans (Int.neg_nonpos_of_nonneg (Int.natCast_nonneg k)) (Int.natCast_nonneg _)
  · obtain ⟨value, hvalue, rfl⟩ := exists_of_map_eq_ok h
    obtain ⟨k, hk, hvalue⟩ := bind_eq_ok hvalue
    cases hvalue
    exact Int.ofNat_le.mpr (readUnsigned_le hk)
  · obtain ⟨value, hvalue, rfl⟩ := exists_of_map_eq_ok h
    obtain ⟨k, hk, hvalue⟩ := bind_eq_ok hvalue
    cases hvalue
    exact Int.ofNat_le.mpr (readUnsigned_le hk)

/-- **The sizes that settings give** are sizes of screens. -/
theorem isScreen_of_environment {env : Environment} {screen : Size} (h : env.screen = .ok screen) :
    IsScreen screen := by
  have hside {text : String} {n : Int} (h : readSide text = .ok n) : n ≤ Text.maxInt32 := by
    unfold readSide at h
    split at h
    · rename_i hread
      obtain rfl := Except.ok.inj h
      exact integer32_le hread
    · cases h
  unfold Environment.screen at h
  split at h
  · obtain rfl := Except.ok.inj h
    exact ⟨by decide, by decide, by decide, by decide⟩
  split at h
  · rename_i size hsize
    obtain rfl := Except.ok.inj h
    unfold readSize at hsize
    dsimp only at hsize
    split at hsize
    · cases hsize
    · obtain ⟨width, hwidth, hsize⟩ := bind_eq_ok hsize
      obtain ⟨height, hheight, hsize⟩ := bind_eq_ok hsize
      split at hsize
      · cases hsize
      · rename_i hpos
        cases hsize
        have hwidth : width ≤ 2 ^ 31 - 1 := hside hwidth
        have hheight : height ≤ 2 ^ 31 - 1 := hside hheight
        obtain ⟨hwidth', hheight'⟩ := not_or.mp hpos
        exact ⟨Int.not_le.mp hwidth', hwidth, Int.not_le.mp hheight', hheight⟩
  · cases h

/-! ## Sides -/

/-- A side of a rectangle: where it begins, and how long it is. -/
structure Side where
  start : Int
  length : Int

namespace Side

variable {side : Side} {limit : Int}

/-- The first or the second half of a side.  The odd pixel of a side belongs to neither. -/
def half (side : Side) (isSecond : Bool) : Side :=
  ⟨if isSecond then side.start + side.length.tdiv 2 else side.start, side.length.tdiv 2⟩

theorem half_bounds (h : 0 ≤ side.length) (isSecond : Bool) :
    (side.half isSecond).length = side.length / 2 ∧ side.start ≤ (side.half isSecond).start ∧
      (side.half isSecond).start ≤ side.start + side.length / 2 := by
  rw [half, Int.tdiv_eq_ediv_of_nonneg h]
  dsimp only
  split
  · omega
  · omega

/-- A side lies between zero and a limit, and does not begin at the limit even if it is empty. -/
structure Fits (side : Side) (limit : Int) : Prop where
  start_nonneg : 0 ≤ side.start
  start_lt : side.start < limit
  length_nonneg : 0 ≤ side.length
  end_le : side.start + side.length ≤ limit

/-- **Halving** keeps a side where it fits. -/
theorem Fits.half (h : side.Fits limit) (isSecond : Bool) : (side.half isSecond).Fits limit := by
  obtain ⟨hstart, hlt, hlength, hend⟩ := h
  obtain ⟨hhalf, hge, hle⟩ := half_bounds hlength isSecond
  exact ⟨by omega, by omega, by omega, by omega⟩

/-- The middle of a side. -/
def middle (side : Side) : Int := side.start + side.length.tdiv 2

/-- **The middle** of a side that fits is before the limit, also if the side is empty. -/
theorem Fits.middle_bounds (h : side.Fits limit) : 0 ≤ side.middle ∧ side.middle < limit ∧
    side.start ≤ side.middle ∧ side.middle ≤ side.start + side.length := by
  obtain ⟨hstart, hlt, hlength, hend⟩ := h
  rw [middle, Int.tdiv_eq_ediv_of_nonneg hlength]
  omega

/-- The pixels of a side. -/
def pixels (side : Side) : Set Int := Set.Ico side.start (side.start + side.length)

/-- The pixels of a side, and the one at which it ends. -/
def closure (side : Side) : Set Int := Set.Icc side.start (side.start + side.length)

theorem half_end_le (h : 0 ≤ side.length) (isSecond : Bool) :
    (side.half isSecond).start + (side.half isSecond).length ≤ side.start + side.length := by
  obtain ⟨hhalf, -, hle⟩ := half_bounds h isSecond
  omega

theorem pixels_half_subset (h : 0 ≤ side.length) (isSecond : Bool) :
    (side.half isSecond).pixels ⊆ side.pixels :=
  Set.Ico_subset_Ico (half_bounds h isSecond).2.1 (half_end_le h isSecond)

theorem closure_half_subset (h : 0 ≤ side.length) (isSecond : Bool) :
    (side.half isSecond).closure ⊆ side.closure :=
  Set.Icc_subset_Icc (half_bounds h isSecond).2.1 (half_end_le h isSecond)

/-- The first half of a side ends where the second begins. -/
theorem disjoint_first_second (side : Side) :
    Disjoint (side.half false).pixels (side.half true).pixels := by
  refine Set.disjoint_left.mpr fun n hfirst hsecond => ?_
  obtain ⟨-, hlt⟩ := hfirst
  obtain ⟨hge, -⟩ := hsecond
  exact Int.not_lt.mpr hge hlt

theorem disjoint_halves {isSecond isSecond' : Bool} (h : isSecond ≠ isSecond') :
    Disjoint (side.half isSecond).pixels (side.half isSecond').pixels := by
  cases isSecond with
  | false =>
    cases isSecond' with
    | false => exact absurd rfl h
    | true => exact side.disjoint_first_second
  | true =>
    cases isSecond' with
    | false => exact side.disjoint_first_second.symm
    | true => exact absurd rfl h

end Side

/-! ## Quarters -/

/-- The word for a quarter: `one` and `two` above, `three` and `four` below. -/
def sectionWord (isRight isBelow : Bool) : String :=
  match isRight, isBelow with
  | false, false => "one"
  | true, false => "two"
  | false, true => "three"
  | true, true => "four"

namespace Rectangle

variable {r quarter part : Rectangle} {screen : Size} {word : String} {words : List String}

/-- The whole screen. -/
def ofScreen (screen : Size) : Rectangle := ⟨0, 0, screen.width, screen.height⟩

/-- The side from left to right. -/
def across (r : Rectangle) : Side := ⟨r.x, r.width⟩

/-- The side from top to bottom. -/
def down (r : Rectangle) : Side := ⟨r.y, r.height⟩

/-- The pixels of a rectangle. -/
def pixels (r : Rectangle) : Set Point := {p | p.x ∈ r.across.pixels ∧ p.y ∈ r.down.pixels}

/-- The pixels of a rectangle, and those at which it ends on the right and below. -/
def closure (r : Rectangle) : Set Point := {p | p.x ∈ r.across.closure ∧ p.y ∈ r.down.closure}

/-- The four numbers of a rectangle fit into 32 bits. -/
def FitsInt32 (r : Rectangle) : Prop :=
  IsInt32 r.x ∧ IsInt32 r.y ∧ IsInt32 r.width ∧ IsInt32 r.height

/-- **A quarter** has a half of either side, and there is a word for each. -/
theorem quarter?_eq_some_iff : r.quarter? word = some quarter ↔ ∃ isRight isBelow,
    word = sectionWord isRight isBelow ∧ quarter.across = r.across.half isRight ∧
      quarter.down = r.down.half isBelow := by
  obtain ⟨x, y, width, height⟩ := quarter
  constructor
  · intro h
    unfold quarter? at h
    dsimp only at h
    split at h
    · cases h; exact ⟨false, false, rfl, rfl, rfl⟩
    · cases h; exact ⟨true, false, rfl, rfl, rfl⟩
    · cases h; exact ⟨false, true, rfl, rfl, rfl⟩
    · cases h; exact ⟨true, true, rfl, rfl, rfl⟩
    · cases h
  · rintro ⟨isRight, isBelow, rfl, hacross, hdown⟩
    obtain ⟨rfl, rfl⟩ := Side.mk.inj hacross
    obtain ⟨rfl, rfl⟩ := Side.mk.inj hdown
    cases isRight with
    | false => cases isBelow <;> rfl
    | true => cases isBelow <;> rfl

/-- The words that name a quarter. -/
theorem mem_sections_iff : word ∈ ["one", "two", "three", "four"] ↔
    ∃ isRight isBelow, word = sectionWord isRight isBelow := by
  constructor
  · intro h
    simp only [List.mem_cons, List.not_mem_nil, or_false] at h
    rcases h with rfl | rfl | rfl | rfl
    · exact ⟨false, false, rfl⟩
    · exact ⟨true, false, rfl⟩
    · exact ⟨false, true, rfl⟩
    · exact ⟨true, true, rfl⟩
  · rintro ⟨isRight, isBelow, rfl⟩
    revert isRight isBelow
    decide

theorem exists_quarter (h : word ∈ ["one", "two", "three", "four"]) (r : Rectangle) :
    ∃ quarter, r.quarter? word = some quarter := by
  obtain ⟨isRight, isBelow, rfl⟩ := mem_sections_iff.mp h
  exact ⟨⟨_, _, _, _⟩, quarter?_eq_some_iff.mpr ⟨isRight, isBelow, rfl, rfl, rfl⟩⟩

theorem quarter?_eq_none (h : word ∉ ["one", "two", "three", "four"]) (r : Rectangle) :
    r.quarter? word = none := by
  rw [Option.eq_none_iff_forall_ne_some]
  intro quarter hquarter
  obtain ⟨isRight, isBelow, hword, -, -⟩ := quarter?_eq_some_iff.mp hquarter
  exact h (mem_sections_iff.mpr ⟨isRight, isBelow, hword⟩)

/-- **Different quarters** have no pixel in common: they have different halves of one of the sides. -/
theorem disjoint_quarters {word' : String} {quarter' : Rectangle} (h : r.quarter? word = some quarter)
    (h' : r.quarter? word' = some quarter') (hne : word ≠ word') :
    Disjoint quarter.pixels quarter'.pixels := by
  obtain ⟨isRight, isBelow, rfl, hacross, hdown⟩ := quarter?_eq_some_iff.mp h
  obtain ⟨isRight', isBelow', rfl, hacross', hdown'⟩ := quarter?_eq_some_iff.mp h'
  refine Set.disjoint_left.mpr fun p hp hp' => ?_
  rw [pixels, hacross, hdown] at hp
  rw [pixels, hacross', hdown'] at hp'
  by_cases hright : isRight = isRight'
  · have hbelow : isBelow ≠ isBelow' := by
      rintro rfl
      exact hne (by rw [hright])
    exact Set.disjoint_left.mp (Side.disjoint_halves hbelow) hp.2 hp'.2
  · exact Set.disjoint_left.mp (Side.disjoint_halves hright) hp.1 hp'.1

/-! ## On the screen -/

/-- A rectangle lies on the screen, and begins on it even if it has no pixels. -/
def Fits (r : Rectangle) (screen : Size) : Prop :=
  r.across.Fits screen.width ∧ r.down.Fits screen.height

theorem fits_ofScreen (h : IsScreen screen) : (ofScreen screen).Fits screen :=
  ⟨⟨Int.le_refl _, h.width_pos, Int.le_of_lt h.width_pos, by rw [across, ofScreen, Int.zero_add]⟩,
    ⟨Int.le_refl _, h.height_pos, Int.le_of_lt h.height_pos, by rw [down, ofScreen, Int.zero_add]⟩⟩

/-- **Every quarter** fits where the rectangle does. -/
theorem Fits.of_quarter? (h : r.Fits screen) (hquarter : r.quarter? word = some quarter) :
    quarter.Fits screen := by
  obtain ⟨isRight, isBelow, -, hacross, hdown⟩ := quarter?_eq_some_iff.mp hquarter
  rw [Fits, hacross, hdown]
  exact ⟨h.1.half isRight, h.2.half isBelow⟩

/-- One rectangle lies in another, with its pixels and with where it ends. -/
def Contains (outer inner : Rectangle) : Prop :=
  inner.pixels ⊆ outer.pixels ∧ inner.closure ⊆ outer.closure

theorem Fits.contains (h : r.Fits screen) (hquarter : r.quarter? word = some quarter) :
    r.Contains quarter := by
  obtain ⟨isRight, isBelow, -, hacross, hdown⟩ := quarter?_eq_some_iff.mp hquarter
  have hwidth := h.1.length_nonneg
  have hheight := h.2.length_nonneg
  constructor
  · rintro p ⟨hx, hy⟩
    rw [hacross] at hx
    rw [hdown] at hy
    exact ⟨Side.pixels_half_subset hwidth isRight hx, Side.pixels_half_subset hheight isBelow hy⟩
  · rintro p ⟨hx, hy⟩
    rw [hacross] at hx
    rw [hdown] at hy
    exact ⟨Side.closure_half_subset hwidth isRight hx, Side.closure_half_subset hheight isBelow hy⟩

theorem Fits.fitsInt32 (h : r.Fits screen) (hscreen : IsScreen screen) : r.FitsInt32 := by
  obtain ⟨⟨hx, hxlt, hw, hright⟩, ⟨hy, hylt, hh, hbottom⟩⟩ := h
  obtain ⟨-, hwidth, -, hheight⟩ := hscreen
  dsimp only [across, down] at hx hxlt hw hright hy hylt hh hbottom
  unfold FitsInt32 IsInt32
  omega

theorem Fits.center_bounds (h : r.Fits screen) :
    (0 ≤ r.center.x ∧ r.center.x < screen.width) ∧ (0 ≤ r.center.y ∧ r.center.y < screen.height) ∧
      r.center ∈ r.closure := by
  obtain ⟨hx, hxlt, hxge, hxle⟩ := h.1.middle_bounds
  obtain ⟨hy, hylt, hyge, hyle⟩ := h.2.middle_bounds
  exact ⟨⟨hx, hxlt⟩, ⟨hy, hylt⟩, ⟨hxge, hxle⟩, ⟨hyge, hyle⟩⟩

/-- All that is computed of a rectangle fits into 32 bits: what it is itself, its quarters, and its
    middle. -/
structure ComputesInt32 (r : Rectangle) : Prop where
  fits : r.FitsInt32
  quarter : ∀ word quarter, r.quarter? word = some quarter → quarter.FitsInt32
  center_x : IsInt32 r.center.x
  center_y : IsInt32 r.center.y

theorem Fits.computesInt32 (h : r.Fits screen) (hscreen : IsScreen screen) : r.ComputesInt32 := by
  obtain ⟨⟨hx, hxlt⟩, ⟨hy, hylt⟩, -⟩ := h.center_bounds
  have hwidth := hscreen.width_le
  have hheight := hscreen.height_le
  refine ⟨h.fitsInt32 hscreen, fun word quarter hquarter => ?_, ⟨by omega, by omega⟩,
    ⟨by omega, by omega⟩⟩
  exact (h.of_quarter? hquarter).fitsInt32 hscreen

/-! ## On the way to a part -/

/-- The rectangles on the way to the part that words name, from the first one on. -/
def chain (r : Rectangle) : List String → List Rectangle
  | [] => [r]
  | word :: rest =>
    r :: match r.quarter? word with
      | none => []
      | some quarter => quarter.chain rest

theorem chain_cons (h : r.quarter? word = some quarter) (words : List String) :
    r.chain (word :: words) = r :: quarter.chain words := by
  rw [chain, h]

theorem narrow_cons (h : r.quarter? word = some quarter) (words : List String) :
    r.narrow (word :: words) = quarter.narrow words := by
  rw [narrow, h]

theorem head?_chain (r : Rectangle) (words : List String) : (r.chain words).head? = some r := by
  cases words with
  | nil => rfl
  | cons word words => rfl

/-- **Words that all name quarters** lead to a part, one rectangle further with each of them. -/
theorem exists_narrow (hwords : ∀ word ∈ words, word ∈ ["one", "two", "three", "four"])
    (r : Rectangle) : ∃ part, r.narrow words = .ok part ∧ (r.chain words).getLast? = some part ∧
      (r.chain words).length = words.length + 1 := by
  induction words generalizing r with
  | nil => exact ⟨r, rfl, rfl, rfl⟩
  | cons word words ih =>
    obtain ⟨hword, hrest⟩ := List.forall_mem_cons.mp hwords
    obtain ⟨quarter, hquarter⟩ := exists_quarter hword r
    obtain ⟨part, hnarrow, hlast, hlength⟩ := ih hrest quarter
    rw [narrow_cons hquarter, chain_cons hquarter]
    refine ⟨part, hnarrow, ?_, by rw [List.length_cons, hlength, List.length_cons]⟩
    rw [List.getLast?_cons, hlast]
    rfl

/-- **The first word that names no quarter** is refused. -/
theorem narrow_eq_error {before after : List String}
    (hbefore : ∀ word ∈ before, word ∈ ["one", "two", "three", "four"])
    (hword : word ∉ ["one", "two", "three", "four"]) (r : Rectangle) :
    r.narrow (before ++ word :: after) = .error (.unknownGridSection word) := by
  induction before generalizing r with
  | nil => rw [List.nil_append, narrow, quarter?_eq_none hword]
  | cons first before ih =>
    obtain ⟨hfirst, hrest⟩ := List.forall_mem_cons.mp hbefore
    obtain ⟨quarter, hquarter⟩ := exists_quarter hfirst r
    rw [List.cons_append, narrow_cons hquarter]
    exact ih hrest quarter

theorem Fits.of_mem_chain (h : r.Fits screen) (words : List String) : ∀ q ∈ r.chain words, q.Fits screen := by
  induction words generalizing r with
  | nil => exact List.forall_mem_singleton.mpr h
  | cons word words ih =>
    refine List.forall_mem_cons.mpr ⟨h, ?_⟩
    cases hquarter : r.quarter? word with
    | none => exact fun _ hq => absurd hq List.not_mem_nil
    | some quarter => exact ih (h.of_quarter? hquarter)

/-- **Each rectangle on the way** lies in the one before. -/
theorem Fits.isChain (h : r.Fits screen) (words : List String) :
    (r.chain words).IsChain Contains := by
  induction words generalizing r with
  | nil => exact .singleton r
  | cons word words ih =>
    cases hquarter : r.quarter? word with
    | none =>
      rw [Rectangle.chain, hquarter]
      exact .singleton r
    | some quarter =>
      rw [chain_cons hquarter]
      refine List.isChain_cons.mpr ⟨fun next hnext => ?_, ih (h.of_quarter? hquarter)⟩
      rw [head?_chain] at hnext
      obtain rfl := Option.some.inj hnext
      exact h.contains hquarter

theorem Fits.of_narrow (h : r.Fits screen) (hnarrow : r.narrow words = .ok part) :
    part.Fits screen ∧ part.pixels ⊆ r.pixels := by
  induction words generalizing r with
  | nil =>
    obtain rfl := Except.ok.inj hnarrow
    exact ⟨h, subset_rfl⟩
  | cons word words ih =>
    cases hquarter : r.quarter? word with
    | none =>
      rw [Rectangle.narrow, hquarter] at hnarrow
      cases hnarrow
    | some quarter =>
      rw [narrow_cons hquarter] at hnarrow
      obtain ⟨hfits, hsubset⟩ := ih (h.of_quarter? hquarter) hnarrow
      exact ⟨hfits, hsubset.trans (h.contains hquarter).1⟩

/-- **Different words lead apart**: the parts lie in different quarters of the rectangle to which the
    words lead that both lists begin with. -/
theorem disjoint_of_narrow {words' : List String} {part' : Rectangle} (h : r.Fits screen)
    (hlength : words.length = words'.length) (hne : words ≠ words')
    (hnarrow : r.narrow words = .ok part) (hnarrow' : r.narrow words' = .ok part') :
    Disjoint part.pixels part'.pixels := by
  induction words generalizing r words' with
  | nil => exact absurd (List.length_eq_zero_iff.mp hlength.symm).symm hne
  | cons word words ih =>
    obtain ⟨word', words', rfl⟩ := List.exists_cons_of_length_eq_add_one hlength.symm
    cases hquarter : r.quarter? word with
    | none =>
      rw [Rectangle.narrow, hquarter] at hnarrow
      cases hnarrow
    | some quarter =>
      cases hquarter' : r.quarter? word' with
      | none =>
        rw [Rectangle.narrow, hquarter'] at hnarrow'
        cases hnarrow'
      | some quarter' =>
        rw [narrow_cons hquarter] at hnarrow
        rw [narrow_cons hquarter'] at hnarrow'
        by_cases hword : word = word'
        · subst hword
          obtain rfl := Option.some.inj (hquarter.symm.trans hquarter')
          refine ih (h.of_quarter? hquarter) (Nat.succ.inj hlength) ?_ hnarrow hnarrow'
          rintro rfl
          exact hne rfl
        · obtain ⟨-, hsubset⟩ := (h.of_quarter? hquarter).of_narrow hnarrow
          obtain ⟨-, hsubset'⟩ := (h.of_quarter? hquarter').of_narrow hnarrow'
          exact (disjoint_quarters hquarter hquarter' hword).mono hsubset hsubset'

/-- How words lead to a part of the screen. -/
structure LeadsTo (screen : Size) (words : List String) (part : Rectangle) : Prop where
  narrow_eq : (ofScreen screen).narrow words = .ok part
  /-- The way begins with the whole screen, takes one step for each word, and ends with the part. -/
  head : ((ofScreen screen).chain words).head? = some (ofScreen screen)
  length : ((ofScreen screen).chain words).length = words.length + 1
  last : ((ofScreen screen).chain words).getLast? = some part
  /-- Each rectangle on the way lies in the one before. -/
  nested : ((ofScreen screen).chain words).IsChain Contains
  /-- The middle of the part is on the screen, and in the part or where it ends. -/
  center_x : 0 ≤ part.center.x ∧ part.center.x < screen.width
  center_y : 0 ≤ part.center.y ∧ part.center.y < screen.height
  center_mem : part.center ∈ part.closure

theorem exists_leadsTo (hscreen : IsScreen screen)
    (hwords : ∀ word ∈ words, word ∈ ["one", "two", "three", "four"]) :
    ∃ part, LeadsTo screen words part := by
  have hfits := fits_ofScreen hscreen
  obtain ⟨part, hnarrow, hlast, hlength⟩ := exists_narrow hwords (ofScreen screen)
  obtain ⟨hcenterX, hcenterY, hmem⟩ := (hfits.of_narrow hnarrow).1.center_bounds
  exact ⟨part, hnarrow, head?_chain _ _, hlength, hlast, hfits.isChain words, hcenterX, hcenterY, hmem⟩

end Rectangle

/-! ## The function -/

/-- The step that puts the cursor somewhere. -/
def moveTo (target : Point) : Step :=
  .mouse ⟨⟨some target.x, true⟩, ⟨some target.y, true⟩, none⟩

/-- It moves the cursor there, wherever it is, and does nothing else. -/
theorem primitives_moveTo (cursor target : Point) :
    primitives cursor (moveTo target) = [.moveCursor target] := rfl

variable {s : Session} {words : List String}

theorem mouseGrid_eq (screen : Size) (words : List String) :
    mouseGrid screen words = ((Rectangle.ofScreen screen).narrow (words.drop 1)).bind fun part =>
      ask (.play [moveTo part.center]) := rfl

theorem runFunction_mouseGrid {part : Rectangle}
    (h : (Rectangle.ofScreen s.worker.shown.size).narrow (words.drop 1) = .ok part) :
    s.runFunction .mouseGrid words =
      (ofPlay (s.play [moveTo part.center])).mapResult fun result => result.map fun _ => false := by
  have hinterpret : interpret s.worker.shown.size words .mouseGrid =
      ask (.play [moveTo part.center]) := by
    rw [interpret, mouseGrid_eq, h]
    rfl
  rw [runFunction, hinterpret]
  rfl

/-- **When the worker accepts**, one request of one step is queued behind all others, and nothing else
    changes. -/
theorem runFunction_mouseGrid_of_accepts {part : Rectangle}
    (h : (Rectangle.ofScreen s.worker.shown.size).narrow (words.drop 1) = .ok part)
    (haccepts : s.worker.Accepts) :
    s.runFunction .mouseGrid words =
      { state := { s with worker := s.worker.enqueue [moveTo part.center] }, result := .ok false } := by
  have hplay : s.play [moveTo part.center] =
      ({ s with worker := s.worker.enqueue [moveTo part.center] }, .ok ()) := by
    rw [play, haccepts.submit_eq, if_neg (List.cons_ne_nil _ _)]
  rw [runFunction_mouseGrid h, hplay]
  rfl

theorem runFunction_mouseGrid_error {e : FunctionError}
    (h : (Rectangle.ofScreen s.worker.shown.size).narrow (words.drop 1) = .error e) :
    s.runFunction .mouseGrid words = { state := s, result := .error e } := by
  have hinterpret : interpret s.worker.shown.size words .mouseGrid = .error e := by
    rw [interpret, mouseGrid_eq, h]
    rfl
  rw [runFunction, hinterpret]

/-- **The mouse grid** on a screen of positive 32-bit sides, in every session:

    * whatever the words are, nothing that is computed on the way exceeds 32 bits;
    * words that all name quarters lead to a part of the screen, and the middle of it, which is on the
      screen, is where one step puts the cursor; there is nothing else that is played, so that a worker
      that accepts has one request of this one step more in its queue;
    * different words, equally many, lead to parts without a common pixel;
    * of other words the first that names no quarter is refused, and nothing changes. -/
theorem mouseGrid_geometry (s : Session) (hscreen : IsScreen s.worker.shown.size) :
    (∀ words : List String, ∀ r ∈ (Rectangle.ofScreen s.worker.shown.size).chain (words.drop 1),
      r.ComputesInt32) ∧
    (∀ words, (∀ word ∈ words.drop 1, word ∈ ["one", "two", "three", "four"]) →
      ∃ part, Rectangle.LeadsTo s.worker.shown.size (words.drop 1) part ∧
        s.runFunction .mouseGrid words =
          (ofPlay (s.play [moveTo part.center])).mapResult (fun result => result.map fun _ => false) ∧
        (s.worker.Accepts → s.runFunction .mouseGrid words =
          { state := { s with worker := s.worker.enqueue [moveTo part.center] }, result := .ok false }) ∧
        ∀ cursor, primitives cursor (moveTo part.center) = [.moveCursor part.center]) ∧
    (∀ words words' part part', words.length = words'.length → words ≠ words' →
      Rectangle.LeadsTo s.worker.shown.size words part →
      Rectangle.LeadsTo s.worker.shown.size words' part' → Disjoint part.pixels part'.pixels) ∧
    ∀ words before word after, words.drop 1 = before ++ word :: after →
      (∀ word ∈ before, word ∈ ["one", "two", "three", "four"]) →
      word ∉ ["one", "two", "three", "four"] →
      s.runFunction .mouseGrid words = { state := s, result := .error (.unknownGridSection word) } := by
  have hfits := Rectangle.fits_ofScreen hscreen
  refine ⟨fun words r hr => ?_, fun words hwords => ?_, ?_, ?_⟩
  · exact (hfits.of_mem_chain (words.drop 1) r hr).computesInt32 hscreen
  · obtain ⟨part, hpart⟩ := Rectangle.exists_leadsTo hscreen hwords
    exact ⟨part, hpart, runFunction_mouseGrid hpart.narrow_eq,
      runFunction_mouseGrid_of_accepts hpart.narrow_eq, fun cursor =>
        primitives_moveTo cursor part.center⟩
  · intro words words' part part' hlength hne hpart hpart'
    exact Rectangle.disjoint_of_narrow hfits hlength hne hpart.narrow_eq hpart'.narrow_eq
  · intro words before word after hwords hbefore hword
    apply runFunction_mouseGrid_error
    rw [hwords]
    exact Rectangle.narrow_eq_error hbefore hword _

/-- On a screen of five pixels by three, nothing is left of the fourth quarter of the fourth quarter of the
    fourth quarter; its middle is on the screen all the same, and a session that has just started queues
    one request, to put the cursor there. -/
theorem mouseGrid_geometry_empty :
    IsScreen ⟨5, 3⟩ ∧
    Rectangle.LeadsTo ⟨5, 3⟩ ["four", "four", "four"] ⟨3, 1, 0, 0⟩ ∧
    (start ⟨⟨4, 0⟩, ⟨5, 3⟩⟩).runFunction .mouseGrid ["grid", "four", "four", "four"] =
      (ofPlay ((start ⟨⟨4, 0⟩, ⟨5, 3⟩⟩).play [moveTo ⟨3, 1⟩])).mapResult
        (fun result => result.map fun _ => false) ∧
    (start ⟨⟨4, 0⟩, ⟨5, 3⟩⟩).worker.Accepts ∧
    ((start ⟨⟨4, 0⟩, ⟨5, 3⟩⟩).runFunction .mouseGrid ["grid", "four", "four", "four"]).state.worker.queue =
      [⟨0, [moveTo ⟨3, 1⟩]⟩] ∧
    Rectangle.LeadsTo ⟨5, 3⟩ ["one"] ⟨0, 0, 2, 1⟩ ∧ Rectangle.LeadsTo ⟨5, 3⟩ ["four"] ⟨2, 1, 2, 1⟩ ∧
    Disjoint (Rectangle.pixels ⟨0, 0, 2, 1⟩) (Rectangle.pixels ⟨2, 1, 2, 1⟩) ∧
    (start ⟨⟨4, 0⟩, ⟨5, 3⟩⟩).runFunction .mouseGrid ["grid", "two", "five", "six"] =
      { state := start ⟨⟨4, 0⟩, ⟨5, 3⟩⟩, result := .error (.unknownGridSection "five") } := by
  have hsize : Environment.screen ⟨none, some "5x3"⟩ = .ok ⟨5, 3⟩ := by decide +kernel
  have hscreen : IsScreen ⟨5, 3⟩ := isScreen_of_environment hsize
  obtain ⟨-, hleads, hapart, hrefused⟩ := mouseGrid_geometry (start ⟨⟨4, 0⟩, ⟨5, 3⟩⟩) hscreen
  obtain ⟨part, hpart, hplayed, hqueued, -⟩ := hleads ["grid", "four", "four", "four"] (by decide)
  obtain rfl : ⟨3, 1, 0, 0⟩ = part := Except.ok.inj hpart.narrow_eq
  obtain ⟨one, hone, -⟩ := hleads ["grid", "one"] (by decide)
  obtain rfl : ⟨0, 0, 2, 1⟩ = one := Except.ok.inj hone.narrow_eq
  obtain ⟨four, hfour, -⟩ := hleads ["grid", "four"] (by decide)
  obtain rfl : ⟨2, 1, 2, 1⟩ = four := Except.ok.inj hfour.narrow_eq
  have haccepts : (start ⟨⟨4, 0⟩, ⟨5, 3⟩⟩).worker.Accepts := ⟨rfl, rfl⟩
  have hqueue : ((start ⟨⟨4, 0⟩, ⟨5, 3⟩⟩).runFunction .mouseGrid
      ["grid", "four", "four", "four"]).state.worker.queue = [⟨0, [moveTo ⟨3, 1⟩]⟩] := by
    rw [hqueued haccepts]
    rfl
  exact ⟨hscreen, hpart, hplayed, haccepts, hqueue, hone, hfour, hapart ["one"] ["four"] _ _ rfl (by decide) hone hfour,
    hrefused _ ["two"] "five" ["six"] rfl (by decide) (by decide)⟩

end SpokenCommand.Session
