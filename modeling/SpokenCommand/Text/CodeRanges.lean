/-!
Character properties as tables.

A property of characters is held as the RANGES of code points that have it, in increasing order.
The search stops at the first range that begins beyond the code point, so that the common case, an
ASCII character, is decided by the first few ranges of even the longest table.
-/

namespace SpokenCommand.Text

/-- Inclusive ranges of code points, in increasing order. -/
structure CodeRanges where
  ranges : List (Nat × Nat)

/-- Whether one of the increasing `ranges` holds `code`. -/
def CodeRanges.covers : List (Nat × Nat) → Nat → Bool
  | [], _ => false
  | (first, last) :: rest, code =>
    if code < first then false else decide (code ≤ last) || covers rest code

/-- Whether the table holds a character. -/
def CodeRanges.contains (table : CodeRanges) (c : Char) : Bool := covers table.ranges c.toNat

/-- A code point is only ever covered by a range that has it between its ends. -/
theorem CodeRanges.exists_of_covers {ranges : List (Nat × Nat)} {code : Nat}
    (h : covers ranges code = true) : ∃ r ∈ ranges, r.1 ≤ code ∧ code ≤ r.2 := by
  induction ranges with
  | nil => simp [covers] at h
  | cons r rest ih =>
    obtain ⟨first, last⟩ := r
    simp only [covers] at h
    split at h
    · exact absurd h (by simp)
    · rename_i hfirst
      rcases Bool.or_eq_true _ _ |>.mp h with hlast | hrest
      · exact ⟨(first, last), by simp, by simpa using hfirst, by simpa using hlast⟩
      · obtain ⟨r, hr, hb⟩ := ih hrest
        exact ⟨r, List.mem_cons_of_mem _ hr, hb⟩

end SpokenCommand.Text
