import SpokenCommand.Proofs.Script.Items
/-!
Scripts whose steps a list holds.

1. **Repeats.**  That a repeat asks for too many steps is seen before its copies are made.  It is no more
   than the steps afterwards would show (`holdsItems_cons`), so that an item may be anything here.

2. **The crux** is that reading only ever adds steps (`length_le_of_readItems`).  A piece of a script that
   can be read on its own is held at every moment if it is held at its end, whatever comes before it
   (`holdsItems_append`).

3. So a script is scanned to its steps just when a list holds them (`scan_eq_some_ok_iff`).
-/

namespace SpokenCommand.Script

variable {total total' : Nat} {steps steps' : List Step} {cs rest left tail : List Char} {c : Char}

/-! ## Items -/

/-- The steps after an excessive repeat are too many for a list. -/
theorem exists_readItem_of_isExcessive (h : isExcessive total steps c rest = true) :
    ∃ after left, readItem total steps c rest = .ok (after, left) ∧ maxSteps < after.length := by
  rw [isExcessive, Bool.and_eq_true, Bool.and_eq_true, decide_eq_true_eq] at h
  obtain ⟨⟨rfl, hsteps⟩, hcount⟩ := h
  cases hlast : steps.getLast? with
  | none =>
    obtain rfl := List.getLast?_eq_none_iff.mp hlast
    cases hsteps
  | some last =>
    cases hread : readCount total rest with
    | error e =>
      rw [hread] at hcount
      cases hcount
    | ok counted =>
      obtain ⟨count, left⟩ := counted
      rw [hread] at hcount
      have hmany : maxSteps < steps.length + (count - 1) := of_decide_eq_true hcount
      have hreads : ReadsItem total steps.getLast? '\x7b' rest (List.replicate (count - 1) last) left :=
        .repeats hlast hread
      refine ⟨_, _, hreads.readItem_eq, ?_⟩
      rwa [List.length_append, List.length_replicate]

theorem holdsItems_nil : holdsItems total steps [] = true := by
  rw [holdsItems]

/-- **An item** is held if the steps after it are. -/
theorem holdsItems_cons {after : List Step} (h : readItem total steps c rest = .ok (after, left)) :
    holdsItems total steps (c :: rest) =
      (decide (after.length ≤ maxSteps) && holdsItems total after left) := by
  rw [holdsItems]
  split
  · rename_i e herror
    rw [h] at herror
    cases herror
  · rename_i after' left' hread
    obtain ⟨rfl, rfl⟩ := Prod.mk.inj (Except.ok.inj (h.symm.trans hread))
    cases hexcessive : isExcessive total steps c rest with
    | false => rw [Bool.not_false, Bool.true_and]
    | true =>
      obtain ⟨_, _, hitem, hmany⟩ := exists_readItem_of_isExcessive hexcessive
      obtain ⟨rfl, -⟩ := Prod.mk.inj (Except.ok.inj (h.symm.trans hitem))
      rw [decide_eq_false (Nat.not_le.mpr hmany), Bool.false_and, Bool.and_false]

/-- An item that is no item asks for nothing. -/
theorem holdsItems_of_error {e : Error} (h : readItem total steps c rest = .error e) :
    holdsItems total steps (c :: rest) = true := by
  rw [holdsItems]
  split
  · cases hexcessive : isExcessive total steps c rest with
    | false => rfl
    | true =>
      obtain ⟨_, _, hitem, -⟩ := exists_readItem_of_isExcessive hexcessive
      rw [h] at hitem
      cases hitem
  · rename_i hread
    rw [h] at hread
    cases hread

/-! ## Scripts -/

/-- Reading only ever adds steps. -/
theorem length_le_of_readItems (h : readItems total steps cs = .ok steps') :
    steps.length ≤ steps'.length := by
  fun_induction readItems total steps cs with
  | case1 steps =>
    obtain rfl := Except.ok.inj h
    exact Nat.le_refl _
  | case2 steps c rest e hitem => cases h
  | case3 steps c rest after left hitem ih =>
    obtain ⟨added, -, rfl⟩ := readItem_eq_ok_iff.mp hitem
    have hadded : steps.length ≤ (steps ++ added).length := by
      rw [List.length_append]
      exact Nat.le_add_right _ _
    exact Nat.le_trans hadded (ih h)

/-- **A piece** that can be read on its own is held if it is held at its end, behind steps that are held
    and before what ends a name. -/
theorem holdsItems_append (before : List Step) (htail : EndsName tail)
    (hheld : (before ++ steps).length ≤ maxSteps) (h : readItems total steps cs = .ok steps') :
    holdsItems total' (before ++ steps) (cs ++ tail) =
      (decide ((before ++ steps').length ≤ maxSteps) && holdsItems total' (before ++ steps') tail) := by
  fun_induction readItems total steps cs with
  | case1 steps =>
    obtain rfl := Except.ok.inj h
    rw [decide_eq_true hheld, Bool.true_and]
    rfl
  | case2 steps c rest e hitem => cases h
  | case3 steps c rest after left hitem ih =>
    have hmore := length_le_of_readItems h
    obtain ⟨added, hreads, rfl⟩ := readItem_eq_ok_iff.mp hitem
    rw [List.cons_append, holdsItems_cons (hreads.readItem_append before htail)]
    by_cases hafter : (before ++ (steps ++ added)).length ≤ maxSteps
    · rw [decide_eq_true hafter, Bool.true_and]
      exact ih hafter h
    · have hend : ¬(before ++ steps').length ≤ maxSteps := by
        rw [List.length_append] at hafter ⊢
        omega
      rw [decide_eq_false hafter, decide_eq_false hend, Bool.false_and, Bool.false_and]

/-- A whole script is such a piece, with nothing before it. -/
theorem holdsItems_parse_append {source : String} (htail : EndsName tail)
    (h : parse source = .ok steps) :
    holdsItems total' [] (source.toList ++ tail) =
      (decide (steps.length ≤ maxSteps) && holdsItems total' steps tail) :=
  holdsItems_append [] htail (Nat.zero_le _) h

/-- **A script is scanned** to its steps if a list holds them, and to nothing if not. -/
theorem scan_of_parse {source : String} (h : parse source = .ok steps) :
    scan source = if steps.length ≤ maxSteps then some (.ok steps) else none := by
  have hholds : holdsItems source.toList.length [] source.toList = decide (steps.length ≤ maxSteps) := by
    rw [← List.append_nil source.toList, holdsItems_parse_append endsName_nil h, holdsItems_nil,
      Bool.and_true]
  rw [scan, hholds, h]
  simp only [decide_eq_true_eq]

theorem scan_eq_some_ok_iff {source : String} :
    scan source = some (.ok steps) ↔ parse source = .ok steps ∧ steps.length ≤ maxSteps := by
  constructor
  · intro h
    have hparse : parse source = .ok steps := by
      rw [scan] at h
      split at h
      · exact Option.some.inj h
      · cases h
    rw [scan_of_parse hparse] at h
    split at h
    · rename_i hheld
      exact ⟨hparse, hheld⟩
    · cases h
  · rintro ⟨hparse, hheld⟩
    rw [scan_of_parse hparse, if_pos hheld]

end SpokenCommand.Script
