import SpokenCommand.Proofs.Script.Items
/-!
The steps that scripts can ask for.

Not every step is one that a script can write.  A text ends at the first back quote without a
backslash before it, so that none ends in a backslash; a modifier that is only named is held, so that
none is pressed; and numbers have their bounds (`Step.IsWritable`).

The crux is what one item adds (`ReadsItem.isWritable`): a step of its own, which is writable, or copies
of the last step before it, which the invariant covers.  So every item keeps the steps writable, and so
does a script.
-/

namespace SpokenCommand.Script

variable {total : Nat} {steps steps' : List Step} {cs rest left : List Char} {c : Char}

/-- A coordinate is within the 32-bit numbers, and negative only if it is relative. -/
def Axis.IsWritable (axis : Axis) : Prop :=
  ∀ v ∈ axis.value, (if axis.isAbsolute then 0 else -(Text.maxInt32 : Int)) ≤ v ∧ v ≤ Text.maxInt32

/-- The steps that a script can ask for. -/
def Step.IsWritable : Step → Prop
  | .text t => t ≠ "" ∧ t.toList.getLast? ≠ some '\\'
  | .key k motion => motion = .press → k.isModifier = false
  | .mouse action => action.x.IsWritable ∧ action.y.IsWritable
  | .delay milliseconds => milliseconds ≤ Text.maxNat64

/-! ## What is read -/

theorem readText_nil (h : readText cs = some ([], left)) : cs = backQuote :: left := by
  unfold readText at h
  split at h
  · cases h
  · cases h
    rfl
  · obtain ⟨read, -, heq⟩ := Option.map_eq_some_iff.mp h
    cases heq
  · obtain ⟨read, -, heq⟩ := Option.map_eq_some_iff.mp h
    cases heq

/-- A backslash at the end of a text would have been before the closing back quote. -/
theorem readText_getLast? {text : List Char} (h : readText cs = some (text, left)) :
    text.getLast? ≠ some '\\' := by
  fun_induction readText cs generalizing text left with
  | case1 => cases h
  | case2 rest =>
    cases h
    decide
  | case3 rest ih =>
    obtain ⟨⟨text, left⟩, hrest, heq⟩ := Option.map_eq_some_iff.mp h
    cases heq
    cases text with
    | nil => decide
    | cons d text =>
      rw [List.getLast?_cons_cons]
      exact ih hrest
  | case4 c rest hquote hescape ih =>
    obtain ⟨⟨text, left⟩, hrest, heq⟩ := Option.map_eq_some_iff.mp h
    cases heq
    cases text with
    | nil =>
      intro hc
      exact hescape left (Option.some.inj hc) (readText_nil hrest)
    | cons d text =>
      rw [List.getLast?_cons_cons]
      exact ih hrest

theorem boundedNumber_eq_ok {max n : Nat} {digits : List Char} (h : boundedNumber max digits = .ok n) :
    n = Text.digitsValue digits ∧ n ≤ max := by
  unfold boundedNumber at h
  split at h
  · rename_i hmax
    obtain rfl := Except.ok.inj h
    exact ⟨rfl, hmax⟩
  · cases h

/-- A coordinate is its sign times the number that was read, which has its bound. -/
theorem readAxisValue_eq_ok {isAbsolute : Bool} {sign : Int} {axis : Axis}
    (h : readAxisValue isAbsolute sign cs = .ok (axis, left)) :
    axis.isAbsolute = isAbsolute ∧ ∀ v ∈ axis.value,
      v = sign * Text.digitsValue (cs.takeWhile Char.isDigit) ∧
        Text.digitsValue (cs.takeWhile Char.isDigit) ≤ Text.maxInt32 := by
  unfold readAxisValue at h
  split at h
  · cases h
    exact ⟨rfl, nofun⟩
  · obtain ⟨number, hnumber, h⟩ := bind_eq_ok h
    cases h
    obtain ⟨rfl, hmax⟩ := boundedNumber_eq_ok hnumber
    refine ⟨rfl, fun v hv => ?_⟩
    obtain rfl := Option.some.inj hv
    exact ⟨rfl, hmax⟩

theorem isWritable_of_readAxis {axis : Axis} (h : readAxis cs = .ok (axis, left)) :
    axis.IsWritable := by
  intro v hv
  unfold readAxis at h
  split at h
  · obtain ⟨habsolute, hvalue⟩ := readAxisValue_eq_ok h
    obtain ⟨heq, hmax⟩ := hvalue v hv
    rw [habsolute, if_neg Bool.false_ne_true]
    omega
  · obtain ⟨habsolute, hvalue⟩ := readAxisValue_eq_ok h
    obtain ⟨heq, hmax⟩ := hvalue v hv
    rw [habsolute, if_neg Bool.false_ne_true]
    omega
  · obtain ⟨habsolute, hvalue⟩ := readAxisValue_eq_ok h
    obtain ⟨heq, hmax⟩ := hvalue v hv
    rw [habsolute, if_pos rfl]
    omega

theorem isWritable_of_readMouse {action : MouseAction}
    (h : readMouse total cs = .ok (action, left)) : (Step.mouse action).IsWritable := by
  unfold readMouse at h
  obtain ⟨⟨x, afterX⟩, hx, h⟩ := bind_eq_ok h
  obtain ⟨afterComma, -, h⟩ := bind_eq_ok h
  obtain ⟨⟨y, afterY⟩, hy, h⟩ := bind_eq_ok h
  obtain ⟨⟨click, afterClick⟩, -, h⟩ := bind_eq_ok h
  dsimp only at h
  split at h
  · cases h
    exact ⟨isWritable_of_readAxis hx, isWritable_of_readAxis hy⟩
  · cases h

/-- A key that is only named is not pressed if it is a modifier. -/
theorem isWritable_tap (key : Key) : (Step.tap key).IsWritable := by
  cases hmodifier : key.isModifier with
  | false =>
    intro _
    exact hmodifier
  | true =>
    rw [Step.tap, hmodifier]
    exact nofun

/-! ## Items and scripts -/

/-- **What an item adds** is writable, or a copy of the step before it. -/
theorem ReadsItem.isWritable {last : Option Step} {added : List Step}
    (h : ReadsItem total last c rest added left) :
    ∀ step ∈ added, step.IsWritable ∨ last = some step := by
  have one {step : Step} (hstep : step.IsWritable) :
      ∀ s ∈ [step], s.IsWritable ∨ last = some s := by
    intro s hs
    obtain rfl := List.mem_singleton.mp hs
    exact Or.inl hstep
  cases h with
  | emptyText _ => exact fun _ hstep => absurd hstep List.not_mem_nil
  | text htext hne =>
    refine one ⟨by simpa using hne, ?_⟩
    rw [String.toList_ofList]
    exact readText_getLast? htext
  | hold _ => exact one nofun
  | release _ => exact one nofun
  | repeats hlast _ =>
    intro step hstep
    rw [List.eq_of_mem_replicate hstep]
    exact Or.inr hlast
  | mouse haction => exact one (isWritable_of_readMouse haction)
  | blank _ => exact fun _ hstep => absurd hstep List.not_mem_nil
  | delay _ hnumber => exact one (boundedNumber_eq_ok hnumber).2
  | tap _ _ _ _ => exact one (isWritable_tap _)

theorem isWritable_of_readItem (hsteps : ∀ step ∈ steps, step.IsWritable)
    (h : readItem total steps c rest = .ok (steps', left)) : ∀ step ∈ steps', step.IsWritable := by
  obtain ⟨added, hreads, rfl⟩ := readItem_eq_ok_iff.mp h
  intro step hstep
  rcases List.mem_append.mp hstep with hbefore | hnew
  · exact hsteps step hbefore
  · rcases hreads.isWritable step hnew with hwritable | hlast
    · exact hwritable
    · exact hsteps step (List.mem_of_getLast? hlast)

/-- **Whatever is read** is writable if the steps before it are. -/
theorem isWritable_of_readItems (hsteps : ∀ step ∈ steps, step.IsWritable)
    (h : readItems total steps cs = .ok steps') : ∀ step ∈ steps', step.IsWritable := by
  fun_induction readItems total steps cs with
  | case1 steps =>
    obtain rfl := Except.ok.inj h
    exact hsteps
  | case2 steps c rest error hitem => cases h
  | case3 steps c rest steps₁ rest₁ hitem ih => exact ih (isWritable_of_readItem hsteps hitem) h

end SpokenCommand.Script
