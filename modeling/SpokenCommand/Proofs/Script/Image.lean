import Mathlib.Data.List.TakeWhile
import SpokenCommand.Proofs.Script.Writable
/-!
Writing scripts, and what scripts can ask for.

The program reads scripts and has no use for writing them; `Step.render` shows steps to people, without
the backslashes that a script would need.  What a script can ask for is told by a script that asks for
it (`write`): the steps one by one, separated by spaces, every back quote of a text with a backslash
before it.

1. **Numbers and names.**  Digits are read back as the number whose digits they are, and each of the keys
   is found under its own name.

2. **Text.**  The crux is the backslash, which is read as itself unless a back quote follows.  A
   backslash in a text is written as it is, and what is written for the rest never begins with a back
   quote, since that has a backslash before it; only at the end of the text does one follow.

3. **Steps.**  Each writable step is read back from what is written for it alone, and so are the steps of
   a script, since a space ends every name and number (`readItems_writeAll`).  With what holds of every
   script that is read, the results of reading are the lists of writable steps.
-/

namespace SpokenCommand.Script

variable {total : Nat} {steps : List Step} {cs rest left tail : List Char} {c : Char}

/-! ## Writing -/

/-- The characters of a text, with a backslash before each back quote. -/
def escape : List Char → List Char
  | [] => []
  | c :: rest => if c = backQuote then '\\' :: backQuote :: escape rest else c :: escape rest

/-- The letter of a button. -/
def Button.letter : Button → Char
  | .left => 'L'
  | .middle => 'M'
  | .right => 'R'

/-- A coordinate with its sign if it is relative. -/
def Axis.write (axis : Axis) : List Char :=
  match axis.value with
  | none => if axis.isAbsolute then [] else ['+']
  | some v =>
    (if axis.isAbsolute then [] else if v < 0 then ['-'] else ['+']) ++ Nat.toDigits 10 v.natAbs

/-- The click of a mouse step, if there is one. -/
def writeClick : Option Button → List Char
  | none => []
  | some button => [',', button.letter]

/-- One step as an item of a script. -/
def Step.write : Step → List Char
  | .text t => backQuote :: (escape t.toList ++ [backQuote])
  | .key k .hold => '+' :: k.name.toList
  | .key k .release => '-' :: k.name.toList
  | .key k .press => k.name.toList
  | .mouse a => '<' :: (a.x.write ++ ',' :: (a.y.write ++ (writeClick a.click ++ ['>'])))
  | .delay ms => Nat.toDigits 10 ms

/-- The script of some steps. -/
def write (steps : List Step) : String :=
  String.ofList ([' '].intercalate (steps.map Step.write))

/-! ## Numbers and names -/

theorem digitsValue_toDigits (n : Nat) : Text.digitsValue (Nat.toDigits 10 n) = n :=
  Nat.ofDigitChars_ten_toDigits

theorem isDigit_of_mem_toDigits {n : Nat} (h : c ∈ Nat.toDigits 10 n) : c.isDigit = true :=
  Nat.isDigit_of_mem_toDigits (by decide) (by decide) h

theorem exists_toDigits (n : Nat) : ∃ c rest, Nat.toDigits 10 n = c :: rest ∧ c.isDigit = true := by
  obtain ⟨c, rest, hdigits⟩ := List.exists_cons_of_ne_nil (Nat.toDigits_ne_nil (n := n) (b := 10))
  refine ⟨c, rest, hdigits, isDigit_of_mem_toDigits (n := n) ?_⟩
  rw [hdigits]
  exact List.mem_cons_self

theorem boundedNumber_toDigits {max n : Nat} (h : n ≤ max) :
    boundedNumber max (Nat.toDigits 10 n) = .ok n := by
  rw [boundedNumber, digitsValue_toDigits, if_pos h]

/-- The names of keys are read as those keys; they are letters and digits, and they begin neither with a
    mark nor with a digit. -/
theorem Key.name_facts (key : Key) : Key.ofName? key.name = some key ∧
    key.name.toList.head?.any (fun c => !isMark c && !c.isDigit) = true ∧
      key.name.toList.all Text.isAlphanumeric = true := by
  cases key with
  | function i => revert i; decide
  | letter i => revert i; decide
  | _ => decide

theorem Key.exists_name (key : Key) : ∃ c rest, key.name.toList = c :: rest ∧
    isMark c = false ∧ c.isDigit = false ∧ ∀ d ∈ c :: rest, Text.isAlphanumeric d = true := by
  obtain ⟨-, hfirst, hall⟩ := key.name_facts
  cases hname : key.name.toList with
  | nil =>
    rw [hname] at hfirst
    cases hfirst
  | cons c rest =>
    rw [hname] at hfirst hall
    obtain ⟨hmark, hdigit⟩ : isMark c = false ∧ c.isDigit = false := by simpa using hfirst
    exact ⟨c, rest, rfl, hmark, hdigit, List.all_eq_true.mp hall⟩

theorem keyNamed_name (key : Key) : keyNamed key.name.toList = .ok key := by
  rw [keyNamed, String.ofList_toList, key.name_facts.1]

theorem readKey_name (key : Key) : readKey total key.name.toList = .ok (key, []) := by
  have hkey := keyNamed_name key
  obtain ⟨c, rest, hname, -, -, hall⟩ := key.exists_name
  rw [hname] at hkey ⊢
  rw [readKey, List.takeWhile_eq_self_iff.mpr hall, List.dropWhile_eq_nil_iff.mpr hall]
  simp only [hkey]
  rfl

/-! ## Text -/

/-- **A text** that does not end in a backslash is read back. -/
theorem readText_escape (h : cs.getLast? ≠ some '\\') :
    readText (escape cs ++ [backQuote]) = some (cs, []) := by
  induction cs with
  | nil => rfl
  | cons c rest ih =>
    have hrest : rest.getLast? ≠ some '\\' := by
      cases rest with
      | nil => exact nofun
      | cons d rest =>
        rw [List.getLast?_cons_cons] at h
        exact h
    rw [escape]
    split
    · rename_i hquote
      subst hquote
      show (readText (escape rest ++ [backQuote])).map _ = _
      rw [ih hrest]
      rfl
    · rename_i hquote
      have hescape : ∀ after, c = '\\' → escape rest ++ [backQuote] = '\x60' :: after → False := by
        intro after hc hafter
        cases rest with
        | nil => exact h (by rw [hc]; rfl)
        | cons d rest =>
          -- what is written for the rest begins with a backslash or with a character as it is
          rw [escape] at hafter
          split at hafter
          · exact absurd (List.cons.inj hafter).1 (by decide)
          · rename_i hd
            exact hd (List.cons.inj hafter).1
      rw [List.cons_append, readText.eq_4 _ _ hquote hescape, ih hrest]
      rfl

/-! ## Coordinates -/

/-- The marks that come after a coordinate. -/
def IsAxisEnd (c : Char) : Prop := c = ',' ∨ c = '>'

theorem IsAxisEnd.not_isDigit (h : IsAxisEnd c) : c.isDigit = false := by
  rcases h with rfl | rfl
  · rfl
  · rfl

theorem readAxisValue_open {isAbsolute : Bool} {sign : Int} (h : IsAxisEnd c) :
    readAxisValue isAbsolute sign (c :: rest) = .ok (⟨none, isAbsolute⟩, c :: rest) := by
  rw [readAxisValue, List.takeWhile_cons_of_neg (by simp [h.not_isDigit])]

/-- Digits are read up to what is no digit. -/
theorem takeWhile_isDigit {digits : List Char} (hdigits : ∀ d ∈ digits, d.isDigit = true)
    (hc : c.isDigit = false) : (digits ++ c :: rest).takeWhile Char.isDigit = digits := by
  rw [List.takeWhile_append_of_pos hdigits, List.takeWhile_cons_of_neg (Bool.eq_false_iff.mp hc),
    List.append_nil]

theorem dropWhile_isDigit {digits : List Char} (hdigits : ∀ d ∈ digits, d.isDigit = true)
    (hc : c.isDigit = false) : (digits ++ c :: rest).dropWhile Char.isDigit = c :: rest := by
  rw [List.dropWhile_append_of_pos hdigits, List.dropWhile_cons_of_neg (Bool.eq_false_iff.mp hc)]

theorem readAxisValue_toDigits {isAbsolute : Bool} {sign : Int} {n : Nat} (h : IsAxisEnd c)
    (hn : n ≤ Text.maxInt32) :
    readAxisValue isAbsolute sign (Nat.toDigits 10 n ++ c :: rest) =
      .ok (⟨some (sign * n), isAbsolute⟩, c :: rest) := by
  have hdigits : ∀ d ∈ Nat.toDigits 10 n, d.isDigit = true := fun _ => isDigit_of_mem_toDigits
  rw [readAxisValue, takeWhile_isDigit hdigits h.not_isDigit, dropWhile_isDigit hdigits h.not_isDigit]
  split
  · rename_i hnil
    exact absurd hnil Nat.toDigits_ne_nil
  · rw [boundedNumber_toDigits hn]
    rfl

theorem readAxis_of_unsigned (h : ∀ d ∈ cs.head?, d ≠ '+' ∧ d ≠ '-') :
    readAxis cs = readAxisValue true 1 cs := by
  unfold readAxis
  split
  · exact absurd rfl (h '+' rfl).1
  · exact absurd rfl (h '-' rfl).2
  · rfl

/-- **A coordinate** is read back. -/
theorem readAxis_write {axis : Axis} (haxis : axis.IsWritable) (h : IsAxisEnd c) :
    readAxis (axis.write ++ c :: rest) = .ok (axis, c :: rest) := by
  obtain ⟨value, isAbsolute⟩ := axis
  cases value with
  | none =>
    cases isAbsolute with
    | true =>
      show readAxis (c :: rest) = _
      rw [readAxis_of_unsigned, readAxisValue_open h]
      intro d hd
      obtain rfl := Option.some.inj hd
      rcases h with rfl | rfl
      · decide
      · decide
    | false => exact readAxisValue_open h
  | some v =>
    obtain ⟨hmin, hmax⟩ := haxis v rfl
    cases isAbsolute with
    | true =>
      rw [if_pos rfl] at hmin
      show readAxis (Nat.toDigits 10 v.natAbs ++ c :: rest) = _
      rw [readAxis_of_unsigned, readAxisValue_toDigits h (by omega)]
      · rw [Int.one_mul, Int.natAbs_of_nonneg hmin]
      · intro d hd
        obtain ⟨first, others, hdigits, hfirst⟩ := exists_toDigits v.natAbs
        rw [hdigits] at hd
        obtain rfl := Option.some.inj hd
        constructor
        · rintro rfl
          cases hfirst
        · rintro rfl
          cases hfirst
    | false =>
      rw [if_neg Bool.false_ne_true] at hmin
      rw [Axis.write]
      simp only [Bool.false_eq_true, if_false]
      split
      · rename_i hneg
        show readAxisValue false (-1) (Nat.toDigits 10 v.natAbs ++ c :: rest) = _
        rw [readAxisValue_toDigits h (by omega), show -1 * (v.natAbs : Int) = v by omega]
      · rename_i hnonneg
        show readAxisValue false 1 (Nat.toDigits 10 v.natAbs ++ c :: rest) = _
        rw [readAxisValue_toDigits h (by omega), show 1 * (v.natAbs : Int) = v by omega]

/-! ## Mouse steps -/

theorem skipSpaces_of_head (h : ∀ d ∈ cs.head?, d ≠ ' ' ∧ d ≠ '\t') : skipSpaces cs = cs := by
  cases cs with
  | nil => rfl
  | cons d cs => exact List.dropWhile_cons_of_neg (by simp [h d rfl])

theorem Axis.mem_write {axis : Axis} {d : Char} (h : d ∈ axis.write) :
    d = '+' ∨ d = '-' ∨ d.isDigit = true := by
  unfold write at h
  split at h
  · split at h
    · cases h
    · exact Or.inl (List.mem_singleton.mp h)
  · rcases List.mem_append.mp h with hsign | hdigit
    · split at hsign
      · cases hsign
      · split at hsign
        · exact Or.inr (Or.inl (List.mem_singleton.mp hsign))
        · exact Or.inl (List.mem_singleton.mp hsign)
    · exact Or.inr (Or.inr (isDigit_of_mem_toDigits hdigit))

/-- There are no spaces before a coordinate. -/
theorem skipSpaces_write (axis : Axis) (h : IsAxisEnd c) :
    skipSpaces (axis.write ++ c :: rest) = axis.write ++ c :: rest := by
  apply skipSpaces_of_head
  intro d hd
  have hmem : d ∈ axis.write ∨ d = c := by
    cases hwrite : axis.write with
    | nil =>
      rw [hwrite] at hd
      exact Or.inr (Option.some.inj hd).symm
    | cons e after =>
      rw [hwrite] at hd
      obtain rfl := Option.some.inj hd
      exact Or.inl List.mem_cons_self
  have hmark : d = '+' ∨ d = '-' ∨ d.isDigit = true ∨ IsAxisEnd d := by
    rcases hmem with hwrite | rfl
    · rcases Axis.mem_write hwrite with hplus | hminus | hdigit
      · exact Or.inl hplus
      · exact Or.inr (Or.inl hminus)
      · exact Or.inr (Or.inr (Or.inl hdigit))
    · exact Or.inr (Or.inr (Or.inr h))
  constructor
  · rintro rfl
    exact absurd hmark (by unfold IsAxisEnd; decide)
  · rintro rfl
    exact absurd hmark (by unfold IsAxisEnd; decide)

theorem readClick_write (click : Option Button) :
    readClick total (writeClick click ++ ['>']) = .ok (click, ['>']) := by
  cases click with
  | none => rfl
  | some button =>
    cases button with
    | left => rfl
    | middle => rfl
    | right => rfl

theorem exists_writeClick (click : Option Button) :
    ∃ c after, writeClick click ++ ['>'] = c :: after ∧ IsAxisEnd c := by
  cases click with
  | none => exact ⟨'>', [], rfl, Or.inr rfl⟩
  | some button => exact ⟨',', [button.letter, '>'], rfl, Or.inl rfl⟩

/-- **A mouse step** is read back. -/
theorem readMouse_write {a : MouseAction} (hx : a.x.IsWritable) (hy : a.y.IsWritable) :
    readMouse total (a.x.write ++ ',' :: (a.y.write ++ (writeClick a.click ++ ['>']))) =
      .ok (a, []) := by
  have hcomma : IsAxisEnd ',' := Or.inl rfl
  have hclick : readClick total (writeClick a.click ++ ['>']) = .ok (a.click, ['>']) :=
    readClick_write a.click
  obtain ⟨c, after, hafter, hc⟩ := exists_writeClick a.click
  have hspaces : skipSpaces (c :: after) = c :: after := by
    apply skipSpaces_of_head
    intro d hd
    obtain rfl := Option.some.inj hd
    rcases hc with rfl | rfl
    · decide
    · decide
  rw [hafter] at hclick ⊢
  apply readMouse_of
  · rw [skipSpaces_write a.x hcomma]
    exact readAxis_write hx hcomma
  · rfl
  · rw [skipSpaces_write a.y hc]
    exact readAxis_write hy hc
  · rw [hspaces]
    exact hclick
  · rfl

/-! ## Steps and scripts -/

/-- What is written for a writable step is one item. -/
theorem exists_readsItem_write {step : Step} (last : Option Step) (h : step.IsWritable) :
    ∃ c rest, step.write = c :: rest ∧ ReadsItem total last c rest [step] [] := by
  cases step with
  | text t =>
    obtain ⟨hne, hlast⟩ := h
    have htext : ReadsItem total last backQuote (escape t.toList ++ [backQuote])
        [.text (String.ofList t.toList)] [] := .text (readText_escape hlast) (by simpa using hne)
    rw [String.ofList_toList] at htext
    exact ⟨backQuote, _, rfl, htext⟩
  | key k motion =>
    cases motion with
    | hold => exact ⟨'+', _, rfl, .hold (readKey_name k)⟩
    | release => exact ⟨'-', _, rfl, .release (readKey_name k)⟩
    | press =>
      have hkey := keyNamed_name k
      obtain ⟨c, rest, hname, hmark, hdigit, hall⟩ := k.exists_name
      obtain ⟨hc, hrest⟩ := List.forall_mem_cons.mp hall
      rw [hname, ← List.takeWhile_eq_self_iff.mpr hrest] at hkey
      have htap : ReadsItem total last c rest [.tap k] (rest.dropWhile Text.isAlphanumeric) :=
        .tap hmark hdigit hc hkey
      rw [List.dropWhile_eq_nil_iff.mpr hrest, Step.tap, h rfl] at htap
      exact ⟨c, rest, hname, htap⟩
  | mouse a => exact ⟨'<', _, rfl, .mouse (readMouse_write h.1 h.2)⟩
  | delay ms =>
    have hnumber := boundedNumber_toDigits h
    have hall : ∀ d ∈ Nat.toDigits 10 ms, d.isDigit = true := fun _ => isDigit_of_mem_toDigits
    obtain ⟨c, rest, hdigits, hc⟩ := exists_toDigits ms
    rw [hdigits] at hnumber hall
    obtain ⟨-, hrest⟩ := List.forall_mem_cons.mp hall
    rw [← List.takeWhile_eq_self_iff.mpr hrest] at hnumber
    have hdelay : ReadsItem total last c rest [.delay ms] (rest.dropWhile Char.isDigit) :=
      .delay hc hnumber
    rw [List.dropWhile_eq_nil_iff.mpr hrest] at hdelay
    exact ⟨c, rest, hdigits, hdelay⟩

/-- **A writable step** is read back from what is written for it. -/
theorem readItems_write {step : Step} (h : step.IsWritable) :
    readItems total [] step.write = .ok [step] := by
  obtain ⟨c, rest, hwrite, hreads⟩ : ∃ c rest, step.write = c :: rest ∧
      ReadsItem total [].getLast? c rest [step] [] := exists_readsItem_write _ h
  rw [hwrite, readItems_cons, hreads.readItem_eq]
  exact readItems_nil

theorem readItems_space : readItems total steps (' ' :: rest) = readItems total steps rest := by
  rw [readItems_cons]
  rfl

/-- A step that is written first is read first, and what comes after it goes on from there. -/
theorem readItems_write_append {step : Step} (before : List Step) (h : step.IsWritable)
    (htail : EndsName tail) :
    readItems total before (step.write ++ tail) = readItems total (before ++ [step]) tail := by
  have halone : readItems total [] step.write = .ok [step] := readItems_write h
  have happend : readItems total (before ++ []) (step.write ++ tail) =
      readItems total (before ++ [step]) tail := readItems_append before htail halone
  rwa [List.append_nil] at happend

/-- **The script of writable steps** is read back. -/
theorem readItems_writeAll (before : List Step) (h : ∀ step ∈ steps, step.IsWritable) :
    readItems total before ([' '].intercalate (steps.map Step.write)) = .ok (before ++ steps) := by
  induction steps generalizing before with
  | nil =>
    rw [List.append_nil]
    exact readItems_nil
  | cons step rest ih =>
    obtain ⟨hstep, hrest⟩ := List.forall_mem_cons.mp h
    cases rest with
    | nil =>
      rw [List.map_singleton, List.intercalate_singleton, ← List.append_nil step.write,
        readItems_write_append before hstep endsName_nil, readItems_nil]
    | cons next rest =>
      rw [List.map_cons, List.map_cons, List.intercalate_cons_cons, ← List.map_cons, List.append_assoc,
        List.singleton_append, readItems_write_append before hstep endsName_space, readItems_space,
        ih (before ++ [step]) hrest, List.append_assoc, List.singleton_append]

theorem parse_write {steps : List Step} (h : ∀ step ∈ steps, step.IsWritable) :
    parse (write steps) = .ok steps := by
  rw [parse, write, String.toList_ofList]
  exact readItems_writeAll [] h

/-- **What scripts can ask for** are the lists of writable steps, and the script that is written for such
    steps asks for them.  The number of a coordinate and its product with the sign are 32-bit numbers
    whenever a coordinate is read. -/
theorem image_parse (steps : List Step) :
    ((∃ source, parse source = .ok steps) ↔ ∀ step ∈ steps, step.IsWritable) ∧
    ((∀ step ∈ steps, step.IsWritable) → parse (write steps) = .ok steps) ∧
    ∀ (isAbsolute : Bool) (sign : Int) (cs left : List Char) (axis : Axis),
      sign = 1 ∨ sign = -1 → readAxisValue isAbsolute sign cs = .ok (axis, left) →
        ∀ v ∈ axis.value, v = sign * Text.digitsValue (cs.takeWhile Char.isDigit) ∧
          Text.digitsValue (cs.takeWhile Char.isDigit) ≤ Text.maxInt32 ∧ saturate v = v := by
  refine ⟨⟨?_, ?_⟩, parse_write, ?_⟩
  · rintro ⟨source, hsource⟩
    exact isWritable_of_readItems (fun _ hstep => absurd hstep List.not_mem_nil) hsource
  · intro h
    exact ⟨write steps, parse_write h⟩
  · intro isAbsolute sign cs left axis hsign h v hv
    obtain ⟨heq, hmax⟩ := (readAxisValue_eq_ok h).2 v hv
    refine ⟨heq, hmax, ?_⟩
    unfold saturate
    rcases hsign with rfl | rfl
    · omega
    · omega

example : write [.key .control .hold, .text "a`\\b",
    .mouse ⟨⟨some (-5), false⟩, ⟨none, true⟩, some .left⟩, .delay 250] =
      "+Control `a\\`\\b` <-5,,L> 250" := by decide +kernel

end SpokenCommand.Script
