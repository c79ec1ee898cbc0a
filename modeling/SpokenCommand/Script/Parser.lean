import SpokenCommand.Script.Error
import SpokenCommand.Script.Step
import SpokenCommand.Text.Alphanumeric
import SpokenCommand.Text.Blank
/-!
Action scripts to steps.

The items of a script need no blanks between them (`+Control C\x7b3\x7d<+10,-5,L>200`), so the script
is read character by character, and what an item is shows in its first one:

* a back quote opens text, up to the next back quote without a backslash before it;
* `+` holds a key and `-` releases one; a bare name presses it, or holds it if it is a modifier;
* a digit begins a pause in milliseconds;
* `<` begins a mouse step, two coordinates and perhaps a click;
* an opening brace begins the number of times that the step before it is to be played in all.

Every reader takes the characters that follow and returns those that it left.  `readItem_length`
says that they are never more, which is why reading ends.

The steps that a script stands for are one thing, and whether a list HOLDS them is another: a repeat
can ask for more of them than that.  `parse` says what the steps are, however many; `scan` says what
the program makes of a script, which does not survive one that asks for too many.
-/

namespace SpokenCommand.Script

/-- The back quote, which opens and closes text. -/
def backQuote : Char := '\x60'

/-- The text up to the closing back quote, and what comes after it. -/
def readText : List Char → Option (List Char × List Char)
  | [] => none
  | '\x60' :: rest => some ([], rest)
  | '\\' :: '\x60' :: rest => (readText rest).map fun (text, left) => (backQuote :: text, left)
  | c :: rest => (readText rest).map fun (text, left) => (c :: text, left)

/-- Without the spaces and tabs at the beginning. -/
def skipSpaces (cs : List Char) : List Char := cs.dropWhile fun c => c = ' ' || c = '\t'

/-- A number of digits that must not exceed `max`. -/
def boundedNumber (max : Nat) (digits : List Char) : Except Error Nat :=
  if Text.digitsValue digits ≤ max then .ok (Text.digitsValue digits)
  else .error (.numberOutOfRange (String.ofList digits))

/-- The key of a name. -/
def keyNamed (name : List Char) : Except Error Key :=
  match Key.ofName? (String.ofList name) with
  | some key => .ok key
  | none => .error (.unknownKey (String.ofList name))

/-- The key whose name comes next, in a script of `total` characters. -/
def readKey (total : Nat) (cs : List Char) : Except Error (Key × List Char) :=
  match cs.takeWhile Text.isAlphanumeric with
  | [] => .error (.missingKeyName (total - cs.length))
  | name => do
    let key ← keyNamed name
    return (key, cs.dropWhile Text.isAlphanumeric)

/-- The number that comes next, if there is one, as a coordinate with the given sign. -/
def readAxisValue (isAbsolute : Bool) (sign : Int) (cs : List Char) :
    Except Error (Axis × List Char) :=
  match cs.takeWhile Char.isDigit with
  | [] => .ok (⟨none, isAbsolute⟩, cs)
  | digits => do
    let value ← boundedNumber Text.maxInt32 digits
    return (⟨some (sign * value), isAbsolute⟩, cs.dropWhile Char.isDigit)

/-- The coordinate that comes next: a sign, which makes it relative, and a number, both optional. -/
def readAxis (cs : List Char) : Except Error (Axis × List Char) :=
  match cs with
  | '+' :: rest => readAxisValue false 1 rest
  | '-' :: rest => readAxisValue false (-1) rest
  | _ => readAxisValue true 1 cs

/-- The click that comes next, if a comma announces one. -/
def readClick (total : Nat) (cs : List Char) : Except Error (Option Button × List Char) :=
  match cs with
  | ',' :: rest =>
    match skipSpaces rest with
    | [] => .error (.missingClick total)
    | c :: after =>
      match Button.ofLetter? c with
      | some button => .ok (some button, after)
      | none => .error (.unknownClick c)
  | _ => .ok (none, cs)

/-- What comes after the comma between the coordinates. -/
def readMouseComma (total : Nat) (cs : List Char) : Except Error (List Char) :=
  match cs with
  | ',' :: rest => .ok rest
  | _ => .error (.missingMouseComma (total - cs.length))

/-- The mouse step that follows its opening mark. -/
def readMouse (total : Nat) (cs : List Char) : Except Error (MouseAction × List Char) := do
  let (x, rest) ← readAxis (skipSpaces cs)
  let rest ← readMouseComma total (skipSpaces rest)
  let (y, rest) ← readAxis (skipSpaces rest)
  let (click, rest) ← readClick total (skipSpaces rest)
  match skipSpaces rest with
  | '>' :: rest => return (⟨x, y, click⟩, rest)
  | rest => throw (.unclosedMouse (total - rest.length))

/-- The number of times, and what comes after the closing brace. -/
def readCount (total : Nat) (cs : List Char) : Except Error (Nat × List Char) :=
  match cs.takeWhile Char.isDigit with
  | [] => .error (.missingRepeatCount (total - cs.length))
  | digits => do
    let count ← boundedNumber Text.maxNat64 digits
    match cs.dropWhile Char.isDigit with
    | '\x7d' :: rest => if count = 0 then throw .zeroRepeat else return (count, rest)
    | rest => throw (.unclosedRepeat (total - rest.length))

/-- The steps after the item that begins with `c`, where `steps` are those before it, and what comes
    after the item.  A repeat may ask for more steps than there can be, which `isExcessive` sees. -/
def readItem (total : Nat) (steps : List Step) (c : Char) (rest : List Char) :
    Except Error (List Step × List Char) :=
  let offset := total - (rest.length + 1)
  if c = backQuote then
    match readText rest with
    | none => .error (.unterminatedText offset)
    | some (text, rest) =>
      .ok (if text.isEmpty then steps else steps ++ [.text (String.ofList text)], rest)
  else if c = '+' then do
    let (key, rest) ← readKey total rest
    return (steps ++ [.key key .hold], rest)
  else if c = '-' then do
    let (key, rest) ← readKey total rest
    return (steps ++ [.key key .release], rest)
  else if c = '\x7b' then
    match steps.getLast? with
    | none => .error (.danglingRepeat offset)
    | some last => do
      let (count, rest) ← readCount total rest
      return (steps ++ List.replicate (count - 1) last, rest)
  else if c = '<' then do
    let (action, rest) ← readMouse total rest
    return (steps ++ [.mouse action], rest)
  else if Text.isBlank c then .ok (steps, rest)
  else if c.isDigit then do
    let ms ← boundedNumber Text.maxNat64 (c :: rest.takeWhile Char.isDigit)
    return (steps ++ [.delay ms], rest.dropWhile Char.isDigit)
  else if Text.isAlphanumeric c then do
    let key ← keyNamed (c :: rest.takeWhile Text.isAlphanumeric)
    return (steps ++ [.tap key], rest.dropWhile Text.isAlphanumeric)
  else .error (.unexpectedCharacter c offset)

/-! ## Readers leave no more than they were given -/

theorem length_dropWhile_le (p : Char → Bool) (cs : List Char) :
    (cs.dropWhile p).length ≤ cs.length := (List.dropWhile_sublist p).length_le

theorem readText_length {cs text rest : List Char} (h : readText cs = some (text, rest)) :
    rest.length ≤ cs.length := by
  fun_induction readText cs generalizing text rest with
  | case1 => cases h
  | case2 r => cases h; simp
  | case3 r ih =>
    obtain ⟨⟨t, l⟩, ht, he⟩ := Option.map_eq_some_iff.mp h
    cases he
    have := ih ht
    simp only [List.length_cons]; omega
  | case4 c r _ _ ih =>
    obtain ⟨⟨t, l⟩, ht, he⟩ := Option.map_eq_some_iff.mp h
    cases he
    have := ih ht
    simp only [List.length_cons]; omega

/-- A result of two steps comes from a result of each. -/
theorem bind_eq_ok {ε α β : Type} {x : Except ε α} {f : α → Except ε β} {b : β}
    (h : (x >>= f) = .ok b) : ∃ a, x = .ok a ∧ f a = .ok b := by
  cases x with
  | error e => cases h
  | ok a => exact ⟨a, rfl, h⟩

theorem readKey_length {total : Nat} {cs rest : List Char} {key : Key}
    (h : readKey total cs = .ok (key, rest)) : rest.length ≤ cs.length := by
  unfold readKey at h
  split at h
  · cases h
  · obtain ⟨k, -, h⟩ := bind_eq_ok h
    cases h
    exact length_dropWhile_le _ _

theorem readAxis_length {cs rest : List Char} {axis : Axis}
    (h : readAxis cs = .ok (axis, rest)) : rest.length ≤ cs.length := by
  obtain ⟨isAbsolute, sign, after, hafter, h⟩ : ∃ (isAbsolute : Bool) (sign : Int) (after : List Char),
      after.length ≤ cs.length ∧ readAxisValue isAbsolute sign after = .ok (axis, rest) := by
    unfold readAxis at h
    split at h
    · exact ⟨_, _, _, by simp, h⟩
    · exact ⟨_, _, _, by simp, h⟩
    · exact ⟨_, _, _, Nat.le_refl _, h⟩
  unfold readAxisValue at h
  split at h
  · cases h; exact hafter
  · obtain ⟨v, -, h⟩ := bind_eq_ok h
    cases h
    exact Nat.le_trans (length_dropWhile_le _ _) hafter

theorem readClick_length {total : Nat} {cs rest : List Char} {click : Option Button}
    (h : readClick total cs = .ok (click, rest)) : rest.length ≤ cs.length := by
  unfold readClick at h
  split at h
  · rename_i r
    split at h
    · cases h
    · rename_i c after hskip
      split at h
      · cases h
        have := length_dropWhile_le (fun c => c = ' ' || c = '\t') r
        unfold skipSpaces at hskip
        rw [hskip] at this
        simp only [List.length_cons] at this ⊢; omega
      · cases h
  · cases h; exact Nat.le_refl _

theorem readMouseComma_length {total : Nat} {cs rest : List Char}
    (h : readMouseComma total cs = .ok rest) : rest.length ≤ cs.length := by
  unfold readMouseComma at h
  split at h
  · cases h; simp
  · cases h

theorem readMouse_length {total : Nat} {cs rest : List Char} {action : MouseAction}
    (h : readMouse total cs = .ok (action, rest)) : rest.length ≤ cs.length := by
  have skip (cs : List Char) : (skipSpaces cs).length ≤ cs.length := length_dropWhile_le _ _
  unfold readMouse at h
  obtain ⟨⟨x, r₁⟩, h₁, h⟩ := bind_eq_ok h
  obtain ⟨r₂, h₂, h⟩ := bind_eq_ok h
  obtain ⟨⟨y, r₃⟩, h₃, h⟩ := bind_eq_ok h
  obtain ⟨⟨click, r₄⟩, h₄, h⟩ := bind_eq_ok h
  have l₁ := Nat.le_trans (readAxis_length h₁) (skip cs)
  have l₂ := Nat.le_trans (readMouseComma_length h₂) (skip r₁)
  have l₃ := Nat.le_trans (readAxis_length h₃) (skip r₂)
  have l₄ := Nat.le_trans (readClick_length h₄) (skip r₃)
  have l₅ := skip r₄
  dsimp only at h
  split at h
  · rename_i r hr
    cases h
    rw [hr, List.length_cons] at l₅
    omega
  · cases h

theorem readCount_length {total count : Nat} {cs rest : List Char}
    (h : readCount total cs = .ok (count, rest)) : rest.length ≤ cs.length := by
  unfold readCount at h
  split at h
  · cases h
  · obtain ⟨n, -, h⟩ := bind_eq_ok h
    split at h
    · rename_i r hr
      split at h
      · cases h
      · cases h
        have := length_dropWhile_le Char.isDigit cs
        rw [hr, List.length_cons] at this
        omega
    · cases h

/-- An item consumes its first character at least. -/
theorem readItem_length {total : Nat} {steps steps' : List Step} {c : Char} {cs rest : List Char}
    (h : readItem total steps c cs = .ok (steps', rest)) : rest.length ≤ cs.length := by
  unfold readItem at h
  simp only at h
  split at h
  · split at h
    · cases h
    · rename_i hr; cases h; exact readText_length hr
  split at h
  · obtain ⟨⟨k, r⟩, hr, h⟩ := bind_eq_ok h
    cases h; exact readKey_length hr
  split at h
  · obtain ⟨⟨k, r⟩, hr, h⟩ := bind_eq_ok h
    cases h; exact readKey_length hr
  split at h
  · split at h
    · cases h
    · obtain ⟨⟨n, r⟩, hr, h⟩ := bind_eq_ok h
      cases h; exact readCount_length hr
  split at h
  · obtain ⟨⟨a, r⟩, hr, h⟩ := bind_eq_ok h
    cases h; exact readMouse_length hr
  split at h
  · cases h; exact Nat.le_refl _
  split at h
  · obtain ⟨n, -, h⟩ := bind_eq_ok h
    cases h; exact length_dropWhile_le _ _
  split at h
  · obtain ⟨k, -, h⟩ := bind_eq_ok h
    cases h; exact length_dropWhile_le _ _
  · cases h

/-! ## Whole scripts -/

/-- The steps of a script of `total` characters, where `steps` are those read so far and `cs` is what
    is left. -/
def readItems (total : Nat) (steps : List Step) (cs : List Char) : Except Error (List Step) :=
  match cs with
  | [] => .ok steps
  | c :: rest =>
    match _h : readItem total steps c rest with
    | .error e => .error e
    | .ok (steps, rest) => readItems total steps rest
termination_by cs.length
decreasing_by
  have := readItem_length _h
  simp only [List.length_cons]; omega

/-- The steps of an action script, in the order in which they are played. -/
def parse (source : String) : Except Error (List Step) :=
  readItems source.toList.length [] source.toList

/-! ## What a list holds -/

/-- The most steps that a list holds.  The list takes less than `2 ^ 63` bytes, and each of its steps 32:
    24 for a text, which is the longest there is to say of a step, and 8 for what the step is. -/
def maxSteps : Nat := 288230376151711743

/-- Whether the item that begins with `c` is a repeat that makes more steps, with `steps` before it, than
    a list holds.  This shows in the number of times, before any copies are made. -/
def isExcessive (total : Nat) (steps : List Step) (c : Char) (rest : List Char) : Bool :=
  c = '\x7b' && !steps.isEmpty &&
    match readCount total rest with
    | .ok (count, _) => maxSteps < steps.length + (count - 1)
    | .error _ => false

/-- Whether a list holds the steps at every moment of reading what is left of a script, as `readItems`
    reads it. -/
def holdsItems (total : Nat) (steps : List Step) (cs : List Char) : Bool :=
  match cs with
  | [] => true
  | c :: rest =>
    !isExcessive total steps c rest &&
      match _h : readItem total steps c rest with
      | .error _ => true
      | .ok (steps, rest) => steps.length ≤ maxSteps && holdsItems total steps rest
termination_by cs.length
decreasing_by
  have := readItem_length _h
  simp only [List.length_cons]; omega

/-- What the program makes of an action script: its steps or an error.  It makes nothing of a script
    that asks for more steps than a list holds, because there it breaks down. -/
def scan (source : String) : Option (Except Error (List Step)) :=
  if holdsItems source.toList.length [] source.toList then some (parse source) else none

end SpokenCommand.Script
