import SpokenCommand.Json.Value
/-!
Tokens of JSON text.

A token is a structural mark, a keyword, a string or a number; blanks between tokens are spaces,
tabs, line feeds and carriage returns.  A string may hold any character but a control character, and
a number has no leading zeros.
-/

namespace SpokenCommand.Json

/-- A token of JSON text. -/
inductive Token where
  | beginObject
  | endObject
  | beginArray
  | endArray
  | colon
  | comma
  | null
  | bool (b : Bool)
  | string (pieces : List Piece)
  | number (n : Number)
deriving DecidableEq, Repr

/-- Whether a character may stand between tokens. -/
def isBlank (c : Char) : Bool := c = ' ' || c = '\n' || c = '\t' || c = '\r'

/-- The value of a hexadecimal digit. -/
def hexValue? (c : Char) : Option Nat :=
  if c.isDigit then some (c.toNat - 48)
  else if 'a' ≤ c ∧ c ≤ 'f' then some (c.toNat - 87)
  else if 'A' ≤ c ∧ c ≤ 'F' then some (c.toNat - 55)
  else none

/-- The number of four hexadecimal digits. -/
def hexValue4? (a b c d : Char) : Option Nat := do
  return ((← hexValue? a) * 16 + (← hexValue? b)) * 256 + ((← hexValue? c) * 16 + (← hexValue? d))

/-- The pieces of a string up to its closing quote, and what comes after it. -/
def readString : List Char → Option (List Piece × List Char)
  | [] => none
  | '\x22' :: rest => some ([], rest)
  | '\\' :: 'u' :: a :: b :: c :: d :: rest =>
    match hexValue4? a b c d with
    | none => none
    | some unit => (readString rest).map fun (pieces, left) => (.unit unit :: pieces, left)
  | '\\' :: letter :: rest =>
    match ofShortEscape? letter with
    | none => none
    | some c => (readString rest).map fun (pieces, left) => (.short c :: pieces, left)
  | c :: rest =>
    if c.toNat < 0x20 || c = '\\' then none
    else (readString rest).map fun (pieces, left) => (.plain c :: pieces, left)

/-- At least one digit, and what comes after the digits. -/
def readDigits (cs : List Char) : Option (List Char × List Char) :=
  match cs.takeWhile Char.isDigit with
  | [] => none
  | digits => some (digits, cs.dropWhile Char.isDigit)

/-- The digits before the point: a lone zero, or digits that begin with another one. -/
def readWhole (cs : List Char) : Option (List Char × List Char) :=
  match cs with
  | '0' :: rest => some (['0'], rest)
  | _ => readDigits cs

/-- The digits after a point, if there is one. -/
def readFraction (cs : List Char) : Option (Option (List Char) × List Char) :=
  match cs with
  | '.' :: rest => (readDigits rest).map fun (digits, left) => (some digits, left)
  | _ => some (none, cs)

/-- The digits of an exponent after its sign. -/
def readExponentDigits (cs : List Char) : Option (Option (Bool × List Char) × List Char) :=
  match cs with
  | '-' :: rest => (readDigits rest).map fun (digits, left) => (some (true, digits), left)
  | '+' :: rest => (readDigits rest).map fun (digits, left) => (some (false, digits), left)
  | _ => (readDigits cs).map fun (digits, left) => (some (false, digits), left)

/-- The exponent, if there is one. -/
def readExponent (cs : List Char) : Option (Option (Bool × List Char) × List Char) :=
  match cs with
  | 'e' :: rest => readExponentDigits rest
  | 'E' :: rest => readExponentDigits rest
  | _ => some (none, cs)

/-- A number after its sign. -/
def readNumber (isNegative : Bool) (cs : List Char) : Option (Number × List Char) := do
  let (whole, rest) ← readWhole cs
  let (fraction, rest) ← readFraction rest
  let (exponent, rest) ← readExponent rest
  return (⟨isNegative, whole, fraction, exponent⟩, rest)

/-- The token that begins with `c`, and what comes after it. -/
def readToken (c : Char) (rest : List Char) : Option (Token × List Char) :=
  match c, rest with
  | '\x7b', rest => some (.beginObject, rest)
  | '\x7d', rest => some (.endObject, rest)
  | '[', rest => some (.beginArray, rest)
  | ']', rest => some (.endArray, rest)
  | ':', rest => some (.colon, rest)
  | ',', rest => some (.comma, rest)
  | 'n', 'u' :: 'l' :: 'l' :: rest => some (.null, rest)
  | 't', 'r' :: 'u' :: 'e' :: rest => some (.bool true, rest)
  | 'f', 'a' :: 'l' :: 's' :: 'e' :: rest => some (.bool false, rest)
  | '\x22', rest => (readString rest).map fun (pieces, left) => (.string pieces, left)
  | '-', rest => (readNumber true rest).map fun (n, left) => (.number n, left)
  | c, rest =>
    if c.isDigit then (readNumber false (c :: rest)).map fun (n, left) => (.number n, left)
    else none

/-! ## Readers leave no more than they were given -/

theorem readString_length {cs rest : List Char} {pieces : List Piece}
    (h : readString cs = some (pieces, rest)) : rest.length < cs.length := by
  fun_induction readString cs generalizing pieces rest with
  | case1 => cases h
  | case2 r => cases h; simp
  | case3 => cases h
  | case4 a b c d r unit hu ih =>
    obtain ⟨⟨p, l⟩, hp, he⟩ := Option.map_eq_some_iff.mp h
    cases he
    have := ih hp
    simp only [List.length_cons]; omega
  | case5 => cases h
  | case6 letter r _ c hc ih =>
    obtain ⟨⟨p, l⟩, hp, he⟩ := Option.map_eq_some_iff.mp h
    cases he
    have := ih hp
    simp only [List.length_cons]; omega
  | case7 => cases h
  | case8 c r _ _ _ hc ih =>
    obtain ⟨⟨p, l⟩, hp, he⟩ := Option.map_eq_some_iff.mp h
    cases he
    have := ih hp
    simp only [List.length_cons]; omega

theorem readDigits_length {cs digits rest : List Char} (h : readDigits cs = some (digits, rest)) :
    rest.length < cs.length := by
  unfold readDigits at h
  split at h
  · cases h
  · rename_i hne
    cases h
    have hsplit := congrArg List.length (List.takeWhile_append_dropWhile (p := Char.isDigit) (l := cs))
    rw [List.length_append] at hsplit
    have : (cs.takeWhile Char.isDigit).length ≠ 0 := fun h0 =>
      hne (List.eq_nil_of_length_eq_zero h0)
    omega

theorem readWhole_length {cs digits rest : List Char} (h : readWhole cs = some (digits, rest)) :
    rest.length < cs.length := by
  unfold readWhole at h
  split at h
  · cases h; simp
  · exact readDigits_length h

theorem readFraction_length {cs rest : List Char} {fraction : Option (List Char)}
    (h : readFraction cs = some (fraction, rest)) : rest.length ≤ cs.length := by
  unfold readFraction at h
  split at h
  · obtain ⟨⟨d, l⟩, hd, he⟩ := Option.map_eq_some_iff.mp h
    cases he
    have := readDigits_length hd
    simp only [List.length_cons]; omega
  · cases h; exact Nat.le_refl _

theorem readExponentDigits_length {cs rest : List Char} {exponent : Option (Bool × List Char)}
    (h : readExponentDigits cs = some (exponent, rest)) : rest.length ≤ cs.length := by
  unfold readExponentDigits at h
  split at h <;>
  · obtain ⟨⟨d, l⟩, hd, he⟩ := Option.map_eq_some_iff.mp h
    cases he
    have := readDigits_length hd
    simp only [List.length_cons] at *; omega

theorem readExponent_length {cs rest : List Char} {exponent : Option (Bool × List Char)}
    (h : readExponent cs = some (exponent, rest)) : rest.length ≤ cs.length := by
  unfold readExponent at h
  split at h
  · have := readExponentDigits_length h
    simp only [List.length_cons]; omega
  · have := readExponentDigits_length h
    simp only [List.length_cons]; omega
  · cases h; exact Nat.le_refl _

theorem readNumber_length {isNegative : Bool} {cs rest : List Char} {n : Number}
    (h : readNumber isNegative cs = some (n, rest)) : rest.length < cs.length := by
  unfold readNumber at h
  obtain ⟨⟨w, r₁⟩, h₁, h⟩ := Option.bind_eq_some_iff.mp h
  obtain ⟨⟨f, r₂⟩, h₂, h⟩ := Option.bind_eq_some_iff.mp h
  obtain ⟨⟨e, r₃⟩, h₃, h⟩ := Option.bind_eq_some_iff.mp h
  cases h
  have := readWhole_length h₁
  have := readFraction_length h₂
  have := readExponent_length h₃
  omega

/-- A token consumes its first character at least. -/
theorem readToken_length {c : Char} {cs rest : List Char} {token : Token}
    (h : readToken c cs = some (token, rest)) : rest.length ≤ cs.length := by
  unfold readToken at h
  split at h
  case h_10 =>
    obtain ⟨⟨p, l⟩, hp, he⟩ := Option.map_eq_some_iff.mp h
    cases he
    exact Nat.le_of_lt (readString_length hp)
  case h_11 =>
    obtain ⟨⟨n, l⟩, hn, he⟩ := Option.map_eq_some_iff.mp h
    cases he
    exact Nat.le_of_lt (readNumber_length hn)
  case h_12 =>
    split at h
    · obtain ⟨⟨n, l⟩, hn, he⟩ := Option.map_eq_some_iff.mp h
      cases he
      have := readNumber_length hn
      simp only [List.length_cons] at this
      omega
    · cases h
  all_goals
    cases h
    grind

/-! ## Whole texts -/

/-- The tokens of a text, the latest first, where `done` are those read so far. -/
def tokensFrom (done : List Token) (cs : List Char) : Option (List Token) :=
  match cs with
  | [] => some done.reverse
  | c :: rest =>
    if isBlank c then tokensFrom done rest
    else
      match _h : readToken c rest with
      | none => none
      | some (token, rest) => tokensFrom (token :: done) rest
termination_by cs.length
decreasing_by
  · simp
  · have := readToken_length _h
    simp only [List.length_cons]; omega

/-- The tokens of a text. -/
def tokens (text : String) : Option (List Token) := tokensFrom [] text.toList

end SpokenCommand.Json
