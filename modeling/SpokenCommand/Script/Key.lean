import SpokenCommand.Text.Ascii
/-!
Keys of the keyboard, their names, and the set of keys held down.

Keys are ordered as they are declared here, the letters last and in alphabetical order; the keys
still held at the end of a script are released in this order.  `HeldKeys` keeps its keys in
increasing order, so that a key is in it at most once.
-/

namespace SpokenCommand.Script

/-- A key that a script can press, hold or release. -/
inductive Key where
  | alt
  | backspace
  | capsLock
  | control
  | delete
  | down
  | endKey
  | enter
  | escape
  | function (index : Fin 12)
  | home
  | insert
  | left
  | pageDown
  | pageUp
  | right
  | shift
  | space
  | super
  | tab
  | up
  | letter (index : Fin 26)
deriving DecidableEq, Repr

namespace Key

/-- The place of a key in the order of keys. -/
def rank : Key → Nat
  | alt => 0
  | backspace => 1
  | capsLock => 2
  | control => 3
  | delete => 4
  | down => 5
  | endKey => 6
  | enter => 7
  | escape => 8
  | function i => 9 + i
  | home => 21
  | insert => 22
  | left => 23
  | pageDown => 24
  | pageUp => 25
  | right => 26
  | shift => 27
  | space => 28
  | super => 29
  | tab => 30
  | up => 31
  | letter i => 32 + i

/-- The name under which a key is shown. -/
def name : Key → String
  | alt => "Alt"
  | backspace => "Backspace"
  | capsLock => "CapsLock"
  | control => "Control"
  | delete => "Delete"
  | down => "Down"
  | endKey => "End"
  | enter => "Enter"
  | escape => "Escape"
  | function i => "F" ++ toString (i.val + 1)
  | home => "Home"
  | insert => "Insert"
  | left => "Left"
  | pageDown => "PageDown"
  | pageUp => "PageUp"
  | right => "Right"
  | shift => "Shift"
  | space => "Space"
  | super => "Super"
  | tab => "Tab"
  | up => "Up"
  | letter i => String.singleton (Char.ofNat ('A'.toNat + i))

/-- The spellings by which a script may name a key, in small letters; a letter names itself. -/
def spellings : List (String × Key) := [
  ("alt", alt), ("back", backspace), ("backspace", backspace), ("bksp", backspace),
  ("capslock", capsLock), ("control", control), ("ctrl", control), ("del", delete),
  ("delete", delete), ("down", down), ("end", endKey), ("enter", enter), ("esc", escape),
  ("escape", escape), ("f1", function 0), ("f2", function 1), ("f3", function 2),
  ("f4", function 3), ("f5", function 4), ("f6", function 5), ("f7", function 6),
  ("f8", function 7), ("f9", function 8), ("f10", function 9), ("f11", function 10),
  ("f12", function 11), ("home", home), ("insert", insert), ("left", left),
  ("pagedown", pageDown), ("pgdn", pageDown), ("pageup", pageUp), ("pgup", pageUp),
  ("right", right), ("shift", shift), ("space", space), ("super", super), ("win", super),
  ("cmd", super), ("tab", tab), ("up", up)]

/-- The key of a letter, in either case. -/
def ofLetter? (c : Char) : Option Key :=
  let small := c.toLower
  if h : 'a'.toNat ≤ small.toNat ∧ small.toNat < 'a'.toNat + 26 then
    some (letter ⟨small.toNat - 'a'.toNat, by omega⟩)
  else none

/-- The key that a name stands for, whatever its ASCII letter case. -/
def ofName? (name : String) : Option Key :=
  match spellings.lookup (Text.lowerAscii name) with
  | some key => some key
  | none =>
    match name.toList with
    | [c] => ofLetter? c
    | _ => none

/-- Whether a key modifies others: such a key is held, and not pressed, when a script only names
    it. -/
def isModifier : Key → Bool
  | control => true
  | alt => true
  | shift => true
  | _ => false

end Key

/-- The keys with `key` among them, in increasing order. -/
def insertKey (key : Key) : List Key → List Key
  | [] => [key]
  | k :: rest =>
    if key.rank < k.rank then key :: k :: rest
    else if k.rank < key.rank then k :: insertKey key rest
    else k :: rest

theorem mem_insertKey {x key : Key} {keys : List Key} (h : x ∈ insertKey key keys) :
    x = key ∨ x ∈ keys := by
  induction keys with
  | nil => simpa [insertKey] using h
  | cons k rest ih =>
    simp only [insertKey] at h
    split at h
    · simpa using h
    · split at h
      · rcases List.mem_cons.mp h with rfl | h
        · exact .inr (List.mem_cons_self ..)
        · rcases ih h with rfl | h
          · exact .inl rfl
          · exact .inr (List.mem_cons_of_mem _ h)
      · exact .inr h

theorem pairwise_insertKey {key : Key} {keys : List Key}
    (h : keys.Pairwise (·.rank < ·.rank)) : (insertKey key keys).Pairwise (·.rank < ·.rank) := by
  induction keys with
  | nil => simp [insertKey]
  | cons k rest ih =>
    obtain ⟨hk, hrest⟩ := List.pairwise_cons.mp h
    simp only [insertKey]
    split
    · rename_i hlt
      refine List.pairwise_cons.mpr ⟨fun x hx => ?_, h⟩
      rcases List.mem_cons.mp hx with rfl | hx
      · exact hlt
      · exact Nat.lt_trans hlt (hk x hx)
    · split
      · rename_i hlt
        refine List.pairwise_cons.mpr ⟨fun x hx => ?_, ih hrest⟩
        rcases mem_insertKey hx with rfl | hx
        · exact hlt
        · exact hk x hx
      · exact h

theorem length_insertKey_le (key : Key) (keys : List Key) :
    (insertKey key keys).length ≤ keys.length + 1 := by
  induction keys with
  | nil => exact Nat.le_refl _
  | cons k rest ih =>
    simp only [insertKey]
    split
    · exact Nat.le_refl _
    · split
      · simp only [List.length_cons]; omega
      · exact Nat.le_succ _

/-- The keys that are held down, in increasing order. -/
structure HeldKeys where
  keys : List Key
  increasing : keys.Pairwise (·.rank < ·.rank)

namespace HeldKeys

/-- No key is held. -/
def empty : HeldKeys := ⟨[], .nil⟩

/-- Whether a key is held. -/
def contains (held : HeldKeys) (key : Key) : Bool := held.keys.contains key

/-- Hold one more key down. -/
def press (held : HeldKeys) (key : Key) : HeldKeys :=
  ⟨insertKey key held.keys, pairwise_insertKey held.increasing⟩

/-- Let go of a key. -/
def release (held : HeldKeys) (key : Key) : HeldKeys :=
  ⟨held.keys.filter (· ≠ key), held.increasing.filter _⟩

end HeldKeys

end SpokenCommand.Script
