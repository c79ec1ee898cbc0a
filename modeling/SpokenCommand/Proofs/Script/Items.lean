import SpokenCommand.Script.Parser
/-!
Pieces of a script, read on their own.

The items of a script need nothing between them, so that what is read off a piece of a script may
depend on what comes after it: a name or a number goes on as long as there are letters and digits.

1. **Names and numbers** end before what `EndsName`: a character that is neither letter nor digit, or
   the end of the script.

2. **Items.**  `ReadsItem` says once what an item can be, and with what it is read.  It adds steps, and
   of the steps before it only the last one matters to it (`readItem_eq_ok_iff`).

3. **The crux** is that names and numbers are all the looking ahead there is (`ReadsItem.append`).  Text
   and mouse steps have marks of their own at their ends, and so does the number of a repeat; blanks are
   skipped one by one.  The offsets of errors, which count from the beginning of the script, do not
   matter to what is read.

4. So a piece that can be read on its own is read in the same way within a script, before anything that
   ends a name, and what is read before it stays in front of its steps (`readItems_append`).
-/

namespace SpokenCommand.Script

variable {total total' : Nat} {steps steps' : List Step} {cs rest left tail : List Char} {c : Char}

/-! ## Names and numbers -/

/-- The characters do not go on with a name or a number that comes before them. -/
def EndsName (cs : List Char) : Prop := ∀ c ∈ cs.head?, Text.isAlphanumeric c = false

theorem endsName_nil : EndsName [] := nofun

theorem endsName_space : EndsName (' ' :: rest) := by
  intro c hc
  obtain rfl : ' ' = c := Option.some.inj hc
  decide

theorem covers_cons_of_le {first last code : Nat} (ranges : List (Nat × Nat)) (hfirst : first ≤ code)
    (hlast : code ≤ last) : Text.CodeRanges.covers ((first, last) :: ranges) code = true := by
  rw [Text.CodeRanges.covers, if_neg (Nat.not_lt.mpr hfirst), decide_eq_true hlast, Bool.true_or]

theorem bounds_of_isDigit (h : c.isDigit = true) : '0'.toNat ≤ c.toNat ∧ c.toNat ≤ '9'.toNat := by
  simpa [Char.isDigit, UInt32.le_iff_toNat_le] using h

/-- The ASCII digits are the first of the alphanumeric characters. -/
theorem isAlphanumeric_of_isDigit (h : c.isDigit = true) : Text.isAlphanumeric c = true :=
  covers_cons_of_le _ (bounds_of_isDigit h).1 (bounds_of_isDigit h).2

theorem EndsName.not_isDigit (h : EndsName cs) : ∀ c ∈ cs.head?, c.isDigit = false := by
  intro c hc
  rw [← Bool.not_eq_true]
  intro hdigit
  have := h c hc
  rw [isAlphanumeric_of_isDigit hdigit] at this
  exact Bool.noConfusion this

section Munch

variable {p : Char → Bool}

/-- A run of characters ends where it ended unless it reached the end. -/
theorem takeWhile_append_of_ends (h : cs.dropWhile p = [] → ∀ c ∈ tail.head?, p c = false) :
    (cs ++ tail).takeWhile p = cs.takeWhile p := by
  induction cs with
  | nil =>
    cases tail with
    | nil => rfl
    | cons c tail => exact List.takeWhile_cons_of_neg (by simp [h rfl c rfl])
  | cons c cs ih =>
    cases hc : p c with
    | true =>
      rw [List.dropWhile_cons_of_pos hc] at h
      rw [List.cons_append, List.takeWhile_cons_of_pos hc, List.takeWhile_cons_of_pos hc, ih h]
    | false =>
      have hneg : ¬p c = true := by simp [hc]
      rw [List.cons_append, List.takeWhile_cons_of_neg hneg, List.takeWhile_cons_of_neg hneg]

theorem dropWhile_append_of_ends (h : cs.dropWhile p = [] → ∀ c ∈ tail.head?, p c = false) :
    (cs ++ tail).dropWhile p = cs.dropWhile p ++ tail := by
  rw [List.dropWhile_append]
  split
  · rename_i hall
    rw [List.isEmpty_iff] at hall
    rw [hall, List.nil_append]
    cases tail with
    | nil => rfl
    | cons c tail => exact List.dropWhile_cons_of_neg (by simp [h hall c rfl])
  · rfl

end Munch

theorem skipSpaces_append (h : skipSpaces cs ≠ []) :
    skipSpaces (cs ++ tail) = skipSpaces cs ++ tail :=
  dropWhile_append_of_ends fun hall => absurd hall h

/-! ## The readers -/

theorem readText_append {text : List Char} (h : readText cs = some (text, left)) :
    readText (cs ++ tail) = some (text, left ++ tail) := by
  fun_induction readText cs generalizing text left with
  | case1 => cases h
  | case2 rest =>
    cases h
    rfl
  | case3 rest ih =>
    obtain ⟨⟨text, left⟩, hrest, heq⟩ := Option.map_eq_some_iff.mp h
    cases heq
    rw [List.cons_append, List.cons_append, readText, ih hrest]
    rfl
  | case4 c rest hquote hescape ih =>
    obtain ⟨⟨text, left⟩, hrest, heq⟩ := Option.map_eq_some_iff.mp h
    cases heq
    -- what comes after a backslash is looked at, but the text does not end there
    have hescape' : ∀ after, c = '\\' → rest ++ tail = '\x60' :: after → False := by
      intro after hc hafter
      cases rest with
      | nil => cases hrest
      | cons d rest =>
        obtain rfl : d = '\x60' := (List.cons.inj hafter).1
        exact hescape rest hc rfl
    rw [List.cons_append, readText.eq_4 _ _ hquote hescape', ih hrest]
    rfl

theorem readKey_append {key : Key} (h : readKey total cs = .ok (key, left)) (htail : EndsName tail) :
    readKey total' (cs ++ tail) = .ok (key, left ++ tail) := by
  unfold readKey at h ⊢
  rw [takeWhile_append_of_ends fun _ => htail, dropWhile_append_of_ends fun _ => htail]
  split at h
  · cases h
  · obtain ⟨key, hkey, h⟩ := bind_eq_ok h
    cases h
    rw [hkey]
    rfl

theorem readAxisValue_append {isAbsolute : Bool} {sign : Int} {axis : Axis}
    (h : readAxisValue isAbsolute sign cs = .ok (axis, left)) (hleft : left ≠ []) :
    readAxisValue isAbsolute sign (cs ++ tail) = .ok (axis, left ++ tail) := by
  unfold readAxisValue at h ⊢
  have hends : cs.dropWhile Char.isDigit = [] → ∀ c ∈ tail.head?, c.isDigit = false := by
    intro hall
    split at h
    · rename_i hnone
      cases h
      have hcs := List.takeWhile_append_dropWhile (p := Char.isDigit) (l := cs)
      rw [hnone, hall] at hcs
      exact absurd hcs.symm hleft
    · obtain ⟨value, -, h⟩ := bind_eq_ok h
      cases h
      exact absurd hall hleft
  rw [takeWhile_append_of_ends hends, dropWhile_append_of_ends hends]
  split at h
  · cases h
    rfl
  · obtain ⟨value, hvalue, h⟩ := bind_eq_ok h
    cases h
    rw [hvalue]
    rfl

theorem readAxis_append {axis : Axis} (h : readAxis cs = .ok (axis, left)) (hleft : left ≠ []) :
    readAxis (cs ++ tail) = .ok (axis, left ++ tail) := by
  unfold readAxis at h
  split at h
  · exact readAxisValue_append h hleft
  · exact readAxisValue_append h hleft
  · rename_i hplus hminus
    have happend : readAxisValue true 1 (cs ++ tail) = .ok (axis, left ++ tail) :=
      readAxisValue_append h hleft
    cases cs with
    | nil =>
      cases h
      exact absurd rfl hleft
    | cons c cs =>
      have hplus' : ∀ rest, c :: (cs ++ tail) = '+' :: rest → False := by
        intro rest heq
        exact hplus cs (by rw [(List.cons.inj heq).1])
      have hminus' : ∀ rest, c :: (cs ++ tail) = '-' :: rest → False := by
        intro rest heq
        exact hminus cs (by rw [(List.cons.inj heq).1])
      show readAxis (c :: (cs ++ tail)) = _
      rw [readAxis.eq_3 _ hplus' hminus']
      exact happend

theorem readClick_append {click : Option Button} (h : readClick total cs = .ok (click, left))
    (hcs : cs ≠ []) : readClick total' (cs ++ tail) = .ok (click, left ++ tail) := by
  obtain ⟨c, rest, rfl⟩ := List.exists_cons_of_ne_nil hcs
  by_cases hc : c = ','
  · subst hc
    simp only [readClick, List.cons_append] at h ⊢
    cases hskip : skipSpaces rest with
    | nil =>
      rw [hskip] at h
      cases h
    | cons d after =>
      rw [hskip] at h
      rw [skipSpaces_append (by simp [hskip]), hskip]
      simp only [List.cons_append] at h ⊢
      cases hbutton : Button.ofLetter? d with
      | none =>
        rw [hbutton] at h
        cases h
      | some button =>
        rw [hbutton] at h
        cases h
        rfl
  · have hnone : ∀ rest', c :: rest = ',' :: rest' → False := fun _ heq => hc (List.cons.inj heq).1
    have hnone' : ∀ rest', c :: (rest ++ tail) = ',' :: rest' → False :=
      fun _ heq => hc (List.cons.inj heq).1
    rw [readClick.eq_2 _ _ hnone] at h
    cases h
    exact readClick.eq_2 _ _ hnone'

theorem readMouseComma_append (h : readMouseComma total cs = .ok left) :
    readMouseComma total' (cs ++ tail) = .ok (left ++ tail) := by
  unfold readMouseComma at h
  split at h
  · cases h
    rfl
  · cases h

/-- A mouse step from its parts. -/
theorem readMouse_of {x y : Axis} {click : Option Button}
    {afterX afterComma afterY afterClick : List Char}
    (hx : readAxis (skipSpaces cs) = .ok (x, afterX))
    (hcomma : readMouseComma total (skipSpaces afterX) = .ok afterComma)
    (hy : readAxis (skipSpaces afterComma) = .ok (y, afterY))
    (hclick : readClick total (skipSpaces afterY) = .ok (click, afterClick))
    (hclose : skipSpaces afterClick = '>' :: left) :
    readMouse total cs = .ok (⟨x, y, click⟩, left) := by
  unfold readMouse
  rw [hx]
  dsimp only [bind, Except.bind]
  rw [hcomma]
  dsimp only
  rw [hy]
  dsimp only
  rw [hclick]
  dsimp only
  rw [hclose]
  rfl

/-- A mouse step ends with its closing mark, so that at every place within it there is more to come. -/
theorem readMouse_append {action : MouseAction} (h : readMouse total cs = .ok (action, left)) :
    readMouse total' (cs ++ tail) = .ok (action, left ++ tail) := by
  have nonempty {cs rest : List Char} (hlength : rest.length ≤ cs.length) (hrest : rest ≠ []) :
      cs ≠ [] := by
    have := List.length_pos_iff.mpr hrest
    exact List.length_pos_iff.mp (by omega)
  have skip {cs : List Char} (h : skipSpaces cs ≠ []) : cs ≠ [] :=
    nonempty (length_dropWhile_le _ _) h
  unfold readMouse at h
  obtain ⟨⟨x, afterX⟩, hx, h⟩ := bind_eq_ok h
  obtain ⟨afterComma, hcomma, h⟩ := bind_eq_ok h
  obtain ⟨⟨y, afterY⟩, hy, h⟩ := bind_eq_ok h
  obtain ⟨⟨click, afterClick⟩, hclick, h⟩ := bind_eq_ok h
  dsimp only at h hx hcomma hy hclick
  split at h
  · rename_i rest hclose
    cases h
    have hne₄ : skipSpaces afterClick ≠ [] := by simp [hclose]
    have hne₃ : skipSpaces afterY ≠ [] := nonempty (readClick_length hclick) (skip hne₄)
    have hne₂ : skipSpaces afterComma ≠ [] := nonempty (readAxis_length hy) (skip hne₃)
    have hne₁ : skipSpaces afterX ≠ [] := nonempty (readMouseComma_length hcomma) (skip hne₂)
    have hne₀ : skipSpaces cs ≠ [] := nonempty (readAxis_length hx) (skip hne₁)
    apply readMouse_of
    · rw [skipSpaces_append hne₀]
      exact readAxis_append hx (skip hne₁)
    · rw [skipSpaces_append hne₁]
      exact readMouseComma_append hcomma
    · rw [skipSpaces_append hne₂]
      exact readAxis_append hy (skip hne₃)
    · rw [skipSpaces_append hne₃]
      exact readClick_append hclick hne₃
    · rw [skipSpaces_append hne₄, hclose]
      rfl
  · cases h

/-- The number of a repeat ends with its closing brace. -/
theorem readCount_append {count : Nat} (h : readCount total cs = .ok (count, left)) :
    readCount total' (cs ++ tail) = .ok (count, left ++ tail) := by
  unfold readCount at h ⊢
  have hends : cs.dropWhile Char.isDigit = [] → ∀ c ∈ tail.head?, c.isDigit = false := by
    intro hall
    rw [hall] at h
    split at h
    · cases h
    · obtain ⟨number, -, h⟩ := bind_eq_ok h
      cases h
  rw [takeWhile_append_of_ends hends, dropWhile_append_of_ends hends]
  split at h
  · cases h
  · obtain ⟨number, hnumber, h⟩ := bind_eq_ok h
    rw [hnumber]
    split at h
    · rename_i rest hclose
      split at h
      · cases h
      · rename_i hzero
        cases h
        rw [hclose]
        show (if count = 0 then _ else _) = _
        rw [if_neg hzero]
        rfl
    · cases h

/-! ## Items -/

/-- Whether a character begins an item that is neither a name nor a number. -/
def isMark (c : Char) : Bool :=
  c == backQuote || c == '+' || c == '-' || c == '\x7b' || c == '<' || Text.isBlank c

theorem isMark_of_isDigit (h : c.isDigit = true) : isMark c = false := by
  obtain ⟨hfirst, hlast⟩ := bounds_of_isDigit h
  have hall : ∀ code < 58, 48 ≤ code → isMark (Char.ofNat code) = false := by decide
  rw [← Char.ofNat_toNat c]
  exact hall c.toNat (Nat.lt_succ_of_le hlast) hfirst

/-- An item that begins with `c` adds steps, if `last` is the last step before it. -/
inductive ReadsItem (total : Nat) (last : Option Step) :
    Char → List Char → List Step → List Char → Prop where
  | emptyText {rest left : List Char} : readText rest = some ([], left) →
      ReadsItem total last backQuote rest [] left
  | text {rest left text : List Char} : readText rest = some (text, left) → text ≠ [] →
      ReadsItem total last backQuote rest [.text (String.ofList text)] left
  | hold {rest left : List Char} {key : Key} : readKey total rest = .ok (key, left) →
      ReadsItem total last '+' rest [.key key .hold] left
  | release {rest left : List Char} {key : Key} : readKey total rest = .ok (key, left) →
      ReadsItem total last '-' rest [.key key .release] left
  | repeats {rest left : List Char} {step : Step} {count : Nat} : last = some step →
      readCount total rest = .ok (count, left) →
      ReadsItem total last '\x7b' rest (List.replicate (count - 1) step) left
  | mouse {rest left : List Char} {action : MouseAction} : readMouse total rest = .ok (action, left) →
      ReadsItem total last '<' rest [.mouse action] left
  | blank {c : Char} {rest : List Char} : Text.isBlank c = true →
      ReadsItem total last c rest [] rest
  | delay {c : Char} {rest : List Char} {ms : Nat} : c.isDigit = true →
      boundedNumber Text.maxNat64 (c :: rest.takeWhile Char.isDigit) = .ok ms →
      ReadsItem total last c rest [.delay ms] (rest.dropWhile Char.isDigit)
  | tap {c : Char} {rest : List Char} {key : Key} : isMark c = false → c.isDigit = false →
      Text.isAlphanumeric c = true →
      keyNamed (c :: rest.takeWhile Text.isAlphanumeric) = .ok key →
      ReadsItem total last c rest [.tap key] (rest.dropWhile Text.isAlphanumeric)

theorem readItem_of_isBlank (h : Text.isBlank c = true) :
    readItem total steps c rest = .ok (steps, rest) := by
  have hne {mark : Char} (hmark : Text.isBlank mark = false) : c ≠ mark := by
    rintro rfl
    rw [h] at hmark
    exact Bool.noConfusion hmark
  unfold readItem
  dsimp only
  rw [if_neg (hne (by decide)), if_neg (hne (by decide)), if_neg (hne (by decide)),
    if_neg (hne (by decide)), if_neg (hne (by decide)), if_pos h]

/-- Without a mark, a digit begins a pause and all else a name. -/
theorem readItem_of_not_isMark (h : isMark c = false) : readItem total steps c rest =
    if c.isDigit then do
      let ms ← boundedNumber Text.maxNat64 (c :: rest.takeWhile Char.isDigit)
      return (steps ++ [.delay ms], rest.dropWhile Char.isDigit)
    else if Text.isAlphanumeric c then do
      let key ← keyNamed (c :: rest.takeWhile Text.isAlphanumeric)
      return (steps ++ [.tap key], rest.dropWhile Text.isAlphanumeric)
    else .error (.unexpectedCharacter c (total - (rest.length + 1))) := by
  simp only [isMark, Bool.or_eq_false_iff, beq_eq_false_iff_ne] at h
  obtain ⟨⟨⟨⟨⟨hquote, hplus⟩, hminus⟩, hbrace⟩, hangle⟩, hblank⟩ := h
  unfold readItem
  dsimp only
  rw [if_neg hquote, if_neg hplus, if_neg hminus, if_neg hbrace, if_neg hangle, hblank,
    if_neg Bool.false_ne_true]

theorem ReadsItem.readItem_eq {added : List Step}
    (h : ReadsItem total steps.getLast? c rest added left) :
    readItem total steps c rest = .ok (steps ++ added, left) := by
  cases h with
  | emptyText htext =>
    rw [readItem, if_pos rfl, htext, List.append_nil]
    rfl
  | text htext hne =>
    rw [readItem, if_pos rfl, htext]
    simp only
    rw [if_neg (by simpa using hne)]
  | hold hkey =>
    show (readKey total rest >>= _) = _
    rw [hkey]
    rfl
  | release hkey =>
    show (readKey total rest >>= _) = _
    rw [hkey]
    rfl
  | repeats hlast hcount =>
    rw [readItem, if_neg (by decide), if_neg (by decide), if_neg (by decide), if_pos rfl, hlast]
    show (readCount total rest >>= _) = _
    rw [hcount]
    rfl
  | mouse haction =>
    show (readMouse total rest >>= _) = _
    rw [haction]
    rfl
  | blank hblank => rw [readItem_of_isBlank hblank, List.append_nil]
  | delay hdigit hnumber =>
    rw [readItem_of_not_isMark (isMark_of_isDigit hdigit), if_pos hdigit, hnumber]
    rfl
  | tap hmark hdigit hname hkey =>
    rw [readItem_of_not_isMark hmark, hdigit, if_neg Bool.false_ne_true, if_pos hname, hkey]
    rfl

/-- **An item** only ever adds steps, and of those before it only the last one matters. -/
theorem readItem_eq_ok_iff : readItem total steps c rest = .ok (steps', left) ↔
    ∃ added, ReadsItem total steps.getLast? c rest added left ∧ steps' = steps ++ added := by
  constructor
  · intro h
    unfold readItem at h
    simp only at h
    split at h
    · rename_i hc
      subst hc
      split at h
      · cases h
      · rename_i text left htext
        cases h
        cases text with
        | nil => exact ⟨[], .emptyText htext, (List.append_nil _).symm⟩
        | cons d text => exact ⟨_, .text htext (List.cons_ne_nil _ _), rfl⟩
    rename_i hquote
    split at h
    · rename_i hc
      subst hc
      obtain ⟨⟨key, left⟩, hkey, h⟩ := bind_eq_ok h
      cases h
      exact ⟨_, .hold hkey, rfl⟩
    rename_i hplus
    split at h
    · rename_i hc
      subst hc
      obtain ⟨⟨key, left⟩, hkey, h⟩ := bind_eq_ok h
      cases h
      exact ⟨_, .release hkey, rfl⟩
    rename_i hminus
    split at h
    · rename_i hc
      subst hc
      split at h
      · cases h
      · rename_i last hlast
        obtain ⟨⟨count, left⟩, hcount, h⟩ := bind_eq_ok h
        cases h
        exact ⟨_, .repeats hlast hcount, rfl⟩
    rename_i hbrace
    split at h
    · rename_i hc
      subst hc
      obtain ⟨⟨action, left⟩, haction, h⟩ := bind_eq_ok h
      cases h
      exact ⟨_, .mouse haction, rfl⟩
    rename_i hangle
    split at h
    · rename_i hblank
      cases h
      exact ⟨[], .blank hblank, (List.append_nil _).symm⟩
    rename_i hblank
    split at h
    · rename_i hdigit
      obtain ⟨ms, hms, h⟩ := bind_eq_ok h
      cases h
      exact ⟨_, .delay hdigit hms, rfl⟩
    rename_i hdigit
    split at h
    · rename_i hname
      obtain ⟨key, hkey, h⟩ := bind_eq_ok h
      cases h
      have hmark : isMark c = false := by
        simp [isMark, hquote, hplus, hminus, hbrace, hangle, hblank]
      exact ⟨_, .tap hmark (by simpa using hdigit) hname hkey, rfl⟩
    · cases h
  · rintro ⟨added, h, rfl⟩
    exact h.readItem_eq

/-- **An item** that can be read on its own is read in the same way before what ends a name. -/
theorem ReadsItem.append {last last' : Option Step} {added : List Step} (htail : EndsName tail)
    (hlast : ∀ step ∈ last, last' = some step) (h : ReadsItem total last c rest added left) :
    ReadsItem total' last' c (rest ++ tail) added (left ++ tail) := by
  cases h with
  | emptyText htext => exact .emptyText (readText_append htext)
  | text htext hne => exact .text (readText_append htext) hne
  | hold hkey => exact .hold (readKey_append hkey htail)
  | release hkey => exact .release (readKey_append hkey htail)
  | repeats hstep hcount => exact .repeats (hlast _ hstep) (readCount_append hcount)
  | mouse haction => exact .mouse (readMouse_append haction)
  | blank hblank => exact .blank hblank
  | delay hdigit hnumber =>
    rw [← dropWhile_append_of_ends fun _ => htail.not_isDigit]
    apply ReadsItem.delay hdigit
    rw [takeWhile_append_of_ends fun _ => htail.not_isDigit]
    exact hnumber
  | tap hmark hdigit hname hkey =>
    rw [← dropWhile_append_of_ends fun _ => htail]
    apply ReadsItem.tap hmark hdigit hname
    rw [takeWhile_append_of_ends fun _ => htail]
    exact hkey

/-! ## Scripts -/

theorem readItems_nil : readItems total steps [] = .ok steps := by
  rw [readItems]

theorem readItems_cons : readItems total steps (c :: rest) =
    readItem total steps c rest >>= fun read => readItems total read.1 read.2 := by
  rw [readItems]
  split
  · rename_i hitem
    rw [hitem]
    rfl
  · rename_i hitem
    rw [hitem]
    rfl

/-- **An item** is read behind other steps, and before what ends a name, as it is read on its own. -/
theorem ReadsItem.readItem_append {added : List Step} (before : List Step) (htail : EndsName tail)
    (h : ReadsItem total steps.getLast? c rest added left) :
    readItem total' (before ++ steps) c (rest ++ tail) =
      .ok (before ++ (steps ++ added), left ++ tail) := by
  have hlast : ∀ step ∈ steps.getLast?, (before ++ steps).getLast? = some step := by
    intro step hstep
    rw [List.getLast?_append, Option.mem_def.mp hstep]
    rfl
  rw [(h.append htail hlast).readItem_eq, List.append_assoc]

/-- **A piece** that can be read on its own is read first, before what ends a name, and what was read
    before it stays in front of its steps. -/
theorem readItems_append (before : List Step) (htail : EndsName tail)
    (h : readItems total steps cs = .ok steps') :
    readItems total' (before ++ steps) (cs ++ tail) = readItems total' (before ++ steps') tail := by
  fun_induction readItems total steps cs with
  | case1 steps =>
    obtain rfl := Except.ok.inj h
    rfl
  | case2 steps c rest error hitem => cases h
  | case3 steps c rest steps₁ rest₁ hitem ih =>
    obtain ⟨added, hreads, rfl⟩ := readItem_eq_ok_iff.mp hitem
    rw [List.cons_append, readItems_cons, hreads.readItem_append before htail]
    exact ih h

end SpokenCommand.Script
