import SpokenCommand.Proofs.Grammar.Parsing
/-!
Where the caret of a failure stands.

An error carries the POSITION of a token, and the caret stands where the parser STOPPED.  The two are
kept apart, and they agree only where the parser looked at the token before it went on.

1. **Failures** (`FailsAt`) are said once, one constructor for each: the error, the token that is found at
   its position, and the stop.  Four of them stop one token later, because the token was taken before it
   was judged: a bracket that closes one of the other kind, what is no name or no defined name after a
   dollar sign, and a mark after a reference.

2. **The crux** (`Reached`) is the invariant of the parser: the tokens that are left are those from the
   index on, and as many brackets are open as frames are on the stack.  So the tokens alone tell whether a
   closing bracket that is refused stands inside another one.

3. **The caret line** is as many blanks as the listing has characters before the token at which the parser
   stopped (`caretLine_eq`).  So the caret is under the token of the error, or just past the listing if
   there is none, if and only if the token was not passed (`caret_column`).
-/

namespace SpokenCommand.Grammar

/-! ## Positions -/

/-- The token that an error points at; an error of a single character, of the whole source, of its end or
    of a name alone points at none. -/
def Error.position? : Error → Option Nat
  | controlCharacter _ _ => none
  | empty => none
  | emptySequence p => some p
  | leadingPipe p => some p
  | danglingMark _ p => some p
  | markedOptional p => some p
  | markedReference _ p => some p
  | missingName p => some p
  | undefinedName _ p => some p
  | unclosed _ => none
  | unexpectedToken _ p => some p
  | reservedName _ => none

/-- By how much a token changes the number of open brackets. -/
def Token.nesting : Token → Int
  | opening _ => 1
  | closing _ => -1
  | _ => 0

/-- How many brackets are open before the token at an index. -/
def depthAt (tokens : List Token) (i : Nat) : Int :=
  (tokens.take i).foldl (fun depth t => depth + t.nesting) 0

/-- Whether the parser has passed the token of an error when it stops. -/
def Error.isPassed (tokens : List Token) : Error → Bool
  | markedReference _ _ => true
  | undefinedName _ _ => true
  | missingName p => p < tokens.length
  | unexpectedToken _ p => 0 < depthAt tokens p
  | _ => false

/-- A token that ends a sequence, or the end of the source. -/
def EndsSequence : Option Token → Prop
  | none => True
  | some .pipe => True
  | some (.closing _) => True
  | some _ => False

/-- **How tokens are refused**: the error, the token at its position, and where the parser stops. -/
inductive FailsAt (tokens : List Token) : Failure → Prop
  | emptySequence {p} (hp : p ≤ tokens.length) (htoken : EndsSequence tokens[p]?) :
      FailsAt tokens ⟨.emptySequence p, p⟩
  | leadingPipe {p} (htoken : tokens[p]? = some .pipe) : FailsAt tokens ⟨.leadingPipe p, p⟩
  | danglingMark {p m} (htoken : tokens[p]? = some (.mark m)) : FailsAt tokens ⟨.danglingMark m p, p⟩
  | markedOptional {p m} (htoken : tokens[p]? = some (.mark m)) : FailsAt tokens ⟨.markedOptional p, p⟩
  | markedReference {p name m} (htoken : tokens[p]? = some (.mark m)) :
      FailsAt tokens ⟨.markedReference name p, p + 1⟩
  | nothingNamed : FailsAt tokens ⟨.missingName tokens.length, tokens.length⟩
  | missingName {p t} (htoken : tokens[p]? = some t) (hword : ∀ name, t ≠ .word name) :
      FailsAt tokens ⟨.missingName p, p + 1⟩
  | undefinedName {p name} (htoken : tokens[p]? = some (.word name)) :
      FailsAt tokens ⟨.undefinedName (Text.lowercase name) p, p + 1⟩
  | unclosed {b} : FailsAt tokens ⟨.unclosed b, tokens.length⟩
  | /-- No bracket is open. -/
    unexpectedOutside {p t} (htoken : tokens[p]? = some t) (hdepth : depthAt tokens p = 0) :
      FailsAt tokens ⟨.unexpectedToken t p, p⟩
  | /-- The innermost bracket is of the other kind. -/
    unexpectedInside {p b} (htoken : tokens[p]? = some (.closing b)) (hdepth : 0 < depthAt tokens p) :
      FailsAt tokens ⟨.unexpectedToken (.closing b) p, p + 1⟩

variable {templates : Templates} {tokens rest : List Token} {frames outer : List Frame} {frame : Frame}
  {t : Token} {b : Bracket} {i p : Nat} {failure : Failure}

/-! ## The invariant of the parser -/

/-- **The invariant**: the parser has reached a token inside as many open brackets as there are frames. -/
structure Reached (tokens : List Token) (frames : List Frame) (i : Nat) (rest : List Token) : Prop where
  drop_eq : tokens.drop i = rest
  le_length : i ≤ tokens.length
  depth_eq : depthAt tokens i = frames.length

namespace Reached

theorem start (tokens : List Token) : Reached tokens [] 0 tokens := ⟨rfl, Nat.zero_le _, rfl⟩

theorem getElem?_eq_head? (h : Reached tokens frames i rest) : tokens[i]? = rest.head? := by
  rw [← List.head?_drop, h.drop_eq]

theorem getElem?_eq (h : Reached tokens frames i (t :: rest)) : tokens[i]? = some t :=
  h.getElem?_eq_head?

theorem length_eq (h : Reached tokens frames i []) : tokens.length = i :=
  Nat.le_antisymm (List.drop_eq_nil_iff.mp h.drop_eq) h.le_length

/-- A token is passed. -/
theorem pass (h : Reached tokens frames i (t :: rest)) {frames' : List Frame}
    (hframes : (frames'.length : Int) = frames.length + t.nesting) :
    Reached tokens frames' (i + 1) rest where
  drop_eq := by
    rw [← List.drop_drop, h.drop_eq]
    rfl
  le_length := (List.getElem?_eq_some_iff.mp h.getElem?_eq).1
  depth_eq := by
    rw [depthAt, List.take_add_one, h.getElem?_eq, List.foldl_append, ← depthAt, h.depth_eq, hframes]
    rfl

/-- A token that is no bracket is passed. -/
theorem pass_plain (h : Reached tokens frames i (t :: rest)) (ht : t.nesting = 0) :
    Reached tokens frames (i + 1) rest :=
  h.pass (by rw [ht, Int.add_zero])

theorem pass_opening (h : Reached tokens frames i (.opening b :: rest)) :
    Reached tokens (frame :: frames) (i + 1) rest :=
  h.pass rfl

theorem pass_closing (h : Reached tokens (frame :: outer) i (.closing b :: rest)) :
    Reached tokens outer (i + 1) rest := by
  refine h.pass ?_
  rw [List.length_cons, Token.nesting]
  omega

/-- A sequence that ends before it has begun is refused where it ends. -/
theorem failsAt_empty (h : Reached tokens frames i rest) (hends : EndsSequence rest.head?) :
    FailsAt tokens ⟨.emptySequence i, i⟩ := by
  refine .emptySequence h.le_length ?_
  rwa [h.getElem?_eq_head?]

end Reached

/-- **What the parser refuses** fails in one of these ways. -/
theorem failsAt_of_parseFrom {nodes : Sequence} (hreached : Reached tokens frames i rest)
    (h : parseFrom templates frames nodes i rest = .error failure) : FailsAt tokens failure := by
  -- Each step that goes on passes one token, and perhaps others that are no brackets.
  fun_induction parseFrom templates frames nodes i rest with
  | case1 frames nodes i =>
    obtain rfl := Except.error.inj h
    exact hreached.failsAt_empty trivial
  | case2 => cases h
  | case3 nodes i hne frame outer =>
    obtain rfl := Except.error.inj h
    rw [← hreached.length_eq]
    exact .unclosed
  | case4 frames nodes i text m rest ih => exact ih ((hreached.pass_plain rfl).pass_plain rfl) h
  | case5 frames nodes i text rest _ ih => exact ih (hreached.pass_plain rfl) h
  | case6 frames nodes i m rest =>
    obtain rfl := Except.error.inj h
    exact .danglingMark hreached.getElem?_eq
  | case7 frames nodes i b =>
    obtain rfl := Except.error.inj h
    have hend : Reached tokens (⟨b, nodes, []⟩ :: frames) (i + 1) [] := hreached.pass_opening
    rw [← hend.length_eq]
    exact .unclosed
  | case8 frames nodes i b rest =>
    obtain rfl := Except.error.inj h
    have hinside : Reached tokens (⟨b, nodes, []⟩ :: frames) (i + 1) _ := hreached.pass_opening
    exact .leadingPipe hinside.getElem?_eq
  | case9 frames nodes i b rest _ _ ih => exact ih hreached.pass_opening h
  | case10 frames nodes i rest =>
    obtain rfl := Except.error.inj h
    exact hreached.failsAt_empty trivial
  | case11 nodes i rest =>
    obtain rfl := Except.error.inj h
    exact .unexpectedOutside hreached.getElem?_eq hreached.depth_eq
  | case12 nodes i hne frame outer =>
    obtain rfl := Except.error.inj h
    rw [← (hreached.pass_plain rfl).length_eq]
    exact .unclosed
  | case13 nodes i hne frame outer rest _ ih =>
    exact ih (hreached.pass rfl) h
  | case14 frames nodes i b rest =>
    obtain rfl := Except.error.inj h
    exact hreached.failsAt_empty trivial
  | case15 nodes i b rest =>
    obtain rfl := Except.error.inj h
    exact .unexpectedOutside hreached.getElem?_eq hreached.depth_eq
  | case16 nodes i b rest hne frame outer =>
    obtain rfl := Except.error.inj h
    refine .unexpectedInside hreached.getElem?_eq ?_
    rw [hreached.depth_eq, List.length_cons]
    omega
  | case17 nodes i hne frame outer m rest =>
    obtain rfl := Except.error.inj h
    exact .markedOptional hreached.pass_closing.getElem?_eq
  | case18 nodes i hne frame outer rest _ _ ih => exact ih hreached.pass_closing h
  | case19 nodes i hne frame outer m rest _ ih => exact ih (hreached.pass_closing.pass_plain rfl) h
  | case20 nodes i hne frame outer rest _ _ ih => exact ih hreached.pass_closing h
  | case21 frames nodes i name rest =>
    obtain rfl := Except.error.inj h
    exact .undefinedName (hreached.pass_plain rfl).getElem?_eq
  | case22 frames nodes i name template _ m rest _ ih =>
    exact ih (((hreached.pass_plain rfl).pass_plain rfl).pass_plain rfl) h
  | case23 frames nodes i name template _ m rest =>
    obtain rfl := Except.error.inj h
    exact .markedReference ((hreached.pass_plain rfl).pass_plain rfl).getElem?_eq
  | case24 frames nodes i name template _ rest _ ih =>
    exact ih ((hreached.pass_plain rfl).pass_plain rfl) h
  | case25 frames nodes i rest hword =>
    obtain rfl := Except.error.inj h
    have hnext := hreached.pass_plain rfl
    cases rest with
    | nil =>
      rw [← hnext.length_eq]
      exact .nothingNamed
    | cons t rest => exact .missingName hnext.getElem?_eq fun name ht => hword name rest (by rw [ht])

/-! ## Where it stops -/

theorem FailsAt.stop_eq (h : FailsAt tokens failure) (hp : failure.error.position? = some p) :
    failure.stop = if failure.error.isPassed tokens then p + 1 else p := by
  cases h with
  | unclosed => cases hp
  | missingName htoken hword =>
    obtain rfl := Option.some.inj hp
    have hlt := (List.getElem?_eq_some_iff.mp htoken).1
    simp [Error.isPassed, hlt]
  | nothingNamed =>
    obtain rfl := Option.some.inj hp
    simp [Error.isPassed]
  | unexpectedOutside htoken hdepth =>
    obtain rfl := Option.some.inj hp
    simp [Error.isPassed, hdepth]
  | unexpectedInside htoken hdepth =>
    obtain rfl := Option.some.inj hp
    simp [Error.isPassed, hdepth]
  | _ =>
    obtain rfl := Option.some.inj hp
    rfl

theorem FailsAt.position_le (h : FailsAt tokens failure) (hp : failure.error.position? = some p) :
    p ≤ tokens.length := by
  cases h with
  | unclosed => cases hp
  | emptySequence hle _ =>
    obtain rfl := Option.some.inj hp
    exact hle
  | nothingNamed =>
    obtain rfl := Option.some.inj hp
    exact Nat.le_refl _
  | leadingPipe htoken | danglingMark htoken | markedOptional htoken | markedReference htoken
  | missingName htoken _ | undefinedName htoken | unexpectedOutside htoken _
  | unexpectedInside htoken _ =>
    obtain rfl := Option.some.inj hp
    exact Nat.le_of_lt (List.getElem?_eq_some_iff.mp htoken).1

/-- Only a token that is there can be passed. -/
theorem FailsAt.lt_of_isPassed (h : FailsAt tokens failure) (hp : failure.error.position? = some p)
    (hpassed : failure.error.isPassed tokens = true) : p < tokens.length := by
  cases h with
  | missingName htoken _ | markedReference htoken | undefinedName htoken | unexpectedOutside htoken _
  | unexpectedInside htoken _ =>
    obtain rfl := Option.some.inj hp
    exact (List.getElem?_eq_some_iff.mp htoken).1
  | nothingNamed => simp [Error.isPassed] at hpassed
  | _ => cases hpassed

/-! ## The two lines -/

/-- The column at which a token begins in the listing. -/
def column (tokens : List Token) (i : Nat) : Nat := (listing (tokens.take i)).length

theorem listing_append (front back : List Token) :
    listing (front ++ back) = listing front ++ listing back := by
  rw [listing, List.map_append, String.join_append]
  rfl

theorem listing_singleton (t : Token) : listing [t] = t.text ++ " " := by
  simp [listing, String.join]

/-- A later token begins at a later column. -/
theorem column_lt_column_succ (hp : p < tokens.length) : column tokens p < column tokens (p + 1) := by
  rw [column, column, List.take_add_one, List.getElem?_eq_getElem hp, Option.toList_some, listing_append,
    listing_singleton, String.length_append, String.length_append]
  have hspace : " ".length = 1 := rfl
  omega

/-- **The caret line** is blank up to the caret. -/
theorem caretLine_eq (tokens : List Token) (stop : Nat) :
    caretLine tokens stop = String.ofList (List.replicate (column tokens stop) ' ') ++ "^" := by
  rw [caretLine, column]
  congr 2
  induction tokens.take stop with
  | nil => rfl
  | cons t rest ih =>
    rw [List.flatMap_cons, ih, ← List.singleton_append, listing_append, listing_singleton,
      String.length_append, String.length_append, List.replicate_append_replicate]
    rfl

/-- The listing with a caret under the first character of a token, or just past it if there is no token
    at the index. -/
def markedListing (tokens : List Token) (i : Nat) : String :=
  listing tokens ++ "\n" ++ String.ofList (List.replicate (column tokens i) ' ') ++ "^"

theorem markedListing_eq (tokens : List Token) (stop : Nat) :
    listing tokens ++ "\n" ++ caretLine tokens stop = markedListing tokens stop := by
  rw [caretLine_eq, markedListing, String.append_assoc, String.append_assoc, String.append_assoc]

/-- Carets under different tokens are told apart. -/
theorem markedListing_succ_ne (hp : p < tokens.length) :
    markedListing tokens (p + 1) ≠ markedListing tokens p := by
  intro heq
  have hlength := congrArg String.length heq
  simp only [markedListing, String.length_append, String.length_ofList, List.length_replicate] at hlength
  have hlt := column_lt_column_succ hp
  omega

theorem parse_eq_error {source : String} {e : Error} (h : parse templates source = .error e)
    (hp : e.position? = some p) :
    ∃ tokens stop, tokenize source = .ok tokens ∧ tokens ≠ [] ∧
      parseTokens templates tokens = .error ⟨e, stop⟩ := by
  unfold parse at h
  split at h
  case h_1 e' htokens =>
    obtain rfl := Except.error.inj h
    unfold tokenize at htokens
    split at htokens
    · obtain rfl := Except.error.inj htokens
      cases hp
    · cases htokens
  case h_2 =>
    obtain rfl := Except.error.inj h
    cases hp
  case h_3 tokens hne htokens =>
    split at h
    · rename_i failure hfailure
      obtain rfl := Except.error.inj h
      exact ⟨tokens, failure.stop, htokens, hne, hfailure⟩
    · cases h

/-- **The caret of a failure**: where the parser refuses a source with an error that points at a token,
    the caret stands under that token, or under the next one if the parser had passed the token, which is
    told by the tokens alone. -/
theorem caret_column {source : String} {e : Error} (h : parse templates source = .error e)
    (hp : e.position? = some p) :
    ∃ tokens stop, tokenize source = .ok tokens ∧ parseTokens templates tokens = .error ⟨e, stop⟩ ∧
      FailsAt tokens ⟨e, stop⟩ ∧ p ≤ tokens.length ∧
      stop = (if e.isPassed tokens then p + 1 else p) ∧
      diagnostic templates source = some (markedListing tokens stop) ∧
      (diagnostic templates source = some (markedListing tokens p) ↔ e.isPassed tokens = false) := by
  obtain ⟨tokens, stop, htokens, hne, hfailure⟩ := parse_eq_error h hp
  have hfails : FailsAt tokens ⟨e, stop⟩ := failsAt_of_parseFrom (.start tokens) hfailure
  have hstop : stop = if e.isPassed tokens then p + 1 else p := hfails.stop_eq hp
  have hdiagnostic : diagnostic templates source = some (markedListing tokens stop) := by
    unfold diagnostic
    rw [htokens]
    cases tokens with
    | nil => exact absurd rfl hne
    | cons t rest =>
      dsimp only
      rw [hfailure, ← markedListing_eq]
  refine ⟨tokens, stop, htokens, hfailure, hfails, hfails.position_le hp, hstop, hdiagnostic, ?_⟩
  rw [hdiagnostic, Option.some_inj, hstop]
  cases hpassed : e.isPassed tokens with
  | false => exact iff_of_true rfl rfl
  | true =>
    refine iff_of_false ?_ Bool.noConfusion
    exact markedListing_succ_ne (hfails.lt_of_isPassed hp hpassed)

/-- A bracket that is closed inside another one, at token 4: the caret stands under token 5. -/
theorem caret_column_of_crossing :
    (parse .builtin "(a [b) c" = .error (.unexpectedToken (.closing .group) 4) ∧
      (Error.unexpectedToken (.closing .group) 4).position? = some 4) ∧
    ∃ tokens stop, tokenize "(a [b) c" = .ok tokens ∧
      parseTokens .builtin tokens = .error ⟨.unexpectedToken (.closing .group) 4, stop⟩ ∧
      FailsAt tokens ⟨.unexpectedToken (.closing .group) 4, stop⟩ ∧ 4 ≤ tokens.length ∧
      stop = (if (Error.unexpectedToken (.closing .group) 4).isPassed tokens then 4 + 1 else 4) ∧
      diagnostic .builtin "(a [b) c" = some (markedListing tokens stop) ∧
      (diagnostic .builtin "(a [b) c" = some (markedListing tokens 4) ↔
        (Error.unexpectedToken (.closing .group) 4).isPassed tokens = false) := by
  have hparse : parse .builtin "(a [b) c" = .error (.unexpectedToken (.closing .group) 4) := rfl
  exact ⟨⟨hparse, rfl⟩, caret_column hparse rfl⟩

/-- The caret does not always stand under the token that the error points at: it stands past the listing
    where token 2 is refused. -/
theorem not_caret_under_crossing :
    ¬ ∀ templates source e p, parse templates source = .error e → e.position? = some p →
      ∃ tokens stop, tokenize source = .ok tokens ∧ parseTokens templates tokens = .error ⟨e, stop⟩ ∧
        stop = p ∧ diagnostic templates source = some (markedListing tokens p) := by
  intro hclaim
  have hparse : parse .builtin "(a ]" = .error (.unexpectedToken (.closing .optional) 2) := rfl
  have hdiagnostic : diagnostic .builtin "(a ]" = some "( a ] \n      ^" := by decide +kernel
  have htokenize : tokenize "(a ]" = .ok [.opening .group, .word "a", .closing .optional] := rfl
  obtain ⟨tokens, stop, htokens, -, -, hmarked⟩ := hclaim _ _ _ _ hparse rfl
  obtain rfl := Except.ok.inj (htokenize.symm.trans htokens)
  rw [hdiagnostic] at hmarked
  exact absurd hmarked (by decide +kernel)

end SpokenCommand.Grammar
