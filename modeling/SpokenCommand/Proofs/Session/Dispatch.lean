import Mathlib.Data.List.DropRight
import SpokenCommand.Proofs.Session.Reload
/-!
What handling a phrase does, and what it depends on.

1. **Words** are all that is read of a phrase.  The blanks at its ends are not between words, so that
   trimming is not seen (`handlePhrase_eq`), and every reader of the words makes them lowercase first.
   Two phrases with the same words in lowercase are therefore handled alike, save for the text that is
   quoted in an event (`withoutPhrases_handlePhrase`).

2. **Submissions.**  Everything that a phrase plays is handed to the worker as one list of steps after
   another: first the actions of its command, then what its function asks for.  `submissions` is this
   list of lists, each with the mark of being remembered or not, read off the phrase and the session
   before anything is done.

3. **The crux** is `Submits`: from one session to another, the worker was handed exactly these lists in
   this order, and the steps to repeat are the last of the remembered ones.  It composes, so that every
   operation has its own lemma and a phrase is put together from them (`submits_handlePhrase`).  A worker
   that refuses is not a case of its own: it ignores what it is handed, and goes on ignoring it.
-/

namespace SpokenCommand

open Modes Playback Script

/-! ## Words -/

namespace Text

theorem wordsFrom_dropWhile (cs : List Char) : wordsFrom [] (cs.dropWhile isBlank) = wordsFrom [] cs := by
  induction cs with
  | nil => rfl
  | cons c rest ih =>
    by_cases hc : isBlank c = true
    · rw [List.dropWhile_cons_of_pos hc, ih, wordsFrom, if_pos hc]
      rfl
    · rw [List.dropWhile_cons_of_neg hc]

theorem wordsFrom_append_blanks {blanks : List Char} (hblanks : ∀ c ∈ blanks, isBlank c = true)
    (word cs : List Char) : wordsFrom word (cs ++ blanks) = wordsFrom word cs := by
  induction cs generalizing word with
  | nil =>
    -- the first blank ends the word, if there is one, and no other begins one
    cases blanks with
    | nil => rfl
    | cons c rest =>
      have hrest : wordsFrom [] rest = [] := by
        rw [wordsFrom_eq_nil]
        exact ⟨rfl, fun c' hc' => hblanks c' (List.mem_cons_of_mem c hc')⟩
      rw [List.nil_append, wordsFrom.eq_2, if_pos (hblanks c List.mem_cons_self), hrest, wordsFrom]
  | cons c rest ih =>
    rw [List.cons_append, wordsFrom, wordsFrom]
    simp only [ih]

/-- The blanks at the ends of a text are not between words. -/
theorem words_trim (text : String) : words (trim text) = words text := by
  let cs := text.toList.dropWhile isBlank
  have hblanks : ∀ c ∈ cs.rtakeWhile isBlank, isBlank c = true := by
    intro c hc
    exact List.mem_rtakeWhile_imp hc
  have htrim : wordsFrom [] (trim text).toList = wordsFrom [] text.toList :=
    calc wordsFrom [] (trim text).toList
        = wordsFrom [] (cs.rdropWhile isBlank) := by rw [trim, String.toList_ofList, List.rdropWhile]
      _ = wordsFrom [] (cs.rdropWhile isBlank ++ cs.rtakeWhile isBlank) :=
        (wordsFrom_append_blanks hblanks [] _).symm
      _ = wordsFrom [] cs := by rw [List.rdropWhile_append_rtakeWhile]
      _ = wordsFrom [] text.toList := wordsFrom_dropWhile text.toList
  rw [words, htrim, words]

end Text

/-- A grammar accepts words by their lowercase forms. -/
theorem Grammar.accepts_congr {words words' : List String} (sequence : Sequence)
    (h : words.map Text.lowercase = words'.map Text.lowercase) :
    accepts sequence words = accepts sequence words' := by
  have hlength : words.length = words'.length := by
    rw [← List.length_map Text.lowercase, h, List.length_map]
  rw [accepts, accepts, h, hlength]

/-- A recognizer takes phrases by their words in lowercase. -/
theorem Recognizer.recognize_congr {phrase phrase' : String} (r : Recognizer)
    (h : (Text.words phrase).map Text.lowercase = (Text.words phrase').map Text.lowercase) :
    r.recognize phrase = r.recognize phrase' := by
  have haccepts : ∀ g : LoadedGrammar, Grammar.accepts g.grammar (Text.words phrase) =
      Grammar.accepts g.grammar (Text.words phrase') := fun g => Grammar.accepts_congr g.grammar h
  rw [recognize, recognize]
  cases hwords : Text.words phrase with
  | nil =>
    cases hwords' : Text.words phrase' with
    | nil => rfl
    | cons word' rest' =>
      rw [hwords, hwords'] at h
      exact absurd h.symm (List.cons_ne_nil _ _)
  | cons word rest =>
    cases hwords' : Text.words phrase' with
    | nil =>
      rw [hwords, hwords'] at h
      exact absurd h (List.cons_ne_nil _ _)
    | cons word' rest' =>
      rw [hwords, hwords'] at haccepts
      simp only [haccepts]

/-- An event without the phrase that it quotes. -/
def Event.withoutPhrase : Event → Event
  | commandRecognized command _ => commandRecognized command ""
  | phraseRejected _ => phraseRejected ""
  | event => event

namespace Session

theorem lowerWords_trim (phrase : String) : lowerWords (Text.trim phrase) = lowerWords phrase := by
  rw [lowerWords, Text.words_trim, lowerWords]

theorem recognize_congr {phrase phrase' : String} (e : Engine)
    (h : lowerWords phrase = lowerWords phrase') : e.recognize phrase = e.recognize phrase' := by
  rw [Engine.recognize, Recognizer.recognize_congr e.recognizer h, Engine.recognize]

/-- The command that a phrase is recognized as.  A muted session hears nothing but the phrase that wakes
    it. -/
def heard (s : Session) (spoken : String) : Option Command :=
  if s.isMuted && lowerWords spoken != wakeWords then none else s.engine.recognize spoken

/-- Handling a phrase: trimming matters to the text that is quoted only. -/
theorem handlePhrase_eq (s : Session) (file : FileContent) (spoken : String) :
    s.handlePhrase file spoken =
      match s.heard spoken with
      | some command =>
        let r := s.carryOut file command (lowerWords spoken)
        { state := r.state, result := .recognized command.name, notices := r.notices
          events := .commandRecognized command.name (Text.trim spoken) :: r.events }
      | none =>
        if s.isMuted && lowerWords spoken != wakeWords then { state := s, result := .muted }
        else { state := s, result := .rejected, events := [.phraseRejected (Text.trim spoken)] } := by
  have htrim : s.engine.recognize (Text.trim spoken) = s.engine.recognize spoken :=
    recognize_congr s.engine (lowerWords_trim spoken)
  simp only [handlePhrase, heard, lowerWords_trim, htrim]
  by_cases hmuted : (s.isMuted && lowerWords spoken != wakeWords) = true
  · simp only [hmuted, if_true]
  · simp only [hmuted]
    cases s.engine.recognize spoken <;> rfl

theorem heard_congr (s : Session) {spoken spoken' : String}
    (h : lowerWords spoken = lowerWords spoken') : s.heard spoken = s.heard spoken' := by
  rw [heard, heard, h, recognize_congr s.engine h]

/-! ## What functions ask for -/

/-- The functions that make a request.  Any may ask to play. -/
def Request.IsAskedBy : Request → Builtin → Prop
  | .setMuted _, function => function = .voiceCodeMute
  | .changeMode _, function => function = .changeMode ∨ function = .changeModeNavigate
  | .exitMode, function => function = .exitMode
  | .switchSibling _, function => function = .switchSiblingMode
  | .enterExclusive _, function => function = .enterExclusiveMode
  | .exitExclusive, function => function = .exitExclusiveMode
  | .reload, function => function = .reloadDefinitions
  | .repeatLast _, function => function = .repeatAction
  | .play _, _ => True
  | .playAndRemember _, function => function = .emitKeys
  | .reportCursor, function => function = .printMouseCoordinates

/-- Whatever is requested has a property. -/
def Asks (p : Request → Prop) (interpreted : Interpreted) : Prop :=
  ∀ i, interpreted = .ok i → p i.request

section Asking

variable {p : Request → Prop}

theorem asks_ok {i : Interpretation} (h : p i.request) : Asks p (.ok i) := by
  intro i' hi
  obtain rfl := Except.ok.inj hi
  exact h

theorem asks_error {e : FunctionError} : Asks p (.error e) := by
  intro i hi
  cases hi

theorem asks_ask {request : Request} (h : p request) : Asks p (ask request) := asks_ok h

theorem Asks.bind {α : Type} {x : Except FunctionError α} {next : α → Interpreted}
    (h : ∀ a, Asks p (next a)) : Asks p (x >>= next) := by
  intro i hi
  obtain ⟨a, -, ha⟩ := bind_eq_ok hi
  exact h a i ha

variable (hplay : ∀ steps, p (.play steps))
include hplay

theorem asks_type (text : String) : Asks p (type text) := asks_ask (hplay _)

theorem asks_emitSymbol (words : List String) : Asks p (emitSymbol words) := by
  rw [emitSymbol.eq_def]
  split
  · exact asks_type hplay _
  · refine .bind fun name => ?_
    split
    · exact asks_error
    · exact asks_ask (hplay _)

theorem asks_mouseMove (words : List String) : Asks p (mouseMove words) := by
  refine .bind fun first => ?_
  dsimp only
  generalize (if (vertical? first).isSome = true then words[2]?.bind horizontal?
    else horizontal? first) = horizontal
  split
  · exact .bind fun _ => asks_ask (hplay _)
  · exact asks_ask (hplay _)

theorem asks_mouseClick (words : List String) : Asks p (mouseClick words) := by
  rw [mouseClick]
  split
  · exact asks_ask (hplay _)
  · exact asks_ask (hplay _)
  · exact asks_ask (hplay _)

end Asking

variable {screen : Size} {words : List String} {function : Builtin} {i : Interpretation}

theorem asks_repeatAction (words : List String) :
    Asks (·.IsAskedBy .repeatAction) (repeatAction words) := by
  rw [repeatAction]
  cases readLastNumber words with
  | none => exact asks_ask rfl
  | some times => exact asks_ok rfl

theorem asks_emitKeys (screen : Size) (words : List String) :
    Asks (·.IsAskedBy .emitKeys) (interpret screen words .emitKeys) := by
  rw [interpret]
  split
  · exact asks_ask trivial
  · exact asks_ask rfl

/-- **What a function requests** is for that function to request. -/
theorem asks_interpret (screen : Size) (words : List String) (function : Builtin) :
    Asks (·.IsAskedBy function) (interpret screen words function) := by
  have hplay : ∀ steps, (Request.play steps).IsAskedBy function := fun _ => trivial
  cases function with
  | voiceCodeMute => exact .bind fun _ => asks_ask rfl
  | changeMode => exact .bind fun _ => asks_ask (Or.inl rfl)
  | exitMode => exact asks_ask rfl
  | switchSiblingMode => exact .bind fun _ => asks_ask rfl
  | enterExclusiveMode => exact .bind fun _ => asks_ask rfl
  | exitExclusiveMode => exact asks_ask rfl
  | reloadDefinitions => exact asks_ask rfl
  | repeatAction => exact asks_repeatAction words
  | emitDictation => exact asks_type hplay _
  | emitSpelledWord => exact asks_type hplay _
  | emitKeys => exact asks_emitKeys screen words
  | emitCamelCase => exact .bind fun _ => asks_type hplay _
  | emitPascalCase => exact asks_type hplay _
  | emitInteger => exact asks_type hplay _
  | mouseMove => exact asks_mouseMove hplay words
  | mouseClick => exact asks_mouseClick hplay words
  | mouseGrid => exact .bind fun _ => asks_ask (hplay _)
  | printMouseCoordinates => exact asks_ask rfl
  | goToLine => exact asks_ask (hplay _)
  | changeModeNavigate => exact asks_ask (Or.inr rfl)
  | symbolEmit => exact asks_emitSymbol hplay words
  | emitKeyword => exact .bind fun _ => asks_type hplay _
  | emitPrimitive =>
    refine .bind fun first => ?_
    split
    · exact .bind fun _ => asks_type hplay _
    · exact asks_type hplay _
  | createNewFieldOrMethod => exact asks_type hplay _
  | chooseOffset => exact asks_ok (hplay _)
  | emitStringLiteral => exact asks_ask (hplay _)
  | emitStringInterpolation => exact asks_ask (hplay _)
  | changeWindow => exact asks_ok (hplay _)

/-- A request that neither remembers steps, nor repeats them, nor asks for a reload. -/
def Request.isPlain : Request → Bool
  | .reload => false
  | .repeatLast _ => false
  | .playAndRemember _ => false
  | _ => true

/-- Whatever is requested is plain. -/
def AsksPlainly (interpreted : Interpreted) : Prop :=
  ∀ i, interpreted = .ok i → i.request.isPlain = true

/-- Three functions alone ask for more. -/
theorem asksPlainly_interpret (screen : Size) (words : List String) (hkeys : function ≠ .emitKeys)
    (hrepeat : function ≠ .repeatAction) (hreload : function ≠ .reloadDefinitions) :
    AsksPlainly (interpret screen words function) := by
  intro i hi
  have hasked := asks_interpret screen words function i hi
  cases hrequest : i.request with
  | reload =>
    rw [hrequest] at hasked
    exact absurd hasked hreload
  | repeatLast times =>
    rw [hrequest] at hasked
    exact absurd hasked hrepeat
  | playAndRemember steps =>
    rw [hrequest] at hasked
    exact absurd hasked hkeys
  | _ => rfl

/-- The keys that words name. -/
def keysNamed (words : List String) : List Key := words.filterMap Key.ofName?

theorem interpret_emitKeys (screen : Size) (words : List String) :
    interpret screen words .emitKeys =
      ask (if keysNamed words = [] then .play []
        else .playAndRemember ((keysNamed words).map .tap)) := by
  rw [interpret, ← keysNamed]
  cases keysNamed words <;> rfl

theorem exists_interpret_repeatAction (screen : Size) (words : List String) :
    ∃ times notices, interpret screen words .repeatAction = .ok ⟨.repeatLast times, notices⟩ := by
  rw [interpret, repeatAction]
  cases readLastNumber words with
  | none => exact ⟨_, _, rfl⟩
  | some times => exact ⟨_, _, rfl⟩

/-- A reload is asked for by one function, and that function asks for nothing else. -/
theorem request_eq_reload_iff (h : interpret screen words function = .ok i) :
    i.request = .reload ↔ function = .reloadDefinitions := by
  constructor
  · intro hrequest
    have hasked := asks_interpret screen words function i h
    rwa [hrequest] at hasked
  · rintro rfl
    obtain rfl := Except.ok.inj h
    rfl

end Session

/-! ## Submissions -/

namespace Playback.Worker

variable {w : Worker} {request : List Step}

/-- Submit requests in order, whatever the answers. -/
def submitAll (w : Worker) (requests : List (List Step)) : Worker :=
  requests.foldl (fun w request => (w.submit request).1) w

theorem submitAll_append (w : Worker) (requests requests' : List (List Step)) :
    w.submitAll (requests ++ requests') = (w.submitAll requests).submitAll requests' :=
  List.foldl_append

theorem shown_submit (w : Worker) (request : List Step) : (w.submit request).1.shown = w.shown := by
  rw [submit]
  split
  · rfl
  · split <;> rfl

/-- What is refused is ignored. -/
theorem submit_of_refused {e : Refusal} (h : (w.submit request).2 = .error e) :
    (w.submit request).1 = w := by
  rw [submit] at h ⊢
  split at h
  · cases h
  · split at h
    · cases h
    · rename_i hempty hclosed
      rw [if_neg hempty, if_neg hclosed]

theorem submitAll_replicate_of_refused {e : Refusal} (h : (w.submit request).2 = .error e) (n : Nat) :
    w.submitAll (List.replicate n request) = w := by
  induction n with
  | zero => rfl
  | succ n ih =>
    show (w.submit request).1.submitAll (List.replicate n request) = w
    rw [submit_of_refused h, ih]

end Playback.Worker

namespace Session

/-- Steps handed to playback, and whether they are remembered. -/
structure Submission where
  steps : List Step
  isRemembered : Bool
deriving DecidableEq

/-- The steps to repeat after submissions: those remembered last. -/
def rememberedAfter (last : List Step) (made : List Submission) : List Step :=
  made.foldl (fun last m => if m.isRemembered then m.steps else last) last

theorem rememberedAfter_append (last : List Step) (made made' : List Submission) :
    rememberedAfter last (made ++ made') = rememberedAfter (rememberedAfter last made) made' :=
  List.foldl_append

/-- What a request submits, when `last` are the steps to repeat. -/
def Request.submissions (last : List Step) : Request → List Submission
  | .repeatLast times => List.replicate times ⟨last, false⟩
  | .play steps => [⟨steps, false⟩]
  | .playAndRemember steps => [⟨steps, true⟩]
  | _ => []

/-- What a function submits; nothing if it fails. -/
def functionSubmissions (screen : Size) (words : List String) (last : List Step) :
    Option Builtin → List Submission
  | none => []
  | some function =>
    match interpret screen words function with
    | .error _ => []
    | .ok i => i.request.submissions last

/-- What the actions of a command submit. -/
def ownSubmissions (command : Command) : List Submission :=
  if command.actions.isEmpty then [] else [⟨command.actions, true⟩]

/-- What a phrase submits, in order. -/
def submissions (s : Session) (spoken : String) : List Submission :=
  match s.heard spoken with
  | none => []
  | some command =>
    ownSubmissions command ++
      functionSubmissions s.worker.shown.size (lowerWords spoken)
        (rememberedAfter s.lastSteps (ownSubmissions command)) command.function

/-- Whether a phrase asks for a reload. -/
def asksReload (s : Session) (spoken : String) : Bool :=
  (s.heard spoken).any fun command => command.function == some .reloadDefinitions

/-- From one session to another exactly these submissions are made, and the last of the remembered ones
    is what is to be repeated. -/
structure Submits (s : Session) (made : List Submission) (s' : Session) : Prop where
  worker_eq : s'.worker = s.worker.submitAll (made.map (·.steps))
  lastSteps_eq : s'.lastSteps = rememberedAfter s.lastSteps made

variable {s s' s'' : Session} {made made' : List Submission}

theorem submits_nil (hworker : s'.worker = s.worker) (hlast : s'.lastSteps = s.lastSteps) :
    s.Submits [] s' := ⟨hworker, hlast⟩

theorem Submits.append (h : s.Submits made s') (h' : s'.Submits made' s'') :
    s.Submits (made ++ made') s'' where
  worker_eq := by
    rw [h'.worker_eq, h.worker_eq, List.map_append, Worker.submitAll_append]
  lastSteps_eq := by
    rw [h'.lastSteps_eq, h.lastSteps_eq, rememberedAfter_append]

/-- Submitting does not touch the screen that is shown. -/
theorem Submits.shown_eq (h : s.Submits made s') : s'.worker.shown = s.worker.shown := by
  have hall : ∀ (requests : List (List Step)) (w : Worker), (w.submitAll requests).shown = w.shown := by
    intro requests
    induction requests with
    | nil => exact fun _ => rfl
    | cons request rest ih => exact fun w => (ih _).trans (w.shown_submit request)
  rw [h.worker_eq, hall]

/-- What is not remembered leaves the steps to repeat. -/
theorem rememberedAfter_replicate (last steps : List Step) (n : Nat) :
    rememberedAfter last (List.replicate n ⟨steps, false⟩) = last := by
  induction n with
  | zero => rfl
  | succ n ih => exact ih

theorem submits_repeatTimes (s : Session) (n : Nat) :
    s.Submits (List.replicate n ⟨s.lastSteps, false⟩) (s.repeatTimes n).1 := by
  induction n generalizing s with
  | zero => exact submits_nil rfl rfl
  | succ n ih =>
    have hfirst : s.Submits [⟨s.lastSteps, false⟩] s.repeatLast.1 := ⟨rfl, rfl⟩
    rw [repeatTimes]
    split
    · rename_i s' _ hrepeat
      rw [hrepeat] at hfirst
      have hlast : s'.lastSteps = s.lastSteps := hfirst.lastSteps_eq
      have hrest := ih s'
      rw [hlast] at hrest
      exact hfirst.append hrest
    · rename_i s' e hrepeat
      have hrefused : (s.worker.submit s.lastSteps).2 = .error e := congrArg Prod.snd hrepeat
      rw [hrepeat] at hfirst
      refine ⟨?_, ?_⟩
      · -- the worker ignores this submission, as it would all of them
        have hignored : s'.worker = s.worker :=
          hfirst.worker_eq.trans (Worker.submitAll_replicate_of_refused hrefused 1)
        rw [List.map_replicate, Worker.submitAll_replicate_of_refused hrefused]
        exact hignored
      · rw [rememberedAfter_replicate]
        exact hfirst.lastSteps_eq

/-- Doing what is requested submits what the request submits. -/
theorem submits_perform (s : Session) (request : Request) :
    s.Submits (request.submissions s.lastSteps) (s.perform request).state := by
  cases request with
  | setMuted isMuted => exact submits_nil rfl rfl
  | changeMode name => exact submits_nil rfl rfl
  | exitMode => exact submits_nil rfl rfl
  | switchSibling name => exact submits_nil rfl rfl
  | enterExclusive name =>
    rw [perform]
    split <;> exact submits_nil rfl rfl
  | exitExclusive =>
    rw [perform]
    split <;> exact submits_nil rfl rfl
  | reload => exact submits_nil rfl rfl
  | repeatLast times => exact s.submits_repeatTimes times
  | play steps => exact ⟨rfl, rfl⟩
  | playAndRemember steps => exact ⟨rfl, rfl⟩
  | reportCursor => exact submits_nil rfl rfl

theorem submits_runActions (s : Session) (command : Command) :
    s.Submits (ownSubmissions command) (s.runActions command).state := by
  rw [runActions, ownSubmissions]
  split
  · exact submits_nil rfl rfl
  · have hplayed : s.Submits [⟨command.actions, true⟩] (s.playAndRemember command.actions).1 := ⟨rfl, rfl⟩
    split
    · rename_i s' _ hplay
      rwa [hplay] at hplayed
    · rename_i s' e hplay
      rwa [hplay] at hplayed

/-- Running the function of a command is running a function, and not to be told of its failure. -/
theorem runFunctionOf_of_some {command : Command} (s : Session) (words : List String)
    (hfunction : command.function = some function) :
    (s.runFunctionOf command words).state = (s.runFunction function words).state ∧
      (s.runFunctionOf command words).result =
        ((s.runFunction function words).result.toOption.getD false) := by
  rw [runFunctionOf, hfunction]
  dsimp only [Reaction.andThen]
  cases (s.runFunction function words).result with
  | ok wantsReload => exact ⟨rfl, rfl⟩
  | error e => exact ⟨rfl, rfl⟩

theorem submits_runFunctionOf (s : Session) (command : Command) (words : List String) :
    s.Submits (functionSubmissions s.worker.shown.size words s.lastSteps command.function)
      (s.runFunctionOf command words).state := by
  cases hfunction : command.function with
  | none =>
    rw [runFunctionOf, hfunction]
    exact submits_nil rfl rfl
  | some function =>
    rw [(runFunctionOf_of_some s words hfunction).1, functionSubmissions, runFunction]
    cases interpret s.worker.shown.size words function with
    | error e => exact submits_nil rfl rfl
    | ok i => exact s.submits_perform i.request

/-- The function of a command asks for a reload if it is the one for that. -/
theorem result_runFunctionOf (s : Session) (command : Command) (words : List String) :
    (s.runFunctionOf command words).result = (command.function == some .reloadDefinitions) := by
  cases hfunction : command.function with
  | none =>
    rw [runFunctionOf, hfunction]
    rfl
  | some function =>
    rw [(runFunctionOf_of_some s words hfunction).2, runFunction]
    by_cases hreload : function = .reloadDefinitions
    · rw [hreload]
      rfl
    · have hnot : (some function == some Builtin.reloadDefinitions) = false := by
        simp [hreload]
      rw [hnot]
      cases hinterpret : interpret s.worker.shown.size words function with
      | error e => rfl
      | ok i =>
        have hrequest : (i.request == .reload) = false := by
          simp [request_eq_reload_iff hinterpret, hreload]
        simp only [hrequest]
        cases (s.perform i.request).result <;> rfl

/-- **Handling a phrase** makes the submissions of the phrase, and then reloads if the phrase asks for
    that. -/
theorem submits_handlePhrase (s : Session) (file : FileContent) (spoken : String) :
    ∃ s', s.Submits (s.submissions spoken) s' ∧
      (s.handlePhrase file spoken).state =
        if s.asksReload spoken then (s'.reload file).state else s' := by
  rw [handlePhrase_eq, submissions, asksReload]
  cases s.heard spoken with
  | none =>
    refine ⟨s, submits_nil rfl rfl, ?_⟩
    dsimp only
    split <;> rfl
  | some command =>
    have hactions := s.submits_runActions command
    have hfunction := (s.runActions command).state.submits_runFunctionOf command (lowerWords spoken)
    rw [hactions.shown_eq, hactions.lastSteps_eq] at hfunction
    refine ⟨_, hactions.append hfunction, ?_⟩
    have hresult := result_runFunctionOf (s.runActions command).state command (lowerWords spoken)
    simp only [carryOut, Reaction.andThen, hresult, Option.any_some]
    split <;> rfl

/-- What the worker was handed by a phrase. -/
theorem worker_handlePhrase (s : Session) (file : FileContent) (spoken : String) :
    (s.handlePhrase file spoken).state.worker =
      let w := s.worker.submitAll ((s.submissions spoken).map (·.steps))
      if s.asksReload spoken then w.drain else w := by
  obtain ⟨s', hsubmits, hstate⟩ := s.submits_handlePhrase file spoken
  rw [hstate, ← hsubmits.worker_eq]
  dsimp only
  split
  · rw [state_reload, worker_load]
    rfl
  · rfl

/-! ## Phrases with the same words -/

/-- A reaction without the phrases that its events quote. -/
def withoutPhrases {α : Type} (r : Reaction Session α) : Reaction Session α :=
  { r with events := r.events.map Event.withoutPhrase }

/-- Nothing but the quoted text tells two phrases with the same words apart. -/
theorem withoutPhrases_handlePhrase (s : Session) (file : FileContent) {spoken spoken' : String}
    (h : lowerWords spoken = lowerWords spoken') :
    withoutPhrases (s.handlePhrase file spoken) = withoutPhrases (s.handlePhrase file spoken') := by
  rw [handlePhrase_eq, handlePhrase_eq, s.heard_congr h, h]
  cases s.heard spoken' with
  | some command => rfl
  | none =>
    dsimp only
    by_cases hmuted : (s.isMuted && lowerWords spoken' != wakeWords) = true
    · rw [if_pos hmuted, if_pos hmuted]
    · rw [if_neg hmuted, if_neg hmuted]
      rfl

/-- **Two phrases with the same words in lowercase** are handled alike: with the same answer, the same
    session afterwards, the same notices, the same events up to the phrase quoted in them, and the same
    submissions in the same order, which are all that the worker is handed. -/
theorem handlePhrase_congr (s : Session) (file : FileContent) {spoken spoken' : String}
    (h : lowerWords spoken = lowerWords spoken') :
    let r := s.handlePhrase file spoken
    let r' := s.handlePhrase file spoken'
    r.result = r'.result ∧ r.state = r'.state ∧ r.notices = r'.notices ∧
      r.events.map Event.withoutPhrase = r'.events.map Event.withoutPhrase ∧
      s.submissions spoken = s.submissions spoken' ∧
      r.state.worker =
        let w := s.worker.submitAll ((s.submissions spoken).map (·.steps))
        if s.asksReload spoken then w.drain else w := by
  have hsame := s.withoutPhrases_handlePhrase file h
  have hsubmissions : s.submissions spoken = s.submissions spoken' := by
    rw [submissions, submissions, s.heard_congr h, h]
  refine ⟨?_, ?_, ?_, ?_, hsubmissions, s.worker_handlePhrase file spoken⟩
  · exact congrArg (·.result) hsame
  · exact congrArg (·.state) hsame
  · exact congrArg (·.notices) hsame
  · exact congrArg (·.events) hsame

/-- A session with one command, in Greek. -/
def greekSession : Session :=
  { start ⟨⟨0, 0⟩, ⟨1920, 1080⟩⟩ with
    engine := (Engine.empty.load ⟨[], [⟨some "way", "ΟΔΟΣ", some "Enter", none⟩], []⟩).state }

/-- A capital sigma at the end of a word is heard as the small one that ends words, and typographic blanks
    around the word are not heard. -/
theorem handlePhrase_congr_sigma :
    lowerWords "\u2003Οδος\u00a0" = lowerWords "ΟΔΟΣ" ∧
      (greekSession.handlePhrase none "\u2003Οδος\u00a0").result = .recognized "way" := by
  have hwords : lowerWords "\u2003Οδος\u00a0" = lowerWords "ΟΔΟΣ" := by
    decide +kernel
  have hheard : (greekSession.handlePhrase none "ΟΔΟΣ").result = .recognized "way" := by
    decide +kernel
  exact ⟨hwords, (handlePhrase_congr greekSession none hwords).1.trans hheard⟩

end Session

end SpokenCommand
