import SpokenCommand.Proofs.Activation.Rooted
import SpokenCommand.Proofs.Grammar.Parsing
import SpokenCommand.Proofs.Session.Driving
import SpokenCommand.Proofs.Text.Sayable
/-!
The phrase that wakes a muted session.

A muted session lets one phrase pass, and takes it like any other from there on.  Whether it wakes is therefore
up to the commands that are live, and these depend on where the session was when it was muted.

1. **Listening** (`isMuted_handlePhrase`).  One function mutes and wakes, by the third word of the phrase.
   Nothing else that a phrase can lead to, a reload included, has an influence on it.  So the phrase wakes
   exactly if the command that it is recognized as has this function.

2. **The crux (`rooted_turn`)** is that the root stays live, or comes back, in whatever a session is told.  The
   invariant is that of the engine; what is new is that no phrase puts an overlay on the root, which has an
   empty name where the words of a phrase are not empty.

3. **Waking** (`wakes_iff`).  Where the first command of the root is the one for waking, the phrase wakes a
   session whenever the root is live, and it is whenever there is no overlay.  An overlay takes it away, and a
   session that is muted under one may be deaf for good (`not_wakes_in_quiet`).
-/

namespace SpokenCommand

open Modes Playback

namespace Session

variable {s : Session} {file : FileContent} {d : ModeDefinition} {spoken : String}

/-! ## Listening -/

/-- Whether a request mutes or wakes, if it does either. -/
def Request.mutes : Request → Option Bool
  | .setMuted isMuted => some isMuted
  | _ => none

/-- One function alone mutes or wakes. -/
theorem mutes_of_isAskedBy {function : Builtin} {request : Request} (h : request.IsAskedBy function)
    (hfunction : function ≠ .voiceCodeMute) : request.mutes = none := by
  cases request with
  | setMuted isMuted => exact absurd h hfunction
  | _ => rfl

theorem isMuted_perform (s : Session) (request : Request) :
    (s.perform request).state.isMuted = request.mutes.getD s.isMuted := by
  cases request with
  | setMuted isMuted => rfl
  | changeMode name => rfl
  | exitMode => rfl
  | switchSibling name => rfl
  | enterExclusive name =>
    rw [perform]
    split <;> rfl
  | exitExclusive =>
    rw [perform]
    split <;> rfl
  | reload => rfl
  | repeatLast times =>
    obtain ⟨worker, heq⟩ := s.exists_repeatTimes_eq times
    show (s.repeatTimes times).1.isMuted = s.isMuted
    rw [heq]
  | play steps => rfl
  | playAndRemember steps => rfl
  | reportCursor => rfl

theorem isMuted_runFunctionOf (s : Session) (command : Command) (words : List String) :
    (s.runFunctionOf command words).state.isMuted =
      if command.function = some .voiceCodeMute then (words[2]?.map (· != "start")).getD s.isMuted
      else s.isMuted := by
  cases hfunction : command.function with
  | none =>
    rw [runFunctionOf, hfunction]
    rfl
  | some function =>
    rw [(runFunctionOf_of_some s words hfunction).1, runFunction]
    by_cases hmute : function = .voiceCodeMute
    · subst hmute
      rw [if_pos rfl, interpret, wordAt]
      cases words[2]? with
      | none => rfl
      | some word => rfl
    · rw [if_neg fun heq => hmute (Option.some.inj heq)]
      cases hinterpret : interpret s.worker.shown.size words function with
      | error e => rfl
      | ok i =>
        have hmutes := mutes_of_isAskedBy (asks_interpret _ words function i hinterpret) hmute
        show (s.perform i.request).state.isMuted = s.isMuted
        rw [isMuted_perform, hmutes, Option.getD_none]

theorem isMuted_reload (s : Session) (file : FileContent) :
    (s.reload file).state.isMuted = s.isMuted := by
  rw [state_reload]
  rcases compiles_or_fails file with ⟨tree, w, h⟩ | ⟨err, notices, h⟩
  · rw [h.load_eq]
    rfl
  · rw [h.load_eq]
    rfl

/-- **Listening** after a phrase is as before, unless the command that was heard mutes or wakes. -/
theorem isMuted_handlePhrase (s : Session) (file : FileContent) (spoken : String) :
    (s.handlePhrase file spoken).state.isMuted =
      if (s.heard spoken).bind Command.function = some .voiceCodeMute then
        ((lowerWords spoken)[2]?.map (· != "start")).getD s.isMuted
      else s.isMuted := by
  rw [handlePhrase_eq]
  cases s.heard spoken with
  | none =>
    dsimp only
    split <;> rfl
  | some command =>
    obtain ⟨worker, lastSteps, hactions⟩ := s.exists_runActions_eq command
    have hfunction := (s.runActions command).state.isMuted_runFunctionOf command (lowerWords spoken)
    rw [hactions] at hfunction
    rw [Option.bind_some, ← hfunction]
    simp only [carryOut, Reaction.andThen, hactions]
    split
    · exact isMuted_reload _ file
    · rfl

/-- A muted session wakes exactly if the command that the phrase is recognized as mutes and wakes. -/
theorem isMuted_wake_iff (hmuted : s.isMuted = true) (hwords : lowerWords spoken = wakeWords)
    (file : FileContent) : (s.handlePhrase file spoken).state.isMuted = false ↔
      (s.engine.recognize spoken).bind Command.function = some .voiceCodeMute := by
  have hheard : s.heard spoken = s.engine.recognize spoken := by
    rw [heard, hwords, bne_self_eq_false, Bool.and_false]
    rfl
  rw [isMuted_handlePhrase, hheard, hwords, hmuted]
  split
  · rename_i hfunction
    exact iff_of_true rfl hfunction
  · rename_i hfunction
    exact iff_of_false Bool.noConfusion hfunction

/-- A muted session that does not recognize the phrase to wake it hears nothing at all. -/
theorem heard_eq_none_of_deaf (hmuted : s.isMuted = true) (hwords : lowerWords spoken = wakeWords)
    (hdeaf : s.engine.recognize spoken = none) (phrase : String) : s.heard phrase = none := by
  rw [heard, hmuted, Bool.true_and]
  split
  · rfl
  · rename_i hwake
    have hsame : lowerWords phrase = wakeWords := by simpa using hwake
    rw [recognize_congr s.engine (hsame.trans hwords.symm), hdeaf]

theorem state_handlePhrase_of_not_heard (h : s.heard spoken = none) (file : FileContent) :
    (s.handlePhrase file spoken).state = s := by
  rw [handlePhrase_eq, h]
  dsimp only
  split <;> rfl

/-- **Deaf for good**: no phrases change such a session any more. -/
theorem run_of_deaf (hmuted : s.isMuted = true) (hwords : lowerWords spoken = wakeWords)
    (hdeaf : s.engine.recognize spoken = none) (file : FileContent) (phrases : List String) :
    s.run (phrases.map (.say file)) = s := by
  induction phrases with
  | nil => rfl
  | cons phrase rest ih =>
    have hunheard := heard_eq_none_of_deaf hmuted hwords hdeaf phrase
    show (s.handlePhrase file phrase).state.run (rest.map (.say file)) = s
    rw [state_handlePhrase_of_not_heard hunheard, ih]

/-! ## Turns on one file -/

/-- Whatever a turn reads is a certain file. -/
def Turn.IsOn (file : FileContent) : Turn → Prop
  | .say file' _ => file' = file
  | .load file' => file' = file
  | .reload file' => file' = file
  | .play => True

/-- A word of a phrase is not empty, in lowercase either. -/
theorem lowercase_ne_empty_of_mem_lowerWords {word : String} (h : word ∈ lowerWords spoken) :
    Text.lowercase word ≠ "" := by
  obtain ⟨said, hsaid, rfl⟩ := List.mem_map.mp h
  intro hempty
  have hsayable : Text.isSayable (Text.lowercase (Text.lowercase said)) = true := by
    rw [Text.isSayable_lowercase, Text.isSayable_lowercase]
    exact Text.isSayable_of_mem_words hsaid
  rw [hempty] at hsayable
  exact absurd hsayable Bool.noConfusion

/-- The name of the mode to put an overlay on is one of the words. -/
theorem mem_words_of_enterExclusive {screen : Size} {words : List String} {function : Builtin}
    {i : Interpretation} {name : String} (h : interpret screen words function = .ok i)
    (hrequest : i.request = .enterExclusive name) : name ∈ words := by
  have hasked := asks_interpret screen words function i h
  rw [hrequest] at hasked
  obtain rfl : function = .enterExclusiveMode := hasked
  rw [interpret, wordAt] at h
  cases hword : words[words.length - 1]? with
  | none =>
    rw [hword] at h
    cases h
  | some word =>
    rw [hword] at h
    obtain rfl := Except.ok.inj h
    obtain rfl := Request.enterExclusive.inj hrequest
    exact List.mem_of_getElem? hword

theorem spares_loadOperations (hread : readDefinitions file = .ok d) :
    ∀ op ∈ loadOperations file, op.SparesRoot d := by
  rw [loadOperations, hread]
  exact List.forall_mem_singleton.mpr rfl

/-- What a function asks of a rooted engine spares the root, if none of its words is empty. -/
theorem spares_functionOperations (h : s.engine.Rooted d) {words : List String}
    (hwords : ∀ word ∈ words, Text.lowercase word ≠ "") (screen : Size) (function : Option Builtin) :
    ∀ op ∈ functionOperations screen words s.engine function, op.SparesRoot d := by
  rw [functionOperations.eq_def]
  split
  · exact List.forall_mem_nil _
  · rename_i function
    split
    · exact List.forall_mem_nil _
    · rename_i i hinterpret
      cases hrequest : i.request with
      | changeMode name => exact List.forall_mem_singleton.mpr trivial
      | exitMode => exact List.forall_mem_singleton.mpr trivial
      | switchSibling name => exact List.forall_mem_cons.mpr ⟨trivial, List.forall_mem_singleton.mpr trivial⟩
      | enterExclusive name =>
        have hname := hwords name (mem_words_of_enterExclusive hinterpret hrequest)
        obtain ⟨w, hcompiled⟩ := h.compiled
        rw [Request.operations]
        cases hfind : s.engine.tree.find? name with
        | none => exact List.forall_mem_nil _
        | some target =>
          exact List.forall_mem_singleton.mpr (Tree.ne_root_of_find? hcompiled hname hfind)
      | exitExclusive =>
        rw [Request.operations, Engine.exclusiveTarget]
        cases hoverlay : s.engine.overlay with
        | none => exact List.forall_mem_nil _
        | some o => exact List.forall_mem_singleton.mpr (h.returns o hoverlay).1
      | setMuted | reload | repeatLast | play | playAndRemember | reportCursor =>
        exact List.forall_mem_nil _

/-- **What a turn asks** of a rooted engine spares the root. -/
theorem spares_turnOperations (hread : readDefinitions file = .ok d) (h : s.engine.Rooted d) {t : Turn}
    (ht : t.IsOn file) : ∀ op ∈ s.turnOperations t, op.SparesRoot d := by
  cases t with
  | say file' spoken =>
    obtain rfl := ht
    rw [turnOperations, phraseOperations]
    cases s.heard spoken with
    | none => exact List.forall_mem_nil _
    | some command =>
      refine List.forall_mem_append.mpr ⟨?_, ?_⟩
      · exact spares_functionOperations h (fun _ => lowercase_ne_empty_of_mem_lowerWords) _ _
      · split
        · exact spares_loadOperations hread
        · exact List.forall_mem_nil _
  | load file' =>
    obtain rfl := ht
    exact spares_loadOperations hread
  | reload file' =>
    obtain rfl := ht
    exact spares_loadOperations hread
  | play => exact List.forall_mem_nil _

/-- **The step**: a turn on the file in effect keeps the engine rooted. -/
theorem rooted_turn (hread : readDefinitions file = .ok d) (h : s.engine.Rooted d) {t : Turn}
    (ht : t.IsOn file) : (s.turn t).engine.Rooted d := by
  rw [engine_turn]
  exact h.run (spares_turnOperations hread h ht)

/-- **The run**: so do all turns on it. -/
theorem rooted_run (hread : readDefinitions file = .ok d) (h : s.engine.Rooted d) {turns : List Turn}
    (hturns : ∀ t ∈ turns, t.IsOn file) : (s.run turns).engine.Rooted d := by
  induction turns generalizing s with
  | nil => exact h
  | cons t rest ih =>
    obtain ⟨ht, hrest⟩ := List.forall_mem_cons.mp hturns
    exact ih (rooted_turn hread h ht) hrest

theorem rooted_load (hread : readDefinitions file = .ok d) (hload : (s.load file).result = .ok ()) :
    (s.load file).state.engine.Rooted d := by
  have hengine : (s.load file).state.engine = (s.engine.load d).state := by
    rw [engine_load, loadOperations, hread]
    rfl
  rw [hengine, Engine.load]
  rcases hcompile : Tree.compile .builtin d with ⟨err | tree, w⟩
  · rw [load, hread] at hload
    simp only [Engine.load, hcompile, Reaction.within] at hload
    cases hload
  · exact (Engine.shows_install hcompile).rooted_of_load

/-- A load of what the engine can load succeeds, and forgets the steps to repeat. -/
theorem load_of_engine_load (hread : readDefinitions file = .ok d)
    (hok : (s.engine.load d).result = .ok ()) :
    (s.load file).result = .ok () ∧
      (s.load file).state = { s with engine := (s.engine.load d).state, lastSteps := [] } := by
  rw [load, hread]
  dsimp only
  rw [hok]
  exact ⟨hok, rfl⟩

/-! ## Waking -/

/-- The first command of the root mode mutes and wakes, and does nothing else. -/
def StartsWithWaking (d : ModeDefinition) : Prop :=
  ∃ name rest, d.commands =
    ⟨name, "voice code (start | stop)", none, some "voice_code_mute"⟩ :: rest

/-- The grammar of that command, whatever the templates. -/
theorem parse_wakeGrammar (t : Grammar.Templates) :
    Grammar.parse t "voice code (start | stop)" =
      .ok [.literal "voice" .once, .literal "code" .once,
        .choice [[.literal "start" .once], [.literal "stop" .once]] .once] :=
  Grammar.parse_eq_ok_iff_parseTokens.mpr ⟨[.word "voice", .word "code", .opening .group, .word "start",
    .pipe, .word "stop", .closing .group], rfl, rfl⟩

/-- While the root is live, the phrase is recognized as that command. -/
theorem exists_recognize_wake {e : Engine} (h : e.Loaded d) (hlive : e.RootIsLive)
    (hfirst : StartsWithWaking d) (hwords : lowerWords spoken = wakeWords) :
    ∃ command, e.recognize spoken = some command ∧ command.function = some .voiceCodeMute := by
  obtain ⟨name, rest, hcommands⟩ := hfirst
  obtain ⟨t, c, hof, hrecognize⟩ := h.exists_recognize_first hlive hcommands
  have hsome : Text.words spoken ≠ [] := by
    intro hnil
    rw [lowerWords, hnil] at hwords
    cases hwords
  have haccepts : Grammar.accepts c.grammar (Text.words spoken) = true := by
    have hsame : (Text.words spoken).map Text.lowercase = wakeWords.map Text.lowercase := hwords
    rw [← Except.ok.inj ((parse_wakeGrammar t).symm.trans hof.grammar_eq),
      Grammar.accepts_congr _ hsame]
    decide
  exact ⟨c, hrecognize spoken hsome haccepts, hof.function_eq⟩

/-- **Waking.**  A file is loaded in any session, and the first command of its root mode is the one for
    waking.  Then in every state that turns on this file lead to and in which the session is muted:

    * the root is live unless there is an overlay, and while it is live the phrase, in any letter case and
      spacing, is recognized and wakes the session;
    * whatever is live, the phrase wakes the session exactly if the command that it is recognized as is one
      that mutes and wakes;
    * if it is not recognized at all, the session is deaf for good. -/
theorem wakes_iff (s : Session) (hread : readDefinitions file = .ok d) (hfirst : StartsWithWaking d)
    (hload : (s.load file).result = .ok ()) {turns : List Turn} (hturns : ∀ t ∈ turns, t.IsOn file)
    (hwords : lowerWords spoken = wakeWords)
    (hmuted : ((s.load file).state.run turns).isMuted = true) :
    let t := (s.load file).state.run turns
    let t' := t.handlePhrase file spoken
    (t.engine.overlay = none → t.engine.RootIsLive) ∧
      (t.engine.RootIsLive → (∃ name, t'.result = .recognized name) ∧ t'.state.isMuted = false) ∧
      (t'.state.isMuted = false ↔
        (t.engine.recognize spoken).bind Command.function = some .voiceCodeMute) ∧
      (t.engine.recognize spoken = none →
        ∀ phrases : List String, t.run (phrases.map (.say file)) = t) := by
  have hrooted := rooted_run hread (rooted_load hread hload) hturns
  refine ⟨hrooted.live, ?_, isMuted_wake_iff hmuted hwords file, ?_⟩
  · intro hlive
    obtain ⟨command, hcommand, hfunction⟩ :=
      exists_recognize_wake hrooted.toLoaded hlive hfirst hwords
    refine ⟨⟨command.name, ?_⟩, (isMuted_wake_iff hmuted hwords file).mpr ?_⟩
    · rw [handlePhrase_eq, heard, hwords, bne_self_eq_false, Bool.and_false, if_neg Bool.false_ne_true,
        hcommand]
    · rw [hcommand]
      exact hfunction
  · exact fun hdeaf phrases => run_of_deaf hmuted hwords hdeaf file phrases

/-- Definitions with a mode to be put on as an overlay, in which a session can be muted but not woken. -/
def quieting : ModeDefinition :=
  ⟨[], [⟨none, "voice code (start | stop)", none, some "voice_code_mute"⟩,
      ⟨none, "enter $dictate", none, some "enter_exclusive_mode"⟩],
    [("quiet", ⟨[], [⟨none, "voice code stop", none, some "voice_code_mute"⟩,
      ⟨none, "leave", none, some "exit_exclusive_mode"⟩], []⟩)]⟩

/-- The file that is written for them. -/
def quietFile : FileContent := some quieting.toText.toUTF8

/-- A session that has loaded them, on a screen without extent. -/
def quietSession : Session :=
  { start ⟨⟨0, 0⟩, ⟨0, 0⟩⟩ with
    engine := ((start ⟨⟨0, 0⟩, ⟨0, 0⟩⟩).engine.load quieting).state, lastSteps := [] }

theorem readDefinitions_quietFile : readDefinitions quietFile = .ok quieting :=
  readDefinitions_toText (by decide +kernel) (by decide +kernel)

theorem load_quietFile : ((start ⟨⟨0, 0⟩, ⟨0, 0⟩⟩).load quietFile).result = .ok () ∧
    ((start ⟨⟨0, 0⟩, ⟨0, 0⟩⟩).load quietFile).state = quietSession := by
  have hok : ((start ⟨⟨0, 0⟩, ⟨0, 0⟩⟩).engine.load quieting).result = .ok () := by
    decide +kernel
  exact load_of_engine_load readDefinitions_quietFile hok

/-- In, and out again, and muted. -/
def throughQuiet : List Turn :=
  [.say quietFile "enter quiet", .say quietFile "leave", .say quietFile "voice code stop"]

/-- After the overlay the phrase wakes. -/
theorem wakes_after_quiet :
    readDefinitions quietFile = .ok quieting ∧ StartsWithWaking quieting ∧
      ((start ⟨⟨0, 0⟩, ⟨0, 0⟩⟩).load quietFile).result = .ok () ∧
      (∀ t ∈ throughQuiet, t.IsOn quietFile) ∧ lowerWords " voice  CODE\tStart" = wakeWords ∧
      let t := ((start ⟨⟨0, 0⟩, ⟨0, 0⟩⟩).load quietFile).state.run throughQuiet
      t.isMuted = true ∧ t.engine.overlay = none ∧
        (t.handlePhrase quietFile " voice  CODE\tStart").state.isMuted = false := by
  obtain ⟨hload, hstate⟩ := load_quietFile
  have hfirst : StartsWithWaking quieting := ⟨none, _, rfl⟩
  have hturns : ∀ t ∈ throughQuiet, t.IsOn quietFile :=
    List.forall_mem_cons.mpr ⟨rfl, List.forall_mem_cons.mpr ⟨rfl, List.forall_mem_singleton.mpr rfl⟩⟩
  have hwords : lowerWords " voice  CODE\tStart" = wakeWords := by
    decide +kernel
  have hmuted : (quietSession.run throughQuiet).isMuted = true := by
    decide +kernel
  have hfree : (quietSession.run throughQuiet).engine.overlay = none := by
    decide +kernel
  rw [← hstate] at hmuted hfree
  obtain ⟨hlive, hwakes, -⟩ :=
    wakes_iff _ readDefinitions_quietFile hfirst hload hturns hwords hmuted
  exact ⟨readDefinitions_quietFile, hfirst, hload, hturns, hwords, hmuted, hfree, (hwakes (hlive hfree)).2⟩

/-- Under the overlay it does not. -/
theorem not_wakes_in_quiet :
    readDefinitions quietFile = .ok quieting ∧ StartsWithWaking quieting ∧
      ((start ⟨⟨0, 0⟩, ⟨0, 0⟩⟩).load quietFile).result = .ok () ∧
      lowerWords "voice code start" = wakeWords ∧
      let t := ((start ⟨⟨0, 0⟩, ⟨0, 0⟩⟩).load quietFile).state.run
        [.say quietFile "enter quiet", .say quietFile "voice code stop"]
      t.isMuted = true ∧
        ¬ (t.handlePhrase quietFile "voice code start").state.isMuted = false := by
  obtain ⟨hload, hstate⟩ := load_quietFile
  refine ⟨readDefinitions_quietFile, ⟨none, _, rfl⟩, hload, by decide +kernel, ?_⟩
  rw [hstate]
  exact ⟨by decide +kernel, by decide +kernel⟩

end Session

end SpokenCommand
