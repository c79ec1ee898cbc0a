import Mathlib.Data.List.Induction
import SpokenCommand.Proofs.Grammar.Writable
import SpokenCommand.Proofs.Text.Lowercase
/-!
Contexts that are defined from sources.

A context starts with the two built-in templates, and every definition after that compiles its source under
what is there already.  Some definitions fail, some take a name that was taken, and each leads to the context
that the next one finds.

1. **One definition** (`definesOne`) either fails, and the context stays, or files what its source is
   read as under the lowercase form of its name, and no other entry changes.

2. **The induction** (`forall_entries_ofSources`).  A template was read when it was filed, in a context that
   was itself defined from sources.  So what holds of the built-in templates, and of whatever is read where it
   holds of all templates, holds of every template of every such context.

3. **Validity.**  Whatever can be written is valid at every depth (`Node.isValid_of_isWritable`), because the
   notation has no empty words, no ranges that cannot be met and no alternatives without nodes.
-/

namespace SpokenCommand.Grammar

/-! ## Valid sequences -/

/-- A sequence with a node, and of valid nodes only. -/
structure Sequence.IsWellFormed (sequence : Sequence) : Prop where
  ne_nil : sequence ≠ []
  allValid : Node.allValid sequence = true

theorem Mark.isValid_range (max : Nat) (hmax : 1 ≤ max) (mark : Option Mark) :
    (Mark.range max mark).isValid = true := by
  match mark with
  | none => rfl
  | some .plus => simp [Mark.range, Repeat.isValid, hmax]
  | some .star => simp [Mark.range, Repeat.isValid, hmax]

theorem IsWord.isEmpty_eq_false {text : String} (h : IsWord text) : text.isEmpty = false := by
  rw [String.isEmpty_eq_false_iff]
  rintro rfl
  exact h.1 rfl

mutual

/-- **What can be written is valid**, at every depth. -/
theorem Node.isValid_of_isWritable (node : Node) (h : node.IsWritable) : node.isValid = true := by
  match node with
  | .literal text r =>
    obtain ⟨hword, mark, rfl⟩ := h
    rw [Node.isValid, hword.isEmpty_eq_false, Mark.isValid_range _ (by omega)]
    rfl
  | .choice alternatives r =>
    obtain ⟨hmin, hmax, hne, halternatives⟩ := h
    have hr : r.isValid = true := by
      rw [Repeat.isValid, Bool.and_eq_true, decide_eq_true_iff, decide_eq_true_iff]
      exact ⟨Nat.le_trans hmin hmax, hmax⟩
    have hsome : alternatives.isEmpty = false := List.isEmpty_eq_false_iff.mpr hne
    rw [Node.isValid, hr, hsome, areValid_of_anyWritable alternatives halternatives]
    rfl
  | .dictation => rfl
  | .wildcard => rfl

theorem areValid_of_anyWritable (alternatives : List (List Node)) (h : AnyWritable alternatives) :
    Node.areValid alternatives = true := by
  match alternatives with
  | [] => rfl
  | sequence :: rest =>
    obtain ⟨hne, hsequence, hrest⟩ := h
    have hsome : sequence.isEmpty = false := List.isEmpty_eq_false_iff.mpr hne
    rw [Node.areValid, hsome, allValid_of_allWritable sequence hsequence,
      areValid_of_anyWritable rest hrest]
    rfl

theorem allValid_of_allWritable (nodes : List Node) (h : AllWritable nodes) :
    Node.allValid nodes = true := by
  match nodes with
  | [] => rfl
  | node :: rest =>
    rw [Node.allValid, node.isValid_of_isWritable h.1, allValid_of_allWritable rest h.2]
    rfl

end

namespace Templates

variable {templates : Templates}

/-! ## One definition -/

/-- A template that is found is an entry. -/
theorem mem_of_lookup {name : String} {template : Sequence} (h : templates.lookup name = some template) :
    (Text.lowercase name, template) ∈ templates.entries := by
  obtain ⟨before, after, heq, -⟩ := List.lookup_eq_some_iff.mp h
  rw [heq]
  exact List.mem_append_right before List.mem_cons_self

theorem mem_of_mem_put {key : String} {template : Sequence} {entry : String × Sequence}
    {entries : List (String × Sequence)} (h : entry ∈ Ordered.put key template entries) :
    entry = (key, template) ∨ entry ∈ entries := by
  induction entries with
  | nil => exact Or.inl (List.mem_singleton.mp h)
  | cons other rest ih =>
    rw [Ordered.put] at h
    split at h
    · exact (List.mem_cons.mp h).imp_right (List.mem_cons_of_mem other)
    · rcases List.mem_cons.mp h with rfl | hrest
      · exact Or.inr List.mem_cons_self
      · exact (ih hrest).imp_right (List.mem_cons_of_mem other)

/-- What is found under a key after a template was filed. -/
theorem lookup_entries_put (key : String) (template : Sequence) (entries : List (String × Sequence))
    (other : String) : (Ordered.put key template entries).lookup other =
      if other = key then some template else entries.lookup other := by
  split
  · rename_i hkey
    rw [hkey]
    exact Ordered.lookup_put_self key template entries
  · rename_i hkey
    exact Ordered.lookup_put_of_ne hkey template entries

/-- What one definition does: it fails and changes nothing, or it files what its source is read as under the
    lowercase form of its name, and changes no other entry. -/
inductive DefinesOne (templates : Templates) (name source : String) : Prop
  | failed (e : Error) (hdefine : templates.defineSource name source = .error e)
      (hsame : templates.afterSource name source = templates)
  | filed (notices : List Notice) (template : Sequence)
      (hdefine : templates.defineSource name source =
        .ok (templates.afterSource name source, notices))
      (hparse : parse templates source = .ok template)
      (hlookup : ∀ key, (templates.afterSource name source).entries.lookup key =
        if key = Text.lowercase name then some template else templates.entries.lookup key)

/-- **One definition** fails or files one template, in any context. -/
theorem definesOne (templates : Templates) (name source : String) : templates.DefinesOne name source := by
  cases hdefine : templates.defineSource name source with
  | error e =>
    have hsame : templates.afterSource name source = templates := by
      rw [afterSource, hdefine]
    exact .failed e hdefine hsame
  | ok r =>
    obtain ⟨defined, notices⟩ := r
    have hafter : templates.afterSource name source = defined := by
      rw [afterSource, hdefine]
    obtain ⟨template, hparse, -, hput⟩ := eq_put_of_defineSource hdefine
    refine .filed notices template (hafter ▸ hdefine) hparse fun key => ?_
    rw [hafter, hput]
    exact lookup_entries_put _ template templates.entries key

/-! ## Any number of definitions -/

/-- **The induction**: what holds of the built-in templates and of everything that is read where it holds of
    all templates, holds of all templates. -/
theorem forall_entries_ofSources {P : Sequence → Prop} (hdictation : P [.dictation])
    (hwildcard : P [.wildcard])
    (hparse : ∀ sources source template,
      (∀ name stored, (ofSources sources).lookup name = some stored → P stored) →
        parse (ofSources sources) source = .ok template → P template)
    (sources : List (String × String)) : ∀ entry ∈ (ofSources sources).entries, P entry.2 := by
  induction sources using List.reverseRecOn with
  | nil => exact List.forall_mem_cons.mpr ⟨hdictation, List.forall_mem_singleton.mpr hwildcard⟩
  | append_singleton sources last ih =>
    rw [ofSources, List.foldl_append, ← ofSources, List.foldl_cons, List.foldl_nil, afterSource]
    split
    · rename_i defined notices hdefine
      obtain ⟨template, hread, -, rfl⟩ := eq_put_of_defineSource hdefine
      intro entry hentry
      rcases mem_of_mem_put hentry with rfl | hold
      · exact hparse sources last.2 template (fun name stored hname => ih _ (mem_of_lookup hname)) hread
      · exact ih entry hold
    · exact ih

/-- What is read in a context that was defined from sources is well-formed. -/
theorem isWellFormed_of_parse {sources : List (String × String)} {source : String} {sequence : Sequence}
    (h : parse (ofSources sources) source = .ok sequence) : sequence.IsWellFormed := by
  obtain ⟨hne, hwritable⟩ := writable_of_parse (areWritable_ofSources sources) h
  exact ⟨hne, allValid_of_allWritable sequence hwritable⟩

/-- The built-in templates are what they always were, whatever the letter case of their names, and every
    template that is stored is well-formed. -/
structure IsWellFormed (templates : Templates) : Prop where
  dictation_eq : ∀ name, Text.lowercase name = dictateName → templates.lookup name = some [.dictation]
  wildcard_eq : ∀ name, Text.lowercase name = wildcardName → templates.lookup name = some [.wildcard]
  stored : ∀ entry ∈ templates.entries, Sequence.IsWellFormed entry.2

/-- **Every context** that is defined from sources is well-formed. -/
theorem isWellFormed_ofSources (sources : List (String × String)) : (ofSources sources).IsWellFormed where
  dictation_eq := by
    intro name hname
    have hbuiltin := (areWritable_ofSources sources).dictation_eq
    rwa [lookup, ← hname, Text.lowercase_lowercase] at hbuiltin
  wildcard_eq := by
    intro name hname
    have hbuiltin := (areWritable_ofSources sources).wildcard_eq
    rwa [lookup, ← hname, Text.lowercase_lowercase] at hbuiltin
  stored := forall_entries_ofSources ⟨List.cons_ne_nil _ _, rfl⟩ ⟨List.cons_ne_nil _ _, rfl⟩
    (fun _ _ _ _ hread => isWellFormed_of_parse hread) sources

end Templates

end SpokenCommand.Grammar
