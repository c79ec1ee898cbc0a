import SpokenCommand.Proofs.Grammar.Parsing
import SpokenCommand.Proofs.Grammar.Splitting
/-!
Which grammars can be written in the notation.

The notation has words for literals, and no bounds of its own for ranges.  A node is WRITABLE if its
words are words of source and its range is one that a mark or a pair of brackets has, the upper end of a
choice apart.

1. **What is accepted can be written** (`writable_of_parse`).  This is an induction on the elements of a
   derivation, whose words come from source.  Only a reference takes nodes from elsewhere, so that the
   templates have to be writable too.

2. **Templates from source.**  They are, by induction on how they were defined
   (`Templates.areWritable_ofSources`): the built-in ones stay as they are because their names are
   reserved, and any other was read.
-/

namespace SpokenCommand.Grammar

/-! ## Writable grammars -/

mutual

/-- A node that can be written, up to the upper ends of its ranges. -/
def Node.IsWritable : Node → Prop
  | .literal text r => IsWord text ∧ ∃ mark, r = Mark.range 4294967295 mark
  | .choice alternatives r =>
    r.min ≤ 1 ∧ 1 ≤ r.max ∧ alternatives ≠ [] ∧ AnyWritable alternatives
  | .dictation => True
  | .wildcard => True

/-- Alternatives that can be written, each with a node. -/
def AnyWritable : List (List Node) → Prop
  | [] => True
  | sequence :: rest => sequence ≠ [] ∧ AllWritable sequence ∧ AnyWritable rest

/-- Nodes that can be written. -/
def AllWritable : List Node → Prop
  | [] => True
  | node :: rest => node.IsWritable ∧ AllWritable rest

end

theorem allWritable_append {nodes nodes' : List Node} (h : AllWritable nodes)
    (h' : AllWritable nodes') : AllWritable (nodes ++ nodes') := by
  induction nodes with
  | nil => exact h'
  | cons node rest ih => exact ⟨h.1, ih h.2⟩

/-- A context whose templates can be written, the built-in ones among them. -/
structure Templates.AreWritable (templates : Templates) : Prop where
  dictation_eq : templates.lookup Templates.dictateName = some [.dictation]
  wildcard_eq : templates.lookup Templates.wildcardName = some [.wildcard]
  writable : ∀ name template, templates.lookup name = some template →
    template ≠ [] ∧ AllWritable template

variable {templates : Templates}

theorem Mark.range_bounds (max : Nat) (hmax : 1 ≤ max) (mark : Option Mark) :
    (Mark.range max mark).min ≤ 1 ∧ 1 ≤ (Mark.range max mark).max := by
  match mark with
  | none => exact ⟨Nat.le_refl 1, Nat.le_refl 1⟩
  | some .plus => exact ⟨Nat.le_refl 1, hmax⟩
  | some .star => exact ⟨Nat.zero_le 1, hmax⟩

theorem Enclosure.range_bounds (e : Enclosure) : e.range.min ≤ 1 ∧ 1 ≤ e.range.max := by
  match e with
  | round mark => exact Mark.range_bounds 1000 (by omega) mark
  | square => exact ⟨Nat.zero_le 1, Nat.le_refl 1⟩

/-- A writable template in a range can be written. -/
theorem allWritable_ranged {template ns : Sequence} {mark : Option Mark} (hne : template ≠ [])
    (h : AllWritable template) (hns : ranged? (Mark.range 4294967295 mark) template = some ns) :
    AllWritable ns := by
  have hbounds := Mark.range_bounds 4294967295 (by omega) mark
  rw [ranged?_eq] at hns
  split at hns
  · obtain rfl := Option.some.inj hns
    unfold repeatTemplate
    split
    · exact ⟨⟨h.1.1, mark, rfl⟩, trivial⟩
    · exact ⟨⟨hbounds.1, hbounds.2, h.1.2.2⟩, trivial⟩
    · exact ⟨⟨hbounds.1, hbounds.2, List.cons_ne_nil _ _, hne, h, trivial⟩, trivial⟩
  · cases hns

mutual

/-- What an element of words stands for can be written. -/
theorem Element.allWritable (ht : templates.AreWritable) (e : Element) {ns : Sequence}
    (hns : e.nodes? templates = some ns) (hwhole : e.IsWhole (HasNode templates))
    (hwords : ∀ text, .word text ∈ e.tokens → IsWord text) : AllWritable ns := by
  match e with
  | .word text mark =>
    obtain rfl := Option.some.inj hns
    exact ⟨⟨hwords text List.mem_cons_self, mark, rfl⟩, trivial⟩
  | .enclosed e first others =>
    obtain ⟨ms, os, hms, hos, rfl⟩ := nodes?_enclosed_iff.mp hns
    obtain ⟨hnode, hall, hothers⟩ := hwhole
    have hfirst : AllWritable ms := allWritable_all ht first hms hall fun text htext =>
      hwords text (List.mem_cons_of_mem _ (List.mem_append_left _ htext))
    have hrest : AnyWritable os := anyWritable_others ht others hos hothers fun text htext =>
      hwords text (List.mem_cons_of_mem _ (List.mem_append_right _ (List.mem_append_left _ htext)))
    obtain ⟨hmin, hmax⟩ := e.range_bounds
    exact ⟨⟨hmin, hmax, List.cons_ne_nil _ _, hnode.ne_nil hms, hfirst, hrest⟩, trivial⟩
  | .reference name none => exact (ht.writable name ns hns).2
  | .reference name (some mark) =>
    rw [Element.nodes?, Option.bind_eq_some_iff] at hns
    obtain ⟨template, hlookup, hranged⟩ := hns
    -- These nodes do not come from the words here but from a template, which was read before.
    obtain ⟨hne, hwritable⟩ := ht.writable name template hlookup
    exact allWritable_ranged hne hwritable hranged

theorem allWritable_all (ht : templates.AreWritable) (elements : List Element) {ns : Sequence}
    (hns : nodesAll? templates elements = some ns) (hwhole : AllWhole (HasNode templates) elements)
    (hwords : ∀ text, .word text ∈ tokensAll elements → IsWord text) : AllWritable ns := by
  match elements with
  | [] =>
    obtain rfl := Option.some.inj hns
    exact trivial
  | e :: rest =>
    obtain ⟨ms, ls, hms, hls, rfl⟩ := nodesAll?_cons_iff.mp hns
    refine allWritable_append ?_ ?_
    · exact e.allWritable ht hms hwhole.1 fun text htext => hwords text (List.mem_append_left _ htext)
    · exact allWritable_all ht rest hls hwhole.2 fun text htext =>
        hwords text (List.mem_append_right _ htext)

theorem anyWritable_others (ht : templates.AreWritable) (others : List (List Element))
    {os : List Sequence} (hos : nodesOthers? templates others = some os)
    (hwhole : OthersWhole (HasNode templates) others)
    (hwords : ∀ text, .word text ∈ tokensOthers others → IsWord text) : AnyWritable os := by
  match others with
  | [] =>
    obtain rfl := Option.some.inj hos
    exact trivial
  | elements :: rest =>
    obtain ⟨ms, ls, hms, hls, rfl⟩ := nodesOthers?_cons_iff.mp hos
    obtain ⟨hnode, hall, hothers⟩ := hwhole
    refine ⟨hnode.ne_nil hms, ?_, ?_⟩
    · exact allWritable_all ht elements hms hall fun text htext =>
        hwords text (List.mem_cons_of_mem _ (List.mem_append_left _ htext))
    · exact anyWritable_others ht rest hls hothers fun text htext =>
        hwords text (List.mem_cons_of_mem _ (List.mem_append_right _ htext))

end

/-- **What is accepted can be written.** -/
theorem writable_of_parse (ht : templates.AreWritable) {source : String} {g : Sequence}
    (h : parse templates source = .ok g) : g ≠ [] ∧ AllWritable g := by
  obtain ⟨tokens, htokens, ⟨d⟩⟩ := parse_eq_ok_iff.mp h
  refine ⟨d.isSequence_elements.ne_nil d.nodes_eq, ?_⟩
  refine allWritable_all ht d.elements d.nodes_eq d.allWhole fun text htext => ?_
  rw [d.tokens_eq] at htext
  exact isWord_of_mem_tokens htokens htext

/-! ## Templates that were defined from source -/

namespace Templates

/-- The context after a name was defined by a source, which changes nothing if it fails. -/
def afterSource (templates : Templates) (name source : String) : Templates :=
  match templates.defineSource name source with
  | .ok (defined, _) => defined
  | .error _ => templates

/-- The context after names were defined by sources, one after another, beside the built-in ones. -/
def ofSources (sources : List (String × String)) : Templates :=
  sources.foldl (fun templates entry => templates.afterSource entry.1 entry.2) builtin

/-- A template that is filed is found under its name, and all others as before. -/
theorem lookup_put (key : String) (template : Sequence) (entries : List (String × Sequence))
    (name : String) : (Templates.mk (Ordered.put key template entries)).lookup name =
      if Text.lowercase name = key then some template else (Templates.mk entries).lookup name := by
  rw [lookup]
  split
  · rename_i hkey
    rw [hkey]
    exact Ordered.lookup_put_self _ _ _
  · rename_i hkey
    exact Ordered.lookup_put_of_ne hkey _ _

/-- A definition from source files what was read under a name that is not reserved. -/
theorem eq_put_of_defineSource {name source : String} {defined : Templates} {notices : List Notice}
    (h : templates.defineSource name source = .ok (defined, notices)) :
    ∃ template, parse templates source = .ok template ∧ isReserved (Text.lowercase name) = false ∧
      defined = ⟨Ordered.put (Text.lowercase name) template templates.entries⟩ := by
  unfold defineSource at h
  split at h
  · cases h
  · split at h
    · cases h
    · rename_i template hparse
      unfold define at h
      dsimp only at h
      split at h
      · cases h
      · rename_i hreserved
        cases h
        exact ⟨template, hparse, by simpa using hreserved, rfl⟩

/-- A source that can be read is filed under a name that is not reserved. -/
theorem afterSource_of_parse {name source : String} {template : Sequence}
    (hname : isReserved name = false) (hkey : isReserved (Text.lowercase name) = false)
    (hparse : parse templates source = .ok template) :
    templates.afterSource name source =
      ⟨Ordered.put (Text.lowercase name) template templates.entries⟩ := by
  rw [afterSource, defineSource, hname, hparse]
  dsimp only
  rw [define, hkey]
  rfl

theorem isReserved_dictateName : isReserved (Text.lowercase dictateName) = true := rfl

theorem isReserved_wildcardName : isReserved (Text.lowercase wildcardName) = true := rfl

theorem areWritable_builtin : builtin.AreWritable where
  dictation_eq := rfl
  wildcard_eq := rfl
  writable := by
    intro name template hlookup
    simp only [lookup, builtin, List.lookup_cons, List.lookup_nil] at hlookup
    split at hlookup
    · obtain rfl := Option.some.inj hlookup
      exact ⟨List.cons_ne_nil _ _, trivial, trivial⟩
    · split at hlookup
      · obtain rfl := Option.some.inj hlookup
        exact ⟨List.cons_ne_nil _ _, trivial, trivial⟩
      · cases hlookup

/-- **A definition keeps templates writable**: it leaves the built-in ones alone, and what it files can
    be written because it was read. -/
theorem AreWritable.afterSource (h : templates.AreWritable) (name source : String) :
    (templates.afterSource name source).AreWritable := by
  unfold Templates.afterSource
  split
  · rename_i defined notices hdefine
    obtain ⟨template, hparse, hreserved, rfl⟩ := eq_put_of_defineSource hdefine
    have hdictate : Text.lowercase dictateName ≠ Text.lowercase name := by
      intro hname
      rw [← hname, isReserved_dictateName] at hreserved
      cases hreserved
    have hwildcard : Text.lowercase wildcardName ≠ Text.lowercase name := by
      intro hname
      rw [← hname, isReserved_wildcardName] at hreserved
      cases hreserved
    constructor
    case dictation_eq =>
      rw [lookup_put, if_neg hdictate]
      exact h.dictation_eq
    case wildcard_eq =>
      rw [lookup_put, if_neg hwildcard]
      exact h.wildcard_eq
    case writable =>
      intro other found hlookup
      rw [lookup_put] at hlookup
      split at hlookup
      · obtain rfl := Option.some.inj hlookup
        exact writable_of_parse h hparse
      · exact h.writable other found hlookup
  · exact h

theorem areWritable_ofSources (sources : List (String × String)) : (ofSources sources).AreWritable := by
  rw [ofSources]
  have hstart := areWritable_builtin
  generalize builtin = start at hstart
  induction sources generalizing start with
  | nil => exact hstart
  | cons entry rest ih => exact ih _ (hstart.afterSource entry.1 entry.2)

end Templates

end SpokenCommand.Grammar
