import Mathlib.Algebra.Group.Nat.Defs
import SpokenCommand.Proofs.Script.Holding
import SpokenCommand.Proofs.Script.Image
/-!
Scripts one behind the other, and repeats behind a script.

A script has no mark at its end, so what it asks for could depend on what comes after it.

1. **Going on.**  A script that is accepted leaves no item open: before anything that ends a name, what
   comes after it is read as if its steps had just been read (`scan_append`).  A space ends a name, and
   so does the opening brace of a repeat.

2. **Another script** adds nothing but steps, and of those before it only a repeat looks at one, the last.
   A script that is accepted on its own repeats steps of its own only, so that it adds the same steps
   behind another one.

3. **A repeat** looks at the last step before it, and refuses where there is none.  A script can be there
   and ask for nothing, with blanks and empty texts.  The crux is that nothing but the value of the digits
   counts, so that zeros in front do not matter (`digitsValue_zeros`).

4. **Too many steps.**  The number of times may be any of 64 bits, and a list does not hold that many
   steps.  Nothing refuses such a number: the program breaks down over it, as it does over two scripts
   that a list holds one by one but not together.
-/

namespace SpokenCommand.Script

variable {total : Nat} {steps : List Step} {rest : List Char}

/-! ## Going on -/

/-- **What comes after a script** is read as if the steps of the script had just been read. -/
theorem parse_append {script tail : String} (htail : EndsName tail.toList)
    (h : parse script = .ok steps) :
    parse (script ++ tail) = readItems (script ++ tail).toList.length steps tail.toList := by
  have hread : readItems script.toList.length [] script.toList = .ok steps := h
  have happend : readItems (script ++ tail).toList.length ([] ++ []) (script.toList ++ tail.toList) =
      readItems (script ++ tail).toList.length ([] ++ steps) tail.toList :=
    readItems_append [] htail hread
  rw [parse]
  rwa [List.nil_append, ← String.toList_append] at happend

theorem scan_append {script tail : String} (htail : EndsName tail.toList)
    (h : scan script = some (.ok steps)) :
    scan (script ++ tail) =
      if holdsItems (script ++ tail).toList.length steps tail.toList then
        some (readItems (script ++ tail).toList.length steps tail.toList)
      else none := by
  obtain ⟨hparse, hheld⟩ := scan_eq_some_ok_iff.mp h
  have hholds : holdsItems (script ++ tail).toList.length [] (script ++ tail).toList =
      holdsItems (script ++ tail).toList.length steps tail.toList := by
    generalize (script ++ tail).toList.length = total
    rw [String.toList_append, holdsItems_parse_append htail hparse, decide_eq_true hheld, Bool.true_and]
  rw [scan, hholds, parse_append htail hparse]

/-- **A script that is accepted** adds its steps to those before it. -/
theorem readItems_of_parse {script : String} {more : List Step} (before : List Step)
    (h : parse script = .ok more) : readItems total before script.toList = .ok (before ++ more) := by
  have happend : readItems total (before ++ []) (script.toList ++ []) =
      readItems total (before ++ more) [] := readItems_append before endsName_nil h
  rwa [List.append_nil, List.append_nil, readItems_nil] at happend

theorem holdsItems_of_parse {script : String} {before more : List Step}
    (hheld : before.length ≤ maxSteps) (h : parse script = .ok more) :
    holdsItems total before script.toList = decide (before.length + more.length ≤ maxSteps) := by
  have happend : holdsItems total (before ++ []) (script.toList ++ []) =
      (decide ((before ++ more).length ≤ maxSteps) && holdsItems total (before ++ more) []) :=
    holdsItems_append before endsName_nil (by rwa [List.append_nil]) h
  rwa [List.append_nil, List.append_nil, holdsItems_nil, Bool.and_true, List.length_append] at happend

/-- **Behind a script and a space**, another script adds its steps if a list holds them all. -/
theorem scan_behind {script other : String} {more : List Step} (h : scan script = some (.ok steps))
    (hother : scan other = some (.ok more)) :
    scan (script ++ " " ++ other) =
      if steps.length + more.length ≤ maxSteps then some (.ok (steps ++ more)) else none := by
  obtain ⟨-, hheld⟩ := scan_eq_some_ok_iff.mp h
  obtain ⟨hmore, -⟩ := scan_eq_some_ok_iff.mp hother
  have hspace : (" " ++ other).toList = ' ' :: other.toList := by rw [String.toList_append]; rfl
  have htail : EndsName (" " ++ other).toList := by
    rw [hspace]
    exact endsName_space
  have hblank {total : Nat} : readItem total steps ' ' other.toList = .ok (steps, other.toList) :=
    readItem_of_isBlank (by decide)
  rw [String.append_assoc, scan_append htail h, hspace, holdsItems_cons hblank, decide_eq_true hheld,
    Bool.true_and, holdsItems_of_parse hheld hmore, readItems_space, readItems_of_parse steps hmore]
  simp only [decide_eq_true_eq]

/-! ## Repeats -/

/-- The digits of a number with some zeros in front of them. -/
def paddedDigits (zeros n : Nat) : List Char := List.replicate zeros '0' ++ Nat.toDigits 10 n

/-- A repeat as a script writes it: the number of times in braces. -/
def repeatMark (zeros times : Nat) : String :=
  String.ofList ('\x7b' :: (paddedDigits zeros times ++ ['\x7d']))

theorem isDigit_of_mem_paddedDigits {zeros n : Nat} {c : Char} (h : c ∈ paddedDigits zeros n) :
    c.isDigit = true := by
  rcases List.mem_append.mp h with hzero | hdigit
  · rw [List.eq_of_mem_replicate hzero]
    rfl
  · exact isDigit_of_mem_toDigits hdigit

/-- Zeros in front of digits do not change their value. -/
theorem digitsValue_zeros (zeros : Nat) (digits : List Char) :
    Text.digitsValue (List.replicate zeros '0' ++ digits) = Text.digitsValue digits := by
  induction zeros with
  | zero => rfl
  | succ zeros ih => exact ih

theorem boundedNumber_paddedDigits {max n : Nat} (zeros : Nat) (h : n ≤ max) :
    boundedNumber max (paddedDigits zeros n) = .ok n := by
  rw [boundedNumber, paddedDigits, digitsValue_zeros, digitsValue_toDigits, if_pos h]

/-- **The number of times** is read up to its closing brace. -/
theorem readCount_paddedDigits {n : Nat} (zeros : Nat) (hmin : 1 ≤ n) (hmax : n ≤ Text.maxNat64) :
    readCount total (paddedDigits zeros n ++ '\x7d' :: rest) = .ok (n, rest) := by
  have hdigits : ∀ c ∈ paddedDigits zeros n, c.isDigit = true := fun _ => isDigit_of_mem_paddedDigits
  rw [readCount, takeWhile_isDigit hdigits rfl, dropWhile_isDigit hdigits rfl]
  split
  · rename_i hnil
    exact absurd (List.append_eq_nil_iff.mp hnil).2 Nat.toDigits_ne_nil
  · rw [boundedNumber_paddedDigits zeros hmax]
    show (if n = 0 then _ else _) = _
    rw [if_neg (by omega)]
    rfl

theorem endsName_repeatMark (zeros times : Nat) : EndsName (repeatMark zeros times).toList := by
  intro c hc
  rw [repeatMark, String.toList_ofList] at hc
  obtain rfl : '\x7b' = c := Option.some.inj hc
  decide

/-- A repeat adds copies of the last step before it. -/
theorem readItem_repeatMark {last : Step} {n : Nat} (zeros : Nat) (hlast : steps.getLast? = some last)
    (hmin : 1 ≤ n) (hmax : n ≤ Text.maxNat64) :
    readItem total steps '\x7b' (paddedDigits zeros n ++ ['\x7d']) =
      .ok (steps ++ List.replicate (n - 1) last, []) :=
  (ReadsItem.repeats hlast (readCount_paddedDigits zeros hmin hmax)).readItem_eq

/-- **A repeat behind a script** adds copies of its last step if a list holds them. -/
theorem scan_repeatMark {script : String} {last : Step} {n : Nat} (zeros : Nat)
    (h : scan script = some (.ok steps)) (hlast : steps.getLast? = some last) (hmin : 1 ≤ n)
    (hmax : n ≤ Text.maxNat64) :
    scan (script ++ repeatMark zeros n) =
      if steps.length + (n - 1) ≤ maxSteps then some (.ok (steps ++ List.replicate (n - 1) last))
      else none := by
  rw [scan_append (endsName_repeatMark zeros n) h, repeatMark, String.toList_ofList,
    holdsItems_cons (readItem_repeatMark zeros hlast hmin hmax), holdsItems_nil, Bool.and_true,
    readItems_cons, readItem_repeatMark zeros hlast hmin hmax, List.length_append,
    List.length_replicate]
  simp only [decide_eq_true_eq]
  show (if _ then some (readItems _ (steps ++ List.replicate (n - 1) last) []) else none) = _
  rw [readItems_nil]

/-- **A repeat with nothing before it** is refused where it stands. -/
theorem scan_repeatMark_nil {script : String} (zeros n : Nat) (h : scan script = some (.ok [])) :
    scan (script ++ repeatMark zeros n) = some (.error (.danglingRepeat script.length)) := by
  have hlength : (script ++ repeatMark zeros n).toList.length -
      ((paddedDigits zeros n ++ ['\x7d']).length + 1) = script.length := by
    rw [String.toList_append, List.length_append, repeatMark, String.toList_ofList, List.length_cons,
      Nat.add_sub_cancel, String.length_toList]
  have hrefused : readItem (script ++ repeatMark zeros n).toList.length [] '\x7b'
      (paddedDigits zeros n ++ ['\x7d']) = .error (.danglingRepeat script.length) := by
    rw [← hlength]
    rfl
  have hmark : (repeatMark zeros n).toList = '\x7b' :: (paddedDigits zeros n ++ ['\x7d']) :=
    String.toList_ofList
  rw [scan_append (endsName_repeatMark zeros n) h]
  generalize (script ++ repeatMark zeros n).toList.length = total at hrefused
  rw [hmark, holdsItems_of_error hrefused, if_pos rfl, readItems_cons, hrefused]
  rfl

/-! ## Scripts -/

/-- **Scripts compose** as far as a list holds their steps.  Behind a script that is accepted,

    * a space and another script that is accepted add the steps of the other one, or the program breaks
      down if a list does not hold both;
    * a repeat of `n` times, from once to as often as fits into 64 bits, adds `n - 1` copies of the last
      step, however many zeros are written before the number, or the program breaks down if a list does
      not hold them;
    * and if the script asks for nothing, a repeat is refused at the offset at which it stands. -/
theorem scripts_compose (script : String) (steps : List Step) (h : scan script = some (.ok steps)) :
    (∀ other more, scan other = some (.ok more) →
      scan (script ++ " " ++ other) =
        if steps.length + more.length ≤ maxSteps then some (.ok (steps ++ more)) else none) ∧
    ∀ zeros n, 1 ≤ n → n ≤ 2 ^ 64 - 1 →
      (∀ last, steps.getLast? = some last →
        scan (script ++ repeatMark zeros n) =
          if steps.length + (n - 1) ≤ maxSteps then some (.ok (steps ++ List.replicate (n - 1) last))
          else none) ∧
      (steps = [] →
        scan (script ++ repeatMark zeros n) = some (.error (.danglingRepeat script.length))) := by
  refine ⟨fun other more hother => scan_behind h hother, fun zeros n hmin hmax => ⟨?_, ?_⟩⟩
  · intro last hlast
    exact scan_repeatMark zeros h hlast hmin hmax
  · rintro rfl
    exact scan_repeatMark_nil zeros n h

/-- A held key goes on into the next script, and a repeat reaches over the space before it: the key that
    is pressed last is pressed three times.  A repeat that asks for too many steps is not refused, and
    blanks and an empty text leave nothing to repeat. -/
theorem scripts_compose_chord :
    scan "+Control C" = some (.ok [.key .control .hold, .tap (.letter 2)]) ∧
    scan "`x` -Control" = some (.ok [.text "x", .key .control .release]) ∧
    scan "+Control C `x` -Control" =
      some (.ok [.key .control .hold, .tap (.letter 2), .text "x", .key .control .release]) ∧
    scan "+Control C\x7b003\x7d" =
      some (.ok [.key .control .hold, .tap (.letter 2), .tap (.letter 2), .tap (.letter 2)]) ∧
    scan "+Control C\x7b288230376151711743\x7d" = none ∧
    scan " ``" = some (.ok []) ∧
    scan " ``\x7b3\x7d" = some (.error (.danglingRepeat 3)) := by
  have hchord : scan "+Control C" = some (.ok [.key .control .hold, .tap (.letter 2)]) := by
    decide +kernel
  have hother : scan "`x` -Control" = some (.ok [.text "x", .key .control .release]) := by
    decide +kernel
  have hnothing : scan " ``" = some (.ok []) := by decide +kernel
  obtain ⟨hscripts, hrepeats⟩ := scripts_compose _ _ hchord
  obtain ⟨hthrice, -⟩ := hrepeats 2 3 (by decide) (by decide)
  obtain ⟨hmany, -⟩ := hrepeats 0 maxSteps (by decide) (by decide)
  obtain ⟨-, hdangling⟩ := (scripts_compose _ _ hnothing).2 0 3 (by decide) (by decide)
  exact ⟨hchord, hother, hscripts _ _ hother, hthrice _ rfl, hmany _ rfl, hnothing, hdangling rfl⟩

/-- **Not every number of times is accepted** of those that fit into 64 bits: pressing a key once is, and
    pressing it as often as the largest number says breaks the program down. -/
theorem not_repeated_beyond_list :
    scan "Enter" = some (.ok [.tap .enter]) ∧
    scan "Enter\x7b18446744073709551615\x7d" = none ∧
    ¬∀ script steps last n, scan script = some (.ok steps) → steps.getLast? = some last → 1 ≤ n →
      n ≤ 2 ^ 64 - 1 →
      scan (script ++ repeatMark 0 n) = some (.ok (steps ++ List.replicate (n - 1) last)) := by
  have honce : scan "Enter" = some (.ok [.tap .enter]) := by decide +kernel
  have hmany : scan "Enter\x7b18446744073709551615\x7d" = none := by decide +kernel
  refine ⟨honce, hmany, fun h => ?_⟩
  have hmark : "Enter" ++ repeatMark 0 18446744073709551615 = "Enter\x7b18446744073709551615\x7d" := by
    decide +kernel
  have haccepted := h "Enter" _ _ 18446744073709551615 honce rfl (by decide) (by decide)
  rw [hmark, hmany] at haccepted
  cases haccepted

end SpokenCommand.Script
