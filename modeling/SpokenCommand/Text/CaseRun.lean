/-!
Case mappings as tables.

Characters whose other case lies at one fixed distance come in runs: `A` to `Z` are 32 below their
small letters, and in the Latin extensions every second character is a capital whose small letter
follows it.  A mapping is the list of its RUNS in increasing order.
-/

namespace SpokenCommand.Text

/-- The characters `first`, `first + step`, … up to `last`, each mapped `shift` code points away. -/
structure CaseRun where
  first : Nat
  last : Nat
  step : Nat
  shift : Int

/-- The character that a mapping sends `c` to: itself when it is in no run. -/
def CaseRun.map : List CaseRun → Char → Char
  | [], c => c
  | run :: rest, c =>
    if c.toNat < run.first then c
    else if c.toNat ≤ run.last && (c.toNat - run.first) % run.step == 0 then
      Char.ofNat (c.toNat + run.shift).toNat
    else map rest c

end SpokenCommand.Text
