/-!
Association lists in first-seen order.

`put` files a value under a key.  A key that is new goes to the end; one that is present keeps its
place and changes its value.
-/

namespace SpokenCommand.Ordered

/-- The entries with `value` under `key`. -/
def put {α : Type} (key : String) (value : α) : List (String × α) → List (String × α)
  | [] => [(key, value)]
  | (k, v) :: rest => if k = key then (key, value) :: rest else (k, v) :: put key value rest

/-- The value just filed is found. -/
theorem lookup_put_self {α : Type} (key : String) (value : α) (entries : List (String × α)) :
    (put key value entries).lookup key = some value := by
  induction entries with
  | nil => simp [put]
  | cons e rest ih =>
    obtain ⟨k, v⟩ := e
    simp only [put]
    split
    · simp
    · rename_i hne
      have : (key == k) = false := by simpa using Ne.symm hne
      simp [List.lookup_cons, this, ih]

/-- Every other value is found as before. -/
theorem lookup_put_of_ne {α : Type} {key other : String} (hne : other ≠ key) (value : α)
    (entries : List (String × α)) : (put key value entries).lookup other = entries.lookup other := by
  have hbeq : (other == key) = false := by simpa using hne
  induction entries with
  | nil => simp [put, List.lookup_cons, hbeq]
  | cons e rest ih =>
    obtain ⟨k, v⟩ := e
    simp only [put]
    split
    · rename_i hk
      subst hk
      simp [List.lookup_cons, hbeq]
    · simp only [List.lookup_cons, ih]

end SpokenCommand.Ordered
