/-!
Finite maps that keep their keys in the order of first arrival. Writing a key again changes its value and leaves
its place. Members of a JSON object, registered schemas and pending references are all held this way.
-/

namespace Typings

/-- Keys with their values; of several entries with one key the first counts. -/
abbrev Table (κ α : Type) := List (κ × α)

namespace Table

variable {κ α : Type} [DecidableEq κ]

/-- The value of a key. -/
def get? : Table κ α → κ → Option α
  | [], _ => none
  | (k, v) :: rest, key => if k = key then some v else get? rest key

/-- Whether a key is present. -/
def has (t : Table κ α) (key : κ) : Bool := (t.get? key).isSome

/-- Write a key: in its place if it is there, at the end if it is not. -/
def set : Table κ α → κ → α → Table κ α
  | [], key, v => [(key, v)]
  | (k, w) :: rest, key, v => if k = key then (k, v) :: rest else (k, w) :: set rest key v

/-- Remove a key. -/
def erase : Table κ α → κ → Table κ α
  | [], _ => []
  | (k, v) :: rest, key => if k = key then erase rest key else (k, v) :: erase rest key

/-- The entries that count, in order. -/
def entries : Table κ α → List (κ × α)
  | [] => []
  | (k, v) :: rest => (k, v) :: (entries rest).filter (·.1 ≠ k)

/-- The keys, in order. -/
def keys (t : Table κ α) : List κ := t.map (·.1)

/-- The values, in order of their keys. -/
def values (t : Table κ α) : List α := t.map (·.2)

/-- Write all entries of `s` into `t`, one after the other. -/
def overlay (t s : Table κ α) : Table κ α := s.foldl (fun acc e => acc.set e.1 e.2) t

/-- The table in which of several entries with one key the last gives the value and the first the place. -/
def ofEntries (entries : List (κ × α)) : Table κ α := overlay [] entries

end Table

end Typings
