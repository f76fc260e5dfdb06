import Typings.Json.Value

/-!
Tables of a TOML text. A table may be written in several places only as long as none of them gives it as a whole: under
its own header, or in braces. Keys with dots open the tables on their way for the present section alone.
-/

namespace Typings.Toml

/-- How a table came to be. -/
inductive Standing where
  /-- On the way to another one; its own header may still come. -/
  | implied
  /-- By keys with dots in the present section. -/
  | dotted
  /-- By its own header, or in an earlier section by keys with dots. -/
  | declared
  deriving DecidableEq

/-- What a key stands for. -/
inductive Entry where
  /-- A value that is complete. -/
  | value (v : Json)
  /-- A table. -/
  | table (standing : Standing) (entries : List (String × Entry))
  /-- A list of tables that have headers of their own, newest first. -/
  | tables (newest : List (String × Entry)) (older : List (List (String × Entry)))

/-- The entries of a table. -/
abbrev Entries := List (String × Entry)

/-- Change the entry of a key, or put one in. -/
def Entries.update (es : Entries) (key : String) (f : Option Entry → Option Entry) : Option Entries :=
  (f (Table.get? es key)).map (Table.set es key)

/-- Change the entries of the table at the end of the keys of a header; tables on the way that are missing are implied. -/
def Entries.inside (es : Entries) (keys : List String) (f : Entries → Option Entries) : Option Entries :=
  match keys with
  | [] => f es
  | key :: rest => es.update key fun
    | none => (Entries.inside [] rest f).map (.table .implied)
    | some (.table standing inner) => (Entries.inside inner rest f).map (.table standing)
    | some (.tables newest older) => (Entries.inside newest rest f).map (.tables · older)
    | some (.value _) => none

/-- Open a table under its own header. -/
def Entries.declare (es : Entries) (front : List String) (key : String) : Option Entries :=
  es.inside front fun inner => inner.update key fun
    | none => some (.table .declared [])
    | some (.table .implied entries) => some (.table .declared entries)
    | _ => none

/-- Add a table to a list of tables. -/
def Entries.append (es : Entries) (front : List String) (key : String) : Option Entries :=
  es.inside front fun inner => inner.update key fun
    | none => some (.tables [] [])
    | some (.tables newest older) => some (.tables [] (newest :: older))
    | _ => none

/-- Give a key with dots its value. -/
def Entries.assign (es : Entries) (front : List String) (key : String) (v : Json) : Option Entries :=
  match front with
  | [] => es.update key fun
    | none => some (.value v)
    | some _ => none
  | first :: rest => es.update first fun
    | none => (Entries.assign [] rest key v).map (.table .dotted)
    | some (.table .declared _) => none
    | some (.table _ inner) => (Entries.assign inner rest key v).map (.table .dotted)
    | _ => none

mutual

/-- An entry at the end of its section: what keys with dots have opened is declared. -/
def Entry.settle : Entry → Entry
  | .value v => .value v
  | .table standing es => .table (if standing = .dotted then .declared else standing) (settleAll es)
  | .tables newest older => .tables (settleAll newest) older

/-- Entries at the end of their section. -/
def settleAll : List (String × Entry) → List (String × Entry)
  | [] => []
  | (k, e) :: rest => (k, e.settle) :: settleAll rest

end

mutual

/-- The value of an entry. -/
def Entry.toJson : Entry → Json
  | .value v => v
  | .table _ es => .obj (toFields es)
  | .tables newest older => .arr (toObjects older [.obj (toFields newest)])

/-- The members of a table. -/
def toFields : List (String × Entry) → List (String × Json)
  | [] => []
  | (k, e) :: rest => (k, e.toJson) :: toFields rest

/-- The objects of tables, newest first, in front of `done`. -/
def toObjects : List (List (String × Entry)) → List Json → List Json
  | [], done => done
  | es :: rest, done => toObjects rest (.obj (toFields es) :: done)

end

end Typings.Toml
