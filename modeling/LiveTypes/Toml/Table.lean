import LiveTypes.AssocMap
import LiveTypes.Double.Basic

/-!
# Tables

What a document writes are tables of named values. How a table was written decides what may be added
to it later: a table in braces is complete; a table with a header has one header, which may follow
those of its subtables; a table that only a dotted key names grows by dotted keys alone, apart from
subtables with headers of their own. No key is given twice.
-/

namespace LiveTypes.Toml

/-- How a table was written. -/
inductive Origin where
  /-- In braces -/
  | inline
  /-- Under a header of its own -/
  | header
  /-- As a part of the header of a subtable -/
  | implied
  /-- As a part of a dotted key -/
  | dotted
deriving DecidableEq, Repr

inductive Value where
  | text (s : String)
  | integer (i : Int64)
  | float (d : Double)
  | boolean (b : Bool)
  /-- A date or a time, as it is written -/
  | dateTime (s : String)
  | array (l : List Value)
  | table (origin : Origin) (entries : List (String × Value))
  /-- The tables under headers in double brackets, oldest first -/
  | tables (l : List (List (String × Value)))

abbrev Entries := List (String × Value)

namespace Entries

/-- Change the table that a path leads to, and make the tables that are missing on the way. A path
leads through the newest of several tables. -/
def change (dotted : Bool) (f : Origin → Entries → Option Entries) :
    List String → Origin → Entries → Option Entries
  | [], origin, entries => f origin entries
  | k :: path, _, entries =>
    match AssocMap.lookup k entries with
    | none =>
      let origin : Origin := if dotted then .dotted else .implied
      (change dotted f path origin []).map fun sub => AssocMap.put k (.table origin sub) entries
    | some (.table origin sub) =>
      if origin = .inline ∨ (dotted ∧ origin = .header) then none
      else
        (change dotted f path origin sub).map fun sub => AssocMap.put k (.table origin sub) entries
    | some (.tables l) =>
      l.getLast?.bind fun last =>
        (change dotted f path .header last).map fun last =>
          AssocMap.put k (.tables (l.dropLast ++ [last])) entries
    | some _ => none

/-- Add a value under a dotted key: the path to its table and its name there. -/
def add (path : List String) (k : String) (v : Value) (origin : Origin) (entries : Entries) :
    Option Entries :=
  let put (origin : Origin) (entries : Entries) : Option Entries :=
    if decide (origin = .dotted) = path.isEmpty ∨ (AssocMap.lookup k entries).isSome then none
    else some (AssocMap.put k v entries)
  change true put path origin entries

/-- The entries of a table in braces. -/
def ofPairs (l : List (List String × String × Value)) : Option Entries :=
  l.foldlM (fun entries (path, k, v) => add path k v .inline entries) []

end Entries

/-- A document that has been read up to some line. -/
structure Draft where
  root : Entries
  /-- The header under which the next lines stand -/
  header : List String

namespace Draft

def empty : Draft := ⟨[], []⟩

/-- Add a value under a dotted key to the table of the current header. -/
def add (d : Draft) (path : List String) (k : String) (v : Value) : Option Draft :=
  (Entries.change false (Entries.add path k v) d.header .header d.root).map fun root =>
    { d with root }

def beginTable (d : Draft) (path : List String) (k : String) : Option Draft :=
  let define (_ : Origin) (entries : Entries) : Option Entries :=
    match AssocMap.lookup k entries with
    | none => some (AssocMap.put k (.table .header []) entries)
    | some (.table .implied sub) => some (AssocMap.put k (.table .header sub) entries)
    | some _ => none
  (Entries.change false define path .header d.root).map fun root => ⟨root, path ++ [k]⟩

/-- Begin one more of the tables of a header. -/
def beginNext (d : Draft) (path : List String) (k : String) : Option Draft :=
  let define (_ : Origin) (entries : Entries) : Option Entries :=
    match AssocMap.lookup k entries with
    | none => some (AssocMap.put k (.tables [[]]) entries)
    | some (.tables l) => some (AssocMap.put k (.tables (l ++ [[]])) entries)
    | some _ => none
  (Entries.change false define path .header d.root).map fun root => ⟨root, path ++ [k]⟩

end Draft

end LiveTypes.Toml
