/-!
# TOML documents

The values of a document and the rules by which its lines build them up. A table is written by a
header, between braces, or not at all where it is only on the way to another one; which of these it
is decides what may still be added to it.
-/

set_option autoImplicit false

namespace GraphStore

/-- How a table is written. -/
inductive TableOrigin where
  /-- Under a header of its own. -/
  | header
  /-- Only on the way of another table's header. -/
  | implied
  /-- On the way of a key with dots. -/
  | dotted
  /-- Between braces. Nothing can be added to it. -/
  | braces
deriving Repr, DecidableEq, Inhabited

/-- A value of a document. -/
inductive Toml where
  | string (text : String)
  | integer (value : Int)
  | boolean (value : Bool)
  /-- A number with a fraction or an exponent. -/
  | float
  /-- A date, a time of day, or both. -/
  | moment
  | array (items : List Toml)
  | table (origin : TableOrigin) (entries : List (String × Toml))
  /-- Tables that are added by headers one by one. -/
  | tables (items : List (List (String × Toml)))
deriving Inhabited

namespace Toml

/-- The contents of a table, in the order in which its keys appear. -/
abbrev Entries := List (String × Toml)

def find? (key : String) (entries : Entries) : Option Toml := entries.lookup key

/-- Gives a key a value, in its place if the key is there. -/
def put (key : String) (value : Toml) (entries : Entries) : Entries :=
  if entries.any (·.1 == key) then
    entries.map fun entry => if entry.1 == key then (key, value) else entry
  else entries ++ [(key, value)]

/-- A change of a table, which depends on how the table is written. -/
abbrev Change := TableOrigin → Entries → Option Entries

/-- Changes the table at the end of a path. Tables that are missing on the way are made as `missing`
says; of tables that are added one by one, the last is meant. A key with dots may lead only through
tables that are not written under a header. -/
def changeAt (missing : TableOrigin) (change : Change) : List String → Change
  | [], origin, entries => change origin entries
  | key :: path, _, entries =>
      match find? key entries with
      | none => do
          return put key (.table missing (← changeAt missing change path missing [])) entries
      | some (.table origin held) =>
          if origin = .braces || (missing = .dotted && origin = .header) then none
          else do
            return put key (.table origin (← changeAt missing change path origin held)) entries
      | some (.tables items) => do
          let last ← items.getLast?
          let changed ← changeAt missing change path .header last
          return put key (.tables (items.dropLast ++ [changed])) entries
      | some _ => none

/-- Adds a key that is not there yet. A key without dots cannot be added to a table that keys with
dots have made, and a key with dots only to such a table. -/
def addKey (plain : Bool) (key : String) (value : Toml) : Change := fun origin entries =>
  if (origin == .dotted) == plain || (find? key entries).isSome then none
  else some (put key value entries)

/-- Adds the value of a key with or without dots. -/
def addPair (path : List String) (key : String) (value : Toml) : Change :=
  changeAt .dotted (addKey path.isEmpty key value) path

/-- Opens the table of a header. A table that was only on the way of another header becomes one of
its own. -/
def openTable (key : String) : Change := fun _ entries =>
  match find? key entries with
  | none => some (put key (.table .header []) entries)
  | some (.table .implied held) => some (put key (.table .header held) entries)
  | some _ => none

def openNext (key : String) : Change := fun _ entries =>
  match find? key entries with
  | none => some (put key (.tables [[]]) entries)
  | some (.tables items) => some (put key (.tables (items ++ [[]])) entries)
  | some _ => none

def ofPairs (pairs : List (List String × String × Toml)) : Option Toml := do
  let entries ← pairs.foldlM
    (fun entries pair => addPair pair.1 pair.2.1 pair.2.2 .braces entries) []
  return .table .braces entries

/-!
## Lines
-/

/-- A line of a document, or several lines that hold one value. -/
inductive Line where
  /-- Nothing but blanks and a comment. -/
  | blank
  | header (path : List String) (key : String)
  /-- The header of one of several tables. -/
  | nextHeader (path : List String) (key : String)
  | pair (path : List String) (key : String) (value : Toml)

/-- The tables of a document so far, and the path of the one that is being filled. -/
structure Draft where
  entries : Entries
  current : List String

def Draft.add (draft : Draft) : Line → Option Draft
  | .blank => some draft
  | .header path key => do
      let entries ← changeAt .implied (openTable key) path .header draft.entries
      return ⟨entries, path ++ [key]⟩
  | .nextHeader path key => do
      let entries ← changeAt .implied (openNext key) path .header draft.entries
      return ⟨entries, path ++ [key]⟩
  | .pair path key value => do
      let entries ←
        changeAt .implied (addPair path key value) draft.current .header draft.entries
      return ⟨entries, draft.current⟩

def ofLines (lines : List Line) : Option Entries := do
  return (← lines.foldlM Draft.add ⟨[], []⟩).entries

end Toml

end GraphStore
