import ScriptLint.Keyed
import ScriptLint.Toml.Value

/-!
Tables under construction. How a table came to be decides whether later lines may add to it.
-/

namespace ScriptLint.Toml

inductive Origin where
  /-- A header names the table. -/
  | header
  /-- A header names a table below it. -/
  | implied
  /-- A dotted key names a value below it. -/
  | dotted
  /-- Braces hold all of it. -/
  | inline
  deriving DecidableEq, Repr

inductive Node where
  | value (v : Value)
  /-- An array between brackets. -/
  | array (elements : List Node)
  | table (origin : Origin) (entries : List (String × Node))
  /-- The tables that headers between double brackets name. -/
  | tables (elements : List Node)
  deriving Repr

abbrev Entries := List (String × Node)

namespace Entries

def remove (key : String) (entries : Entries) : Entries :=
  entries.filter (·.1 != key)

/-- Adds an entry; its key must be new. -/
def add? (key : String) (node : Node) (entries : Entries) : Option Entries :=
  if (entries.lookup key).isSome then none else some (entries ++ [(key, node)])

/-- Changes the entries of the table that a path leads to. Missing tables on the way are made. A
dotted path does not lead into tables that have a header, and no path into inline tables. -/
def change? (dotted : Bool) (act : Origin → Entries → Option Entries) :
    (path : List String) → Origin → Entries → Option Entries
  | [], origin, entries => act origin entries
  | key :: path, _, entries =>
    match entries.lookup key with
    | none => do
      let origin : Origin := if dotted then .dotted else .implied
      let inner ← change? dotted act path origin []
      return entries ++ [(key, .table origin inner)]
    | some (.table origin inner) =>
      if origin = .inline || (dotted && origin = .header) then none
      else do
        let inner ← change? dotted act path origin inner
        return Keyed.put key (.table origin inner) entries
    | some (.tables elements) =>
      match elements.getLast? with
      | some (.table origin inner) => do
        let inner ← change? dotted act path origin inner
        return Keyed.put key (.tables (elements.dropLast ++ [.table origin inner])) entries
      | _ => none
    | some _ => none

/-- Sets the value of a key that may be dotted. Only tables that dotted keys made take values of
dotted keys, and no others do. -/
def assign? (path : List String) (key : String) (node : Node) (origin : Origin)
    (entries : Entries) : Option Entries :=
  let dotted := !path.isEmpty
  change? dotted (fun origin inner =>
    if dotted = decide (origin = .dotted) then add? key node inner else none) path origin entries

/-- Appends a table to the tables of a key. -/
def addTable? (key : String) (table : Node) (entries : Entries) : Option Entries :=
  match entries.lookup key with
  | none => some (entries ++ [(key, .tables [table])])
  | some (.tables elements) => some (Keyed.put key (.tables (elements ++ [table])) entries)
  | some _ => none

end Entries

mutual

def Node.toValue : Node → Value
  | .value v => v
  | .array elements => .array (toValues elements)
  | .table _ entries => .table (toEntries entries)
  | .tables elements => .array (toValues elements)

def toValues : List Node → List Value
  | [] => []
  | n :: ns => n.toValue :: toValues ns

def toEntries : List (String × Node) → List (String × Value)
  | [] => []
  | (key, n) :: rest => (key, n.toValue) :: toEntries rest

end

end ScriptLint.Toml
