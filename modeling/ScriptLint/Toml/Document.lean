import ScriptLint.Toml.Parser

/-!
Documents: the table that the statements of a text build up.
-/

namespace ScriptLint.Toml

/-- A document under construction. Assignments go to the open table, whose place is known from its
header; it enters the document when the next header comes. -/
structure Draft where
  entries : Entries := []
  openTable : Entries := []
  /-- The header of the open table; the document itself has none. -/
  header : Option Statement := none

namespace Draft

def close? (d : Draft) : Option Entries :=
  match d.header with
  | some (.table path key) =>
    Entries.change? false (fun _ => Entries.add? key (.table .header d.openTable)) path .header
      d.entries
  | some (.arrayTable path key) =>
    Entries.change? false (fun _ => Entries.addTable? key (.table .header d.openTable)) path .header
      d.entries
  | _ => some d.openTable

/-- Takes the table of a header out of the document, to be opened. It may exist only if headers of
tables below it implied it. -/
def takeImplied? (path : List String) (key : String) (entries : Entries) : Option Draft := do
  let entries ← Entries.change? false (fun _ => some) path .header entries
  match find path entries with
  | some (.table .implied inner) =>
    let entries ← Entries.change? false (fun _ es => some (es.remove key)) path .header entries
    return { entries, openTable := inner, header := some (.table path key) }
  | some _ => none
  | none => return { entries, header := some (.table path key) }
where
  /-- The value of the key in the table that a path leads to. -/
  find : List String → Entries → Option Node
    | [], entries => entries.lookup key
    | part :: path, entries =>
      match entries.lookup part with
      | some (.table _ inner) => find path inner
      | some (.tables elements) =>
        match elements.getLast? with
        | some (.table _ inner) => find path inner
        | _ => none
      | _ => none

def add? (d : Draft) : Statement → Option Draft
  | .assign path key node => do
    let openTable ← d.openTable.assign? path key node .header
    return { d with openTable }
  | .table path key => do
    takeImplied? path key (← d.close?)
  | .arrayTable path key => do
    return { entries := ← d.close?, header := some (.arrayTable path key) }

end Draft

/-- The mark that some editors put in front of a text. -/
def byteOrderMark : Char := Char.ofNat 0xfeff

/-- The table that a text describes, if the text is a document. -/
def document? (text : List Char) : Option (List (String × Value)) := do
  let text := if text.head? = some byteOrderMark then text.drop 1 else text
  let statements ← statements? text
  let draft ← statements.foldlM Draft.add? {}
  return toEntries (← draft.close?)

end ScriptLint.Toml
