import ScriptLint.Config.Basic
import ScriptLint.Toml.Describe
import ScriptLint.Toml.Document

/-!
Reading a configuration from a document. Every key has to be known and every value of the right
kind; what is not given keeps its default. The first entry that is wrong decides the error.
-/

namespace ScriptLint

/-- Why a text is no configuration. -/
inductive DocumentError where
  /-- The text is no document, or a number in it cannot be read. -/
  | malformed
  | unknownField (name : String) (known : List String)
  | wrongType (found expected : String)
  deriving DecidableEq, Repr

namespace DocumentError

def choice (names : List String) : String :=
  match names.map Toml.backticked with
  | [] => "there are no fields"
  | [a] => "expected " ++ a
  | [a, b] => "expected " ++ a ++ " or " ++ b
  | many => "expected one of " ++ String.intercalate ", " many

def message : DocumentError → String
  | malformed => "malformed document"
  | unknownField name known => "unknown field " ++ Toml.backticked name ++ ", " ++ choice known
  | wrongType found expected => "invalid type: " ++ found ++ ", expected " ++ expected

def ofValue (found : Toml.Value) (expected : String) : DocumentError :=
  match found.describe? with
  | some text => wrongType text expected
  | none => malformed

end DocumentError

namespace Config

open Toml (Value)

/-- Reads a value of one kind. -/
abbrev Decoder (α : Type) := Value → Except DocumentError α

def decodeBool : Decoder Bool
  | .boolean b => .ok b
  | v => .error (.ofValue v "a boolean")

def decodeText : Decoder String
  | .text s => .ok s
  | v => .error (.ofValue v "a string")

def decodeTexts : Decoder (List String)
  | .array vs => vs.mapM decodeText
  | v => .error (.ofValue v "a sequence")

def decodePalette : Decoder Palette := fun v =>
  match v.entries? with
  | some entries => do
    let colors ← entries.mapM fun (name, v) => return (name, ← decodeText v)
    return .ofList colors
  | none => .error (.ofValue v "a map")

/-- A field of a section: its name, and how its value is put into the section. -/
structure Field (α : Type) where
  name : String
  put : Value → α → Except DocumentError α

/-- A field whose value is read by a decoder. -/
def field {α β : Type} (name : String) (decode : Decoder β) (set : β → α → α) : Field α where
  name
  put v acc := return set (← decode v) acc

/-- Puts the entries of a table into a section, in their order. -/
def putEntries {α : Type} (fields : List (Field α)) (entries : List (String × Value)) (start : α) :
    Except DocumentError α :=
  entries.foldlM (fun acc (name, v) =>
    match fields.find? (·.name == name) with
    | some f => f.put v acc
    | none => .error (.unknownField name (fields.map (·.name)))) start

/-- Reads a section from a table, or from an array with the values of the first fields in order. -/
def decodeSection {α : Type} (name : String) (fields : List (Field α)) (start : α) : Decoder α
  | .array vs => (fields.zip vs).foldlM (fun acc (f, v) => f.put v acc) start
  | v =>
    match v.entries? with
    | some entries => putEntries fields entries start
    | none => .error (.ofValue v ("struct " ++ name))

def scanFields : List (Field ScanConfig) :=
  [field "extensions" decodeTexts fun v s => { s with extensions := v },
   field "recursive" decodeBool fun v s => { s with recursive := v },
   field "exclude" decodeTexts fun v s => { s with exclude := v }]

def checksFields : List (Field ChecksConfig) :=
  [field "disabled" decodeTexts fun v s => { s with disabled := v }]

def syntaxFields : List (Field SyntaxConfig) :=
  [field "enabled" decodeBool fun v s => { s with enabled := v },
   field "shell" decodeText fun v s => { s with shell := v }]

def styleFields : List (Field StyleConfig) :=
  [field "env_file" decodeText fun v s => { s with envFile := v },
   field "python_env_marker" decodeText fun v s => { s with pythonMarker := v }]

def formatFields : List (Field FormatConfig) :=
  [field "program" decodeText fun v s => { s with program := v },
   field "options" decodeTexts fun v s => { s with options := v },
   field "extensions" decodeTexts fun v s => { s with extensions := v }]

def sections : List (Field Config) :=
  [field "scan" (decodeSection "ScanConfig" scanFields {}) fun v c => { c with scan := v },
   field "checks" (decodeSection "ChecksConfig" checksFields {}) fun v c => { c with checks := v },
   field "syntax" (decodeSection "SyntaxConfig" syntaxFields {}) fun v c =>
     { c with syntaxCheck := v },
   field "style" (decodeSection "StyleConfig" styleFields {}) fun v c => { c with style := v },
   field "palette" decodePalette fun v c => { c with palette := v },
   field "format" (decodeSection "FormatConfig" formatFields {}) fun v c => { c with format := v }]

/-- The configuration that the entries of a document give. -/
def ofEntries (entries : List (String × Value)) : Except DocumentError Config :=
  putEntries sections entries {}

/-- The configuration that a text gives. -/
def ofText (text : String) : Except DocumentError Config :=
  match Toml.document? text.toList with
  | some entries => ofEntries entries
  | none => .error .malformed

end Config

end ScriptLint
