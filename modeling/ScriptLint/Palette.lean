import ScriptLint.Keyed

/-!
Palettes: the reference codes of color variables, in order, each name once.
-/

namespace ScriptLint

/-- The reference code of each color name. -/
structure Palette where
  entries : List (String × String)
  nodup : (entries.map Prod.fst).Nodup

namespace Palette

def empty : Palette := ⟨[], .nil⟩

def insert (p : Palette) (name code : String) : Palette :=
  ⟨Keyed.put name code p.entries, Keyed.nodup_alter p.nodup⟩

/-- A repeated name keeps its first place and takes its last code. -/
def ofList (colors : List (String × String)) : Palette :=
  colors.foldl (fun p color => p.insert color.1 color.2) empty

def lookup (p : Palette) (name : String) : Option String :=
  p.entries.lookup name

def isEmpty (p : Palette) : Bool :=
  p.entries.isEmpty

/-- Same names with the same codes, in whatever order. -/
def sameColors (p q : Palette) : Bool :=
  p.entries.length == q.entries.length && p.entries.all fun (name, code) =>
    q.lookup name == some code

/-- The colors that scripts use unless a configuration lists its own. -/
def standard : Palette where
  entries := [
    ("RED", "243;139;168"),
    ("GREEN", "166;227;161"),
    ("YELLOW", "249;226;175"),
    ("BLUE", "137;180;250"),
    ("MAUVE", "203;166;247"),
    ("SAPPHIRE", "116;199;236"),
    ("TEXT", "205;214;244")]
  nodup := by decide

/-- The palette itself, or the standard one if it has no colors. -/
def orStandard (p : Palette) : Palette :=
  if p.isEmpty then standard else p

end Palette

end ScriptLint
