import Mathlib
import ScriptLint.Config.Locate
import ScriptLint.Proofs.DistinctKeys
import ScriptLint.Proofs.Failure

/-!
Configurations and their documents. Main statement: `parse_eq_ok_iff`, a document gives a
configuration exactly if all its keys are known, all its values have the types of their keys and the
configuration is valid; every field then has the value that the document gives it, or else its
default.
-/

namespace ScriptLint

/-- A step that undoes `write` also does so on lists. -/
theorem mapM_eq_ok_iff {ε α β : Type} {step : α → Except ε β} {write : β → α}
    (h : ∀ a b, step a = .ok b ↔ a = write b) (as : List α) (bs : List β) :
    as.mapM step = .ok bs ↔ as = bs.map write := by
  induction as generalizing bs with
  | nil => cases bs <;> simp [pure, Except.pure]
  | cons a as ih =>
    rw [List.mapM_cons, bind_eq_ok_iff]
    constructor
    · rintro ⟨b, hb, hrest⟩
      obtain ⟨bs', hbs, he⟩ := bind_eq_ok_iff.mp hrest
      cases he
      rw [(h a b).mp hb, (ih bs').mp hbs, List.map_cons]
    · intro he
      cases bs with
      | nil => cases he
      | cons b bs =>
        rw [List.map_cons, List.cons.injEq] at he
        exact ⟨b, (h a b).mpr he.1, bind_eq_ok_iff.mpr ⟨bs, (ih bs).mpr he.2, rfl⟩⟩

namespace Keyed

variable {α β : Type} [BEq α] [LawfulBEq α]

theorem put_of_not_mem {key : α} {value : β} {entries : List (α × β)}
    (h : key ∉ entries.map Prod.fst) : put key value entries = entries ++ [(key, value)] := by
  induction entries with
  | nil => rfl
  | cons entry rest ih =>
    obtain ⟨k, v⟩ := entry
    rw [List.map_cons, List.mem_cons, not_or] at h
    have hk : (k == key) = false := beq_eq_false_iff_ne.mpr (Ne.symm h.1)
    have hrest : alter key (fun _ => value) rest = rest ++ [(key, value)] := ih h.2
    rw [put, alter, hk, hrest]
    rfl

end Keyed

namespace Palette

/-- New colors come last. -/
theorem entries_foldl_insert {rest : List (String × String)} {p : Palette}
    (h : ((p.entries ++ rest).map Prod.fst).Nodup) :
    (rest.foldl (fun p color => p.insert color.1 color.2) p).entries = p.entries ++ rest := by
  induction rest generalizing p with
  | nil => exact (List.append_nil _).symm
  | cons color rest ih =>
    have hnew : color.1 ∉ p.entries.map Prod.fst := by
      intro hmem
      rw [List.map_append, List.nodup_append] at h
      exact h.2.2 color.1 hmem color.1 (by simp) rfl
    have hinsert : (p.insert color.1 color.2).entries = p.entries ++ [color] :=
      Keyed.put_of_not_mem hnew
    rw [List.foldl_cons, ih (by simpa [hinsert] using h), hinsert, List.append_assoc]
    rfl

/-- Colors whose names are distinct are a palette as they are. -/
theorem entries_ofList {colors : List (String × String)} (h : (colors.map Prod.fst).Nodup) :
    (ofList colors).entries = colors :=
  entries_foldl_insert (p := empty) h

end Palette

namespace Config

open Toml (Value)

/-! ## What a document says -/

/-- A value that is an array of texts. -/
def texts (ss : List String) : Value :=
  .array (ss.map .text)

/-- The entry of a color. -/
def writeColor (color : String × String) : String × Value :=
  (color.1, .text color.2)

/-- The type of a value. -/
abbrev ValueType := Value → Prop

def isBoolean : ValueType := fun v => ∃ b, v = .boolean b

def isText : ValueType := fun v => ∃ s, v = .text s

def isTexts : ValueType := fun v => ∃ ss, v = texts ss

/-- Every key is one of the fields, and every value has the type of its field. -/
def Typed (types : List (String × ValueType)) (entries : List (String × Value)) : Prop :=
  ∀ e ∈ entries, ∃ type, types.lookup e.1 = some type ∧ type e.2

def isTable : ValueType := fun v => ∃ entries, v = .table entries

/-- A table of typed fields. -/
def isSection (types : List (String × ValueType)) : ValueType :=
  fun v => ∃ entries, v = .table entries ∧ Typed types entries

/-- A table of texts, with any keys. -/
def isPalette : ValueType :=
  fun v => ∃ entries, v = .table entries ∧ ∀ e ∈ entries, isText e.2

def scanTypes : List (String × ValueType) :=
  [("extensions", isTexts), ("recursive", isBoolean), ("exclude", isTexts)]

def checksTypes : List (String × ValueType) :=
  [("disabled", isTexts)]

def syntaxTypes : List (String × ValueType) :=
  [("enabled", isBoolean), ("shell", isText)]

def styleTypes : List (String × ValueType) :=
  [("env_file", isText), ("python_env_marker", isText)]

def formatTypes : List (String × ValueType) :=
  [("program", isText), ("options", isTexts), ("extensions", isTexts)]

/-- The sections of a document and their types. -/
def sectionTypes : List (String × ValueType) :=
  [("scan", isSection scanTypes), ("checks", isSection checksTypes),
    ("syntax", isSection syntaxTypes),
   ("style", isSection styleTypes), ("palette", isPalette), ("format", isSection formatTypes)]

/-- The entries of a section; without the section there are none. -/
def sectionOf (doc : List (String × Value)) (name : String) : List (String × Value) :=
  match doc.lookup name with
  | some (.table entries) => entries
  | _ => []

/-- What the entries give for a key is the written value, and the default one if they do not have
the key. -/
def Given {β : Type} (write : β → Value) (entries : List (String × Value)) (key : String)
    (default value : β) : Prop :=
  match entries.lookup key with
  | some v => v = write value
  | none => value = default

/-- A configuration has the values that a document gives, and its other values are the default
ones. -/
structure Describes (doc : List (String × Value)) (c : Config) : Prop where
  extensions : Given texts (sectionOf doc "scan") "extensions"
    ({} : Config).scan.extensions c.scan.extensions
  recursive : Given .boolean (sectionOf doc "scan") "recursive"
    ({} : Config).scan.recursive c.scan.recursive
  exclude : Given texts (sectionOf doc "scan") "exclude" ({} : Config).scan.exclude c.scan.exclude
  disabled : Given texts (sectionOf doc "checks") "disabled"
    ({} : Config).checks.disabled c.checks.disabled
  enabled : Given .boolean (sectionOf doc "syntax") "enabled" ({} : Config).syntaxCheck.enabled
    c.syntaxCheck.enabled
  shell : Given .text (sectionOf doc "syntax") "shell"
    ({} : Config).syntaxCheck.shell c.syntaxCheck.shell
  envFile : Given .text (sectionOf doc "style") "env_file"
    ({} : Config).style.envFile c.style.envFile
  pythonMarker : Given .text (sectionOf doc "style") "python_env_marker"
    ({} : Config).style.pythonMarker
    c.style.pythonMarker
  palette : c.palette.entries.map writeColor = sectionOf doc "palette"
  program : Given .text (sectionOf doc "format") "program"
    ({} : Config).format.program c.format.program
  options : Given texts (sectionOf doc "format") "options"
    ({} : Config).format.options c.format.options
  formatExtensions : Given texts (sectionOf doc "format") "extensions"
    ({} : Config).format.extensions
    c.format.extensions

/-! ## Values -/

theorem text_injective : Function.Injective Value.text := by
  intro a b h
  cases h
  rfl

theorem writeColor_injective : Function.Injective writeColor := by
  rintro ⟨name, code⟩ ⟨name', code'⟩ h
  cases h
  rfl

theorem boolean_injective : Function.Injective Value.boolean := by
  intro a b h
  cases h
  rfl

theorem texts_injective : Function.Injective texts := by
  intro a b h
  have hmap : a.map Value.text = b.map Value.text := by
    injection h
  exact (List.map_inj_right fun _ _ => @text_injective _ _).mp hmap

/-- A decoder takes exactly what is written for a result. -/
def Reads {β : Type} (decode : Decoder β) (write : β → Value) : Prop :=
  ∀ v b, decode v = .ok b ↔ v = write b

theorem Reads.exists_iff {β : Type} {decode : Decoder β} {write : β → Value}
    (h : Reads decode write) (v : Value) : (∃ b, decode v = .ok b) ↔ ∃ b, v = write b :=
  exists_congr fun b => h v b

theorem reads_boolean : Reads decodeBool .boolean := by
  intro v b
  cases v <;> simp [decodeBool]

theorem reads_text : Reads decodeText .text := by
  intro v b
  cases v <;> simp [decodeText]

theorem reads_texts : Reads decodeTexts texts := by
  intro v ss
  cases v with
  | array vs => simpa [decodeTexts, texts] using mapM_eq_ok_iff reads_text vs ss
  | _ => simp [decodeTexts, texts]

theorem decodePalette_eq_ok_iff {entries : List (String × Value)} {p : Palette} :
    decodePalette (.table entries) = .ok p ↔
      ∃ colors, entries = colors.map writeColor ∧ p = .ofList colors := by
  have hcolor : ∀ (e : String × Value) (color : String × String),
      (do return (e.1, ← decodeText e.2) : Except DocumentError (String × String)) =
        Except.ok color ↔
        e = writeColor color := by
    rintro ⟨name, v⟩ ⟨name', code⟩
    rw [bind_eq_ok_iff]
    simp only [reads_text v, pure, Except.pure, Except.ok.injEq, Prod.mk.injEq, writeColor]
    constructor
    · rintro ⟨_, hv, rfl, rfl⟩
      exact ⟨rfl, hv⟩
    · rintro ⟨rfl, hv⟩
      exact ⟨code, hv, rfl, rfl⟩
  show (entries.mapM _ >>= fun colors => pure (Palette.ofList colors)) = Except.ok p ↔ _
  rw [bind_eq_ok_iff]
  refine exists_congr fun colors => and_congr (mapM_eq_ok_iff hcolor entries colors) ?_
  simp only [pure, Except.pure, Except.ok.injEq, eq_comm]

/-! ## Putting entries into a section -/

section Fields

variable {α β : Type} {fields : List (Field α)} {entries : List (String × Value)} {a a' start : α}
  {name : String} {v : Value} {decode : Decoder β} {set : β → α → α} {get : α → β}
  {types : List (String × ValueType)} {type : ValueType} {Among : Value → Prop}

@[simp]
theorem field_name : (field name decode set).name = name := rfl

theorem field_put_eq_ok : (field name decode set).put v a = .ok a' ↔
    ∃ b, decode v = .ok b ∧ a' = set b a := by
  show (decode v >>= fun b => pure (set b a)) = .ok a' ↔ _
  rw [bind_eq_ok_iff]
  simp only [pure, Except.pure, Except.ok.injEq, eq_comm]

theorem putEntries_nil : putEntries fields [] start = .ok start := rfl

/-- The first entry needs a field that takes its value. -/
theorem putEntries_cons {e : String × Value} : putEntries fields (e :: entries) start = .ok a ↔
    ∃ f mid, fields.find? (·.name == e.1) = some f ∧ f.put e.2 start = .ok mid ∧
      putEntries fields entries mid = .ok a := by
  rw [putEntries, List.foldlM_cons, bind_eq_ok_iff]
  cases hf : fields.find? (·.name == e.1) with
  | none => simp [hf]
  | some f => simp [hf, putEntries]

/-- A field takes, among some values, those of a type. -/
structure Fits (Among : Value → Prop) (f : Field α) (entry : String × ValueType) : Prop where
  name : f.name = entry.1
  takes : ∀ v a, Among v → ((∃ a', f.put v a = .ok a') ↔ entry.2 v)

theorem fits_field (h : ∀ v, Among v → ((∃ b, decode v = .ok b) ↔ type v)) :
    Fits Among (field name decode set) (name, type) := by
  refine ⟨rfl, fun v a hv => ?_⟩
  show (∃ a', _) ↔ type v
  rw [← h v hv]
  simp only [field_put_eq_ok]
  constructor
  · rintro ⟨_, b, hb, _⟩
    exact ⟨b, hb⟩
  · rintro ⟨b, hb⟩
    exact ⟨_, b, hb, rfl⟩

/-- An entry is taken exactly if its key is known and its value has the type of the key. -/
theorem exists_put_iff (hfits : List.Forall₂ (Fits Among) fields types)
    (hv : (types.lookup name).isSome → Among v) :
    (∃ f a', fields.find? (·.name == name) = some f ∧ f.put v a = .ok a') ↔
      ∃ type, types.lookup name = some type ∧ type v := by
  induction hfits with
  | nil => simp
  | @cons f entry fields types hf _ ih =>
    -- both searches stop at the first field with the key
    obtain ⟨key, type⟩ := entry
    have hname : f.name = key := hf.name
    by_cases hk : key = name
    · subst hk
      rw [List.lookup_cons, beq_self_eq_true] at hv
      have htakes := hf.takes v a (hv rfl)
      simpa [hname] using htakes
    · have hne : (name == key) = false := beq_eq_false_iff_ne.mpr (Ne.symm hk)
      rw [List.lookup_cons, hne] at hv ⊢
      simpa [hname, hk] using ih hv

/-- Entries are taken exactly if they are typed. -/
theorem exists_putEntries_iff (hfits : List.Forall₂ (Fits Among) fields types)
    (hall : ∀ e ∈ entries, (types.lookup e.1).isSome → Among e.2) :
    (∃ a, putEntries fields entries start = .ok a) ↔ Typed types entries := by
  induction entries generalizing start with
  | nil => simp [putEntries_nil, Typed]
  | cons e entries ih =>
    have hrest : ∀ mid, (∃ a, putEntries fields entries mid = .ok a) ↔ Typed types entries := by
      intro mid
      exact ih fun e' he' => hall e' (List.mem_cons_of_mem _ he')
    have hfirst := exists_put_iff (a := start) hfits (hall e List.mem_cons_self)
    rw [Typed, List.forall_mem_cons, ← hfirst]
    simp only [putEntries_cons]
    constructor
    · rintro ⟨a, f, mid, hfind, hput, h⟩
      exact ⟨⟨f, mid, hfind, hput⟩, (hrest mid).mp ⟨a, h⟩⟩
    · rintro ⟨⟨f, mid, hfind, hput⟩, htyped⟩
      obtain ⟨a, h⟩ := (hrest mid).mpr htyped
      exact ⟨a, f, mid, hfind, hput, h⟩

/-- A field leaves a part of the section as it is. -/
def Keeps (get : α → β) (f : Field α) : Prop :=
  ∀ v a a', f.put v a = .ok a' → get a' = get a

theorem keeps_field {γ : Type} {get : α → γ} (h : ∀ b a, get (set b a) = get a) :
    Keeps get (field name decode set) := by
  intro v a a' hput
  obtain ⟨b, _, rfl⟩ := field_put_eq_ok.mp hput
  exact h b a

/-- One of the fields sets a part of the section, and the others leave it as it is. -/
structure Owns (fields : List (Field α)) (name : String) (decode : Decoder β) (get : α → β) :
    Prop where
  sets : ∃ set, fields.find? (·.name == name) = some (field name decode set) ∧
    ∀ b a, get (set b a) = b
  keeps : ∀ f ∈ fields, f.name ≠ name → Keeps get f

/-- A part of a section is what the entry of its field gives, or what it was before. -/
theorem Owns.get_eq (h : Owns fields name decode get) (hkeys : (entries.map Prod.fst).Nodup)
    (hput : putEntries fields entries start = .ok a) :
    match entries.lookup name with
    | some v => decode v = .ok (get a)
    | none => get a = get start := by
  induction entries generalizing start with
  | nil =>
    cases hput
    rfl
  | cons e entries ih =>
    obtain ⟨key, v⟩ := e
    obtain ⟨f, mid, hfind, hf, hrest⟩ := putEntries_cons.mp hput
    rw [List.map_cons, List.nodup_cons] at hkeys
    have hend := ih hkeys.2 hrest
    -- the entry of the field sets the part, and no later entry has its key; any other entry leaves
    -- the part
    by_cases hk : key = name
    · subst hk
      obtain ⟨set, hset, hget⟩ := h.sets
      rw [hset] at hfind
      cases hfind
      obtain ⟨b, hb, rfl⟩ := field_put_eq_ok.mp hf
      have hnone : entries.lookup key = none := by
        rw [List.lookup_eq_none_iff]
        intro e he
        have hmem : e.1 ∈ entries.map Prod.fst := List.mem_map_of_mem he
        have hne : key ≠ e.1 := fun heq => hkeys.1 (heq ▸ hmem)
        simpa using hne
      rw [hnone] at hend
      simp only [List.lookup_cons_self]
      rw [hend, hget]
      exact hb
    · have hne : (name == key) = false := beq_eq_false_iff_ne.mpr (Ne.symm hk)
      have hname : f.name = key := by simpa using List.find?_some hfind
      have hmid : get mid = get start :=
        h.keeps f (List.mem_of_find?_eq_some hfind) (hname ▸ hk) v start mid hf
      rw [List.lookup_cons, hne]
      rwa [hmid] at hend

theorem Owns.given {write : β → Value} (h : Owns fields name decode get)
    (hreads : Reads decode write)
    (hkeys : (entries.map Prod.fst).Nodup) (hput : putEntries fields entries start = .ok a) :
    Given write entries name (get start) (get a) := by
  have hget := h.get_eq hkeys hput
  unfold Given
  split
  · next v hl =>
    rw [hl] at hget
    exact (hreads v _).mp hget
  · next hl =>
    rw [hl] at hget
    exact hget

/-- What is given is given once. -/
theorem Given.unique {write : β → Value} (hwrite : Function.Injective write) {default b b' : β}
    (h : Given write entries name default b) (h' : Given write entries name default b') :
      b = b' := by
  unfold Given at h h'
  split at h
  · next v hl =>
    simp only [hl] at h'
    exact hwrite (h.symm.trans h')
  · next hl =>
    simp only [hl] at h'
    exact h.trans h'.symm

end Fields

/-! ## The sections -/

theorem fits_scan : List.Forall₂ (Fits fun _ => True) scanFields scanTypes :=
  .cons (fits_field fun v _ => reads_texts.exists_iff v)
    (.cons (fits_field fun v _ => reads_boolean.exists_iff v)
      (.cons (fits_field fun v _ => reads_texts.exists_iff v) .nil))

theorem fits_checks : List.Forall₂ (Fits fun _ => True) checksFields checksTypes :=
  .cons (fits_field fun v _ => reads_texts.exists_iff v) .nil

theorem fits_syntax : List.Forall₂ (Fits fun _ => True) syntaxFields syntaxTypes :=
  .cons (fits_field fun v _ => reads_boolean.exists_iff v)
    (.cons (fits_field fun v _ => reads_text.exists_iff v) .nil)

theorem fits_style : List.Forall₂ (Fits fun _ => True) styleFields styleTypes :=
  .cons (fits_field fun v _ => reads_text.exists_iff v)
    (.cons (fits_field fun v _ => reads_text.exists_iff v) .nil)

theorem fits_format : List.Forall₂ (Fits fun _ => True) formatFields formatTypes :=
  .cons (fits_field fun v _ => reads_text.exists_iff v)
    (.cons (fits_field fun v _ => reads_texts.exists_iff v)
      (.cons (fits_field fun v _ => reads_texts.exists_iff v) .nil))

/-- A table is read as a section exactly if it is one. -/
theorem exists_decodeSection_iff {α : Type} {title : String} {fields : List (Field α)} {start : α}
    {types : List (String × ValueType)} (hfits : List.Forall₂ (Fits fun _ => True) fields types)
    (v : Value) (hv : isTable v) :
    (∃ a, decodeSection title fields start v = .ok a) ↔ isSection types v := by
  obtain ⟨entries, rfl⟩ := hv
  have hentries : (∃ a, putEntries fields entries start = .ok a) ↔ Typed types entries :=
    exists_putEntries_iff hfits fun _ _ _ => trivial
  show (∃ a, putEntries fields entries start = .ok a) ↔ _
  rw [hentries]
  simp [isSection]

/-- A table is read as a palette exactly if its values are texts. -/
theorem exists_decodePalette_iff (v : Value) (hv : isTable v) :
    (∃ p, decodePalette v = .ok p) ↔ isPalette v := by
  obtain ⟨entries, rfl⟩ := hv
  simp only [decodePalette_eq_ok_iff]
  constructor
  · rintro ⟨_, colors, rfl, _⟩
    refine ⟨_, rfl, fun e he => ?_⟩
    obtain ⟨color, _, rfl⟩ := List.mem_map.mp he
    exact ⟨color.2, rfl⟩
  · rintro ⟨entries', he, htexts⟩
    cases he
    have hwritten : entries ∈ Set.range (List.map writeColor) := by
      rw [Set.range_list_map]
      intro e he
      obtain ⟨code, hcode⟩ := htexts e he
      exact ⟨(e.1, code), by rw [writeColor, ← hcode]⟩
    obtain ⟨colors, hcolors⟩ := hwritten
    exact ⟨_, colors, hcolors.symm, rfl⟩

theorem fits_sections : List.Forall₂ (Fits isTable) sections sectionTypes :=
  .cons (fits_field (exists_decodeSection_iff fits_scan))
    (.cons (fits_field (exists_decodeSection_iff fits_checks))
      (.cons (fits_field (exists_decodeSection_iff fits_syntax))
        (.cons (fits_field (exists_decodeSection_iff fits_style))
          (.cons (fits_field exists_decodePalette_iff)
            (.cons (fits_field (exists_decodeSection_iff fits_format)) .nil)))))

/-! ## The parts of a configuration -/

theorem scan_parts :
    Owns scanFields "extensions" decodeTexts ScanConfig.extensions ∧
    Owns scanFields "recursive" decodeBool ScanConfig.recursive ∧
    Owns scanFields "exclude" decodeTexts ScanConfig.exclude := by
  refine ⟨⟨⟨_, rfl, fun _ _ => rfl⟩, ?_⟩, ⟨⟨_, rfl, fun _ _ => rfl⟩, ?_⟩,
    ⟨⟨_, rfl, fun _ _ => rfl⟩, ?_⟩⟩
  all_goals simp [scanFields, keeps_field]

theorem checks_part : Owns checksFields "disabled" decodeTexts ChecksConfig.disabled :=
  ⟨⟨_, rfl, fun _ _ => rfl⟩, by simp [checksFields]⟩

theorem syntax_parts :
    Owns syntaxFields "enabled" decodeBool SyntaxConfig.enabled ∧
    Owns syntaxFields "shell" decodeText SyntaxConfig.shell := by
  refine ⟨⟨⟨_, rfl, fun _ _ => rfl⟩, ?_⟩, ⟨⟨_, rfl, fun _ _ => rfl⟩, ?_⟩⟩
  all_goals simp [syntaxFields, keeps_field]

theorem style_parts :
    Owns styleFields "env_file" decodeText StyleConfig.envFile ∧
    Owns styleFields "python_env_marker" decodeText StyleConfig.pythonMarker := by
  refine ⟨⟨⟨_, rfl, fun _ _ => rfl⟩, ?_⟩, ⟨⟨_, rfl, fun _ _ => rfl⟩, ?_⟩⟩
  all_goals simp [styleFields, keeps_field]

theorem format_parts :
    Owns formatFields "program" decodeText FormatConfig.program ∧
    Owns formatFields "options" decodeTexts FormatConfig.options ∧
    Owns formatFields "extensions" decodeTexts FormatConfig.extensions := by
  refine ⟨⟨⟨_, rfl, fun _ _ => rfl⟩, ?_⟩, ⟨⟨_, rfl, fun _ _ => rfl⟩, ?_⟩,
    ⟨⟨_, rfl, fun _ _ => rfl⟩, ?_⟩⟩
  all_goals simp [formatFields, keeps_field]

theorem section_parts :
    Owns sections "scan" (decodeSection "ScanConfig" scanFields {}) Config.scan ∧
    Owns sections "checks" (decodeSection "ChecksConfig" checksFields {}) Config.checks ∧
    Owns sections "syntax" (decodeSection "SyntaxConfig" syntaxFields {}) Config.syntaxCheck ∧
    Owns sections "style" (decodeSection "StyleConfig" styleFields {}) Config.style ∧
    Owns sections "palette" decodePalette Config.palette ∧
    Owns sections "format" (decodeSection "FormatConfig" formatFields {}) Config.format := by
  refine ⟨⟨⟨_, rfl, fun _ _ => rfl⟩, ?_⟩, ⟨⟨_, rfl, fun _ _ => rfl⟩, ?_⟩,
    ⟨⟨_, rfl, fun _ _ => rfl⟩, ?_⟩,
    ⟨⟨_, rfl, fun _ _ => rfl⟩, ?_⟩, ⟨⟨_, rfl, fun _ _ => rfl⟩, ?_⟩, ⟨⟨_, rfl, fun _ _ => rfl⟩, ?_⟩⟩
  all_goals simp [sections, keeps_field]

/-! ## Documents -/

section Documents

variable {doc : List (String × Value)} {c c' : Config}

theorem exists_ofEntries_iff (htables : ∀ e ∈ doc, (sectionTypes.lookup e.1).isSome → isTable e.2) :
    (∃ c, ofEntries doc = .ok c) ↔ Typed sectionTypes doc :=
  exists_putEntries_iff fits_sections htables

theorem nodup_sectionOf (hdoc : (Value.table doc).Distinct) (name : String) :
    ((sectionOf doc name).map Prod.fst).Nodup := by
  cases hdoc with
  | table _ hvalues =>
    unfold sectionOf
    split
    · next entries hl =>
      have hdistinct : (Value.table entries).Distinct := hvalues _ (Keyed.mem_of_lookup_eq_some hl)
      cases hdistinct with
      | table hkeys _ => exact hkeys
    · exact .nil

/-- A section of a configuration is read from the entries of that section. -/
theorem Owns.putEntries_sectionOf {α : Type} {name title : String} {fields : List (Field α)}
    {start : α} {get : Config → α} (h : Owns sections name (decodeSection title fields start) get)
    (hstart : get {} = start) (hkeys : (doc.map Prod.fst).Nodup)
    (htable : ∀ v, doc.lookup name = some v → isTable v) (hc : ofEntries doc = .ok c) :
    putEntries fields (sectionOf doc name) start = .ok (get c) := by
  have hget := h.get_eq hkeys hc
  unfold sectionOf
  cases hl : doc.lookup name with
  | none =>
    rw [hl, hstart] at hget
    rw [putEntries_nil, hget]
  | some v =>
    obtain ⟨entries, rfl⟩ := htable v hl
    rw [hl] at hget
    exact hget

theorem Owns.palette_sectionOf {get : Config → Palette}
    (h : Owns sections "palette" decodePalette get)
    (hstart : get {} = .empty) (hdoc : (Value.table doc).Distinct)
    (htable : ∀ v, doc.lookup "palette" = some v → isTable v) (hc : ofEntries doc = .ok c) :
    (get c).entries.map writeColor = sectionOf doc "palette" := by
  have hkeys : (doc.map Prod.fst).Nodup := by
    cases hdoc with
    | table hkeys _ => exact hkeys
  have hget := h.get_eq hkeys hc
  have hnodup := nodup_sectionOf hdoc "palette"
  unfold sectionOf at hnodup ⊢
  cases hl : doc.lookup "palette" with
  | none =>
    rw [hl, hstart] at hget
    rw [hget]
    rfl
  | some v =>
    obtain ⟨entries, rfl⟩ := htable v hl
    rw [hl] at hget hnodup
    obtain ⟨colors, rfl, hp⟩ := decodePalette_eq_ok_iff.mp hget
    have hnames : (colors.map Prod.fst).Nodup := by
      rwa [List.map_map] at hnodup
    rw [hp, Palette.entries_ofList hnames]

/-- The configuration that is read has what the document gives. -/
theorem describes_of_ofEntries (hdoc : (Value.table doc).Distinct)
    (htables : ∀ e ∈ doc, (sectionTypes.lookup e.1).isSome → isTable e.2)
    (hc : ofEntries doc = .ok c) :
    Describes doc c := by
  have hkeys : (doc.map Prod.fst).Nodup := by
    cases hdoc with
    | table hkeys _ => exact hkeys
  have htable : ∀ name, (sectionTypes.lookup name).isSome → ∀ v, doc.lookup name = some v →
      isTable v := by
    intro name hname v hl
    exact htables (name, v) (Keyed.mem_of_lookup_eq_some hl) hname
  have hnodup := nodup_sectionOf hdoc
  obtain ⟨scan, checks, syn, style, palette, format⟩ := section_parts
  have hscan := scan.putEntries_sectionOf rfl hkeys (htable _ rfl) hc
  have hchecks := checks.putEntries_sectionOf rfl hkeys (htable _ rfl) hc
  have hsyntax := syn.putEntries_sectionOf rfl hkeys (htable _ rfl) hc
  have hstyle := style.putEntries_sectionOf rfl hkeys (htable _ rfl) hc
  have hformat := format.putEntries_sectionOf rfl hkeys (htable _ rfl) hc
  obtain ⟨extensions, recursive, exclude⟩ := scan_parts
  obtain ⟨enabled, shell⟩ := syntax_parts
  obtain ⟨envFile, pythonMarker⟩ := style_parts
  obtain ⟨program, options, formatExtensions⟩ := format_parts
  exact {
    extensions := extensions.given reads_texts (hnodup _) hscan
    recursive := recursive.given reads_boolean (hnodup _) hscan
    exclude := exclude.given reads_texts (hnodup _) hscan
    disabled := checks_part.given reads_texts (hnodup _) hchecks
    enabled := enabled.given reads_boolean (hnodup _) hsyntax
    shell := shell.given reads_text (hnodup _) hsyntax
    envFile := envFile.given reads_text (hnodup _) hstyle
    pythonMarker := pythonMarker.given reads_text (hnodup _) hstyle
    palette := palette.palette_sectionOf rfl hdoc (htable _ rfl) hc
    program := program.given reads_text (hnodup _) hformat
    options := options.given reads_texts (hnodup _) hformat
    formatExtensions := formatExtensions.given reads_texts (hnodup _) hformat }

/-- A document describes at most one configuration. -/
theorem Describes.unique (h : Describes doc c) (h' : Describes doc c') : c = c' := by
  obtain ⟨⟨_, _, _⟩, ⟨_⟩, ⟨_, _⟩, ⟨_, _⟩, ⟨colors, _⟩, ⟨_, _, _⟩⟩ := c
  obtain ⟨⟨_, _, _⟩, ⟨_⟩, ⟨_, _⟩, ⟨_, _⟩, ⟨colors', _⟩, ⟨_, _, _⟩⟩ := c'
  have hpalette : colors = colors' :=
    (List.map_inj_right fun _ _ => @writeColor_injective _ _).mp (h.palette.trans h'.palette.symm)
  cases h.extensions.unique texts_injective h'.extensions
  cases h.recursive.unique boolean_injective h'.recursive
  cases h.exclude.unique texts_injective h'.exclude
  cases h.disabled.unique texts_injective h'.disabled
  cases h.enabled.unique boolean_injective h'.enabled
  cases h.shell.unique text_injective h'.shell
  cases h.envFile.unique text_injective h'.envFile
  cases h.pythonMarker.unique text_injective h'.pythonMarker
  cases h.program.unique text_injective h'.program
  cases h.options.unique texts_injective h'.options
  cases h.formatExtensions.unique texts_injective h'.formatExtensions
  cases hpalette
  rfl

/-- What is read from the entries of a document. -/
theorem ofEntries_eq_ok_iff (hdoc : (Value.table doc).Distinct)
    (htables : ∀ e ∈ doc, (sectionTypes.lookup e.1).isSome → isTable e.2) :
    ofEntries doc = .ok c ↔ Typed sectionTypes doc ∧ Describes doc c := by
  constructor
  · intro hc
    exact ⟨(exists_ofEntries_iff htables).mp ⟨c, hc⟩, describes_of_ofEntries hdoc htables hc⟩
  · rintro ⟨htyped, hdescribes⟩
    obtain ⟨c', hc'⟩ := (exists_ofEntries_iff htables).mpr htyped
    rw [hc', hdescribes.unique (describes_of_ofEntries hdoc htables hc')]

end Documents

/-- A document whose sections are tables gives a configuration exactly if its keys are known, its
values have the types of their keys, and what it describes is valid. A typed document describes one
configuration. -/
theorem parse_eq_ok_iff {text : String} {doc : List (String × Value)}
    (hdoc : Toml.document? text.toList = some doc)
    (htables : ∀ e ∈ doc, (sectionTypes.lookup e.1).isSome → isTable e.2) :
    (Typed sectionTypes doc → ∃! c, Describes doc c) ∧
    ∀ c, parse text = .ok c ↔ Typed sectionTypes doc ∧ Describes doc c ∧ c.validate = .ok () := by
  have hdistinct : (Value.table doc).Distinct := Toml.document_distinct hdoc
  constructor
  · intro htyped
    obtain ⟨c, hc⟩ := (exists_ofEntries_iff htables).mpr htyped
    have hdescribes : Describes doc c := describes_of_ofEntries hdistinct htables hc
    exact ⟨c, hdescribes, fun c' hc' => hc'.unique hdescribes⟩
  · intro c
    have htext : ofText text = ofEntries doc := by
      rw [ofText, hdoc]
    rw [parse_eq_ok, htext, ofEntries_eq_ok_iff hdistinct htables, and_assoc]

/-- A short document, whose sections are in another order than those of a configuration. -/
def shortDocument : String :=
  "[palette]\nRED = \"1;2;3\"\n[scan]\nrecursive = true"

def shortEntries : List (String × Value) :=
  [("palette", .table [("RED", .text "1;2;3")]), ("scan", .table [("recursive", .boolean true)])]

def shortConfig : Config :=
  { scan := { recursive := true }, palette := .ofList [("RED", "1;2;3")] }

theorem parse_eq_ok_iff_short :
    Toml.document? shortDocument.toList = some shortEntries ∧
    (∀ e ∈ shortEntries, (sectionTypes.lookup e.1).isSome → isTable e.2) ∧
    parse shortDocument = .ok shortConfig := by
  have hdoc : Toml.document? shortDocument.toList = some shortEntries := by cbv
  have htables : ∀ e ∈ shortEntries, (sectionTypes.lookup e.1).isSome → isTable e.2 := by
    simp [shortEntries, isTable]
  have htyped : Typed sectionTypes shortEntries := by
    simp [shortEntries, Typed, sectionTypes, isSection, isPalette, scanTypes, isText, isBoolean,
      List.lookup_cons]
  have hdescribes : Describes shortEntries shortConfig := by
    constructor <;> rfl
  have hvalid : shortConfig.validate = .ok () := rfl
  exact ⟨hdoc, htables,
    ((parse_eq_ok_iff hdoc htables).2 shortConfig).mpr ⟨htyped, hdescribes, hvalid⟩⟩

end Config

end ScriptLint
