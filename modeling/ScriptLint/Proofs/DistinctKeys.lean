import ScriptLint.Proofs.Readers
import ScriptLint.Toml.Document

/-!
The tables of a document. Main statement: `document_distinct`, in every table that a text describes,
each key stands once. Reading an inline table keeps this, and so does every statement that is added
to a draft.
-/

namespace ScriptLint

namespace Keyed

variable {α β : Type} [BEq α]

/-- After a key is set, an entry has the new value or was there before. -/
theorem mem_put {key : α} {value : β} {entries : List (α × β)} {e : α × β}
    (h : e ∈ put key value entries) : e.2 = value ∨ e ∈ entries := by
  induction entries with
  | nil =>
    rw [put, alter, List.mem_singleton] at h
    exact .inl (h ▸ rfl)
  | cons entry rest ih =>
    obtain ⟨k, v⟩ := entry
    rw [put, alter] at h
    split at h
    · rcases List.mem_cons.mp h with rfl | h
      · exact .inl rfl
      · exact .inr (List.mem_cons_of_mem _ h)
    · rcases List.mem_cons.mp h with rfl | h
      · exact .inr List.mem_cons_self
      · exact (ih h).imp_right (List.mem_cons_of_mem _)

end Keyed

namespace Toml

/-- In all tables of a value, each key stands once. -/
inductive Value.Distinct : Value → Prop
  | text {s : String} : Distinct (.text s)
  | integer {n : Int} : Distinct (.integer n)
  | float {f : FloatNumber} : Distinct (.float f)
  | boolean {b : Bool} : Distinct (.boolean b)
  | moment {s : String} : Distinct (.moment s)
  | array {vs : List Value} (h : ∀ v ∈ vs, v.Distinct) : Distinct (.array vs)
  | table {entries : List (String × Value)} (hkeys : (entries.map Prod.fst).Nodup)
      (h : ∀ e ∈ entries, e.2.Distinct) : Distinct (.table entries)

/-- The same of a value under construction. -/
inductive Node.Distinct : Node → Prop
  | value {v : Value} (h : v.Distinct) : Distinct (.value v)
  | array {ns : List Node} (h : ∀ n ∈ ns, n.Distinct) : Distinct (.array ns)
  | table {origin : Origin} {entries : Entries} (hkeys : (entries.map Prod.fst).Nodup)
      (h : ∀ e ∈ entries, e.2.Distinct) : Distinct (.table origin entries)
  | tables {ns : List Node} (h : ∀ n ∈ ns, n.Distinct) : Distinct (.tables ns)

/-- The same of entries. -/
structure Entries.Distinct (entries : Entries) : Prop where
  keys : (entries.map Prod.fst).Nodup
  nodes : ∀ e ∈ entries, e.2.Distinct

theorem toValues_eq_map (ns : List Node) : toValues ns = ns.map Node.toValue := by
  induction ns with
  | nil => rfl
  | cons n ns ih => rw [toValues, ih, List.map_cons]

theorem toEntries_eq_map (entries : Entries) :
    toEntries entries = entries.map fun e => (e.1, e.2.toValue) := by
  induction entries with
  | nil => rfl
  | cons e entries ih => rw [toEntries, ih, List.map_cons]

theorem map_fst_toEntries (entries : Entries) :
    (toEntries entries).map Prod.fst = entries.map Prod.fst := by
  rw [toEntries_eq_map, List.map_map]
  rfl

theorem Node.Distinct.toValue {n : Node} (h : n.Distinct) : n.toValue.Distinct := by
  induction h with
  | value h =>
    rw [Node.toValue]
    exact h
  | array _ ih =>
    rw [Node.toValue, toValues_eq_map]
    refine .array fun v hv => ?_
    obtain ⟨n, hn, rfl⟩ := List.mem_map.mp hv
    exact ih n hn
  | table hkeys _ ih =>
    rw [Node.toValue]
    refine .table (by rwa [map_fst_toEntries]) fun e he => ?_
    rw [toEntries_eq_map] at he
    obtain ⟨e', he', rfl⟩ := List.mem_map.mp he
    exact ih e' he'
  | tables _ ih =>
    rw [Node.toValue, toValues_eq_map]
    refine .array fun v hv => ?_
    obtain ⟨n, hn, rfl⟩ := List.mem_map.mp hv
    exact ih n hn

/-! ## Changing entries -/

namespace Entries

variable {entries result : Entries} {key : String} {node : Node}

theorem distinct_nil : Distinct [] := ⟨.nil, by simp⟩

theorem Distinct.table {origin : Origin} (h : entries.Distinct) :
    (Node.table origin entries).Distinct :=
  .table h.keys h.nodes

theorem Distinct.of_table {origin : Origin} (h : (Node.table origin entries).Distinct) :
    entries.Distinct := by
  cases h with
  | table hkeys h => exact ⟨hkeys, h⟩

theorem Distinct.lookup (h : entries.Distinct) (hl : entries.lookup key = some node) :
    node.Distinct :=
  h.nodes (key, node) (Keyed.mem_of_lookup_eq_some hl)

theorem Distinct.put (h : entries.Distinct) (hn : node.Distinct) :
    Distinct (Keyed.put key node entries) := by
  refine ⟨Keyed.nodup_alter h.keys, fun e he => ?_⟩
  rcases Keyed.mem_put he with hv | he
  · rw [hv]
    exact hn
  · exact h.nodes e he

theorem Distinct.remove (h : entries.Distinct) : (entries.remove key).Distinct := by
  refine ⟨?_, fun e he => h.nodes e (List.mem_filter.mp he).1⟩
  exact h.keys.sublist (List.Sublist.map _ List.filter_sublist)

theorem Distinct.append (h : entries.Distinct) (hkey : entries.lookup key = none)
    (hn : node.Distinct) : Distinct (entries ++ [(key, node)]) := by
  constructor
  · rw [List.map_append, List.map_singleton, List.nodup_append]
    refine ⟨h.keys, by simp, ?_⟩
    intro a ha b hb hab
    rw [List.mem_singleton] at hb
    rw [List.lookup_eq_none_iff] at hkey
    obtain ⟨e, he, rfl⟩ := List.mem_map.mp ha
    have hne := hkey e he
    simp [hab, hb] at hne
  · intro e he
    rcases List.mem_append.mp he with he | he
    · exact h.nodes e he
    · rw [List.mem_singleton.mp he]
      exact hn

theorem Distinct.add (h : entries.Distinct) (hn : node.Distinct)
    (ha : entries.add? key node = some result) : result.Distinct := by
  unfold add? at ha
  split at ha
  · cases ha
  · next hkey =>
    cases ha
    have hnone : entries.lookup key = none := Option.not_isSome_iff_eq_none.mp hkey
    exact h.append hnone hn

/-- A change keeps the tables distinct if what it does at its end does. -/
theorem Distinct.change {dotted : Bool} {act : Origin → Entries → Option Entries}
    {path : List String} {origin : Origin} (h : entries.Distinct)
    (hact : ∀ {origin entries result}, Distinct entries → act origin entries = some result →
      Distinct result)
    (hc : entries.change? dotted act path origin = some result) : result.Distinct := by
  -- along the path, each table on the way is put back where it was, or appended under a new key
  induction path generalizing origin entries result with
  | nil => exact hact h hc
  | cons key path ih =>
    rw [change?.eq_def] at hc
    simp only at hc
    split at hc
    · next hkey =>
      obtain ⟨inner, hinner, he⟩ := Option.bind_eq_some_iff.mp hc
      cases he
      exact h.append hkey (ih distinct_nil hinner).table
    · next o inner hkey =>
      split at hc
      · cases hc
      · obtain ⟨inner', hinner, he⟩ := Option.bind_eq_some_iff.mp hc
        cases he
        exact h.put (ih (.of_table (h.lookup hkey)) hinner).table
    · next elements hkey =>
      have hall : ∀ n ∈ elements, n.Distinct := by
        cases h.lookup hkey with
        | tables hall => exact hall
      split at hc
      · next o inner hlast =>
        obtain ⟨inner', hinner, he⟩ := Option.bind_eq_some_iff.mp hc
        cases he
        have hinner' := ih (.of_table (hall _ (List.mem_of_getLast? hlast))) hinner
        refine h.put (.tables fun n hn => ?_)
        rcases List.mem_append.mp hn with hn | hn
        · exact hall n (List.dropLast_subset elements hn)
        · rw [List.mem_singleton.mp hn]
          exact hinner'.table
      · cases hc
    · cases hc

theorem Distinct.assign {path : List String} {origin : Origin} (h : entries.Distinct)
    (hn : node.Distinct) (ha : entries.assign? path key node origin = some result) :
    result.Distinct := by
  refine h.change ?_ ha
  intro origin inner inner' hinner hact
  split at hact
  · exact hinner.add hn hact
  · cases hact

theorem Distinct.addTable (h : entries.Distinct) (hn : node.Distinct)
    (ha : entries.addTable? key node = some result) : result.Distinct := by
  unfold addTable? at ha
  split at ha
  · next hkey =>
    cases ha
    exact h.append hkey (.tables (by simpa using hn))
  · next elements hkey =>
    cases ha
    have hall : ∀ n ∈ elements, n.Distinct := by
      cases h.lookup hkey with
      | tables hall => exact hall
    refine h.put (.tables fun n hm => ?_)
    rcases List.mem_append.mp hm with hm | hm
    · exact hall n hm
    · rw [List.mem_singleton.mp hm]
      exact hn
  · cases ha

end Entries

/-! ## Readers of values -/

/-- A value that holds no other values. -/
def Value.IsScalar : Value → Prop
  | .array _ | .table _ => False
  | _ => True

theorem Value.IsScalar.distinct {v : Value} (h : v.IsScalar) : v.Distinct := by
  cases v with
  | text => exact .text
  | integer => exact .integer
  | float => exact .float
  | boolean => exact .boolean
  | moment => exact .moment
  | array => exact h.elim
  | table => exact h.elim

theorem isScalar_of_float {negative : Bool} {s : List Char} {v : Value}
    (h : float? negative s = some v) : v.IsScalar := by
  simp only [float?, Option.bind_eq_bind, Option.bind_eq_some_iff, Option.pure_def] at h
  obtain ⟨_, _, _, _, h⟩ := h
  split at h
  all_goals
    obtain ⟨_, _, hv⟩ := Option.bind_eq_some_iff.mp h
    cases hv
    trivial

theorem isScalar_of_unsigned {negative : Bool} {s : List Char} {v : Value}
    (h : unsigned? negative s = some v) : v.IsScalar := by
  unfold unsigned? at h
  split at h
  · cases h
    trivial
  split at h
  · cases h
    trivial
  split at h
  · exact isScalar_of_float h
  · obtain ⟨_, _, rfl⟩ := Option.map_eq_some_iff.mp h
    trivial

theorem isScalar_of_number {s : List Char} {v : Value} (h : number? s = some v) : v.IsScalar := by
  unfold number? at h
  split at h
  · obtain ⟨_, _, rfl⟩ := Option.map_eq_some_iff.mp h
    trivial
  · obtain ⟨_, _, rfl⟩ := Option.map_eq_some_iff.mp h
    trivial
  · obtain ⟨_, _, rfl⟩ := Option.map_eq_some_iff.mp h
    trivial
  · exact isScalar_of_unsigned h

theorem isScalar_of_scalar {word : List Char} {v : Value} (h : scalar? word = some v) :
    v.IsScalar := by
  unfold scalar? at h
  split at h
  · cases h
    trivial
  split at h
  · cases h
    trivial
  split at h
  · cases h
    trivial
  · exact isScalar_of_number h

theorem isScalar_of_readScalar {s rest : List Char} {v : Value}
    (h : readScalar s = some (v, rest)) : v.IsScalar := by
  have hword : ∃ word, scalar? word = some v := by
    unfold readScalar at h
    simp only at h
    split at h
    · split at h
      all_goals
        obtain ⟨_, hw, he⟩ := Option.map_eq_some_iff.mp h
        cases he
        exact ⟨_, hw⟩
    · obtain ⟨_, hw, he⟩ := Option.map_eq_some_iff.mp h
      cases he
      exact ⟨_, hw⟩
  obtain ⟨word, hw⟩ := hword
  exact isScalar_of_scalar hw

/-- A reader whose values are distinct. -/
def ReadsDistinct (read : Reader Node) : Prop :=
  ∀ {s node rest}, read s = some (node, rest) → node.Distinct

section Steps

variable {read : Reader Node} {s rest : List Char}

/-- What a step of a loop over elements leaves, whether the loop goes on or ends. -/
theorem elementStep_distinct (hread : ReadsDistinct read) {elements : List Node}
    {out : List Node ⊕ List Node} (h : elementStep read elements s = some (out, rest))
    (hall : ∀ n ∈ elements, n.Distinct) : ∀ n ∈ out.elim id id, n.Distinct := by
  unfold elementStep at h
  split at h
  · cases h
    exact hall
  · obtain ⟨⟨element, rest'⟩, helem, h⟩ := Option.bind_eq_some_iff.mp h
    simp only at h
    have hadd : ∀ n ∈ elements ++ [element], n.Distinct := by
      intro n hn
      rcases List.mem_append.mp hn with hn | hn
      · exact hall n hn
      · rw [List.mem_singleton.mp hn]
        exact hread helem
    split at h
    · cases h
      exact hadd
    · cases h
      exact hadd
    · cases h

theorem readAssigned_distinct (hread : ReadsDistinct read) {node : Node}
    (h : readAssigned read s = some (node, rest)) : node.Distinct := by
  obtain ⟨_, _, h⟩ := Option.bind_eq_some_iff.mp h
  exact hread h

/-- What a step of a loop over entries leaves, whether the loop goes on or ends. -/
theorem entryStep_distinct (hread : ReadsDistinct read) {entries : Entries}
    {out : Entries ⊕ Entries}
    (h : entryStep read entries s = some (out, rest)) (hall : entries.Distinct) :
    Entries.Distinct (out.elim id id) := by
  unfold entryStep at h
  split at h
  · cases h
    exact hall
  · simp only [Option.bind_eq_bind, Option.bind_eq_some_iff] at h
    obtain ⟨⟨⟨path, key⟩, rest₁⟩, -, ⟨node, rest₂⟩, hnode, entries', hassign, h⟩ := h
    have hadd : entries'.Distinct := hall.assign (readAssigned_distinct hread hnode) hassign
    split at h
    · cases h
      exact hadd
    · cases h
      exact hadd
    · cases h

end Steps

theorem readText_distinct {s rest : List Char} {node : Node}
    (h : (readString s).map (fun (text, rest) => (Node.value (.text (String.ofList text)), rest)) =
      some (node, rest)) : node.Distinct := by
  obtain ⟨_, _, he⟩ := Option.map_eq_some_iff.mp h
  cases he
  exact .value .text

theorem readWord_distinct {s rest : List Char} {node : Node}
    (h : (readScalar s).map (fun (v, rest) => (Node.value v, rest)) = some (node, rest)) :
    node.Distinct := by
  obtain ⟨⟨v, _⟩, hv, he⟩ := Option.map_eq_some_iff.mp h
  cases he
  exact .value (isScalar_of_readScalar hv).distinct

/-- Reading a value, by induction on how deep values may stand inside each other. -/
theorem readValue_distinct (depth : Nat) : ReadsDistinct (readValue depth) := by
  induction depth with
  | zero =>
    intro s node rest h
    rw [readValue.eq_def] at h
    split at h
    · contradiction
    · contradiction
    · split at h
      · exact readText_distinct h
      · exact readText_distinct h
      · exact readWord_distinct h
  | succ depth ih =>
    intro s node rest h
    rw [readValue.eq_def] at h
    split at h
    · next depth' s' heq =>
      cases heq
      obtain ⟨⟨elements, rest'⟩, hloop, he⟩ := Option.map_eq_some_iff.mp h
      cases he
      refine .array (Reader.loop_invariant (P := fun ns => ∀ n ∈ ns, n.Distinct)
        (Q := fun ns => ∀ n ∈ ns, n.Distinct) ?_ ?_ hloop (by simp))
      · intro state s result rest hall hstep
        exact elementStep_distinct ih hstep hall
      · intro state s next s' hall hstep
        exact elementStep_distinct ih hstep hall
    · next depth' s' heq =>
      cases heq
      obtain ⟨⟨entries, rest'⟩, hloop, he⟩ := Option.map_eq_some_iff.mp h
      cases he
      refine Entries.Distinct.table (Reader.loop_invariant (P := Entries.Distinct)
        (Q := Entries.Distinct) ?_ ?_ hloop Entries.distinct_nil)
      · intro state s result rest hall hstep
        exact entryStep_distinct ih hstep hall
      · intro state s next s' hall hstep
        exact entryStep_distinct ih hstep hall
    · split at h
      · exact readText_distinct h
      · exact readText_distinct h
      · exact readWord_distinct h

/-! ## Statements -/

/-- The same of the value that a statement assigns, if it assigns one. -/
def Statement.Distinct : Statement → Prop
  | .assign _ _ node => node.Distinct
  | _ => True

theorem readStatement_distinct {s rest : List Char} {statement : Statement}
    (h : readStatement s = some (statement, rest)) : statement.Distinct := by
  unfold readStatement at h
  split at h
  · unfold readHeader at h
    split at h
    all_goals
      simp only [Option.bind_eq_bind, Option.bind_eq_some_iff, Option.pure_def] at h
    · obtain ⟨_, _, _, _, _, _, he⟩ := h
      cases he
      trivial
    · obtain ⟨_, _, _, _, he⟩ := h
      cases he
      trivial
  · simp only [Option.bind_eq_bind, Option.bind_eq_some_iff, Option.pure_def] at h
    obtain ⟨_, _, _, hnode, he⟩ := h
    cases he
    exact readAssigned_distinct (readValue_distinct maxDepth) hnode

theorem lineStep_distinct {statements : List Statement} {s rest : List Char}
    {out : List Statement ⊕ List Statement} (h : lineStep statements s = some (out, rest))
    (hall : ∀ st ∈ statements, st.Distinct) : ∀ st ∈ out.elim id id, st.Distinct := by
  unfold lineStep at h
  split at h
  · cases h
    exact hall
  · split at h
    · cases h
      exact hall
    · simp only [Option.bind_eq_bind, Option.bind_eq_some_iff, Option.pure_def] at h
      obtain ⟨⟨statement, rest₁⟩, hst, rest₂, -, he⟩ := h
      cases he
      intro st hmem
      rcases List.mem_append.mp hmem with hmem | hmem
      · exact hall st hmem
      · rw [List.mem_singleton.mp hmem]
        exact readStatement_distinct hst

theorem statements_distinct {s : List Char} {statements : List Statement}
    (h : statements? s = some statements) : ∀ st ∈ statements, st.Distinct := by
  obtain ⟨⟨statements', rest⟩, hloop, he⟩ := Option.map_eq_some_iff.mp h
  cases he
  refine Reader.loop_invariant (P := fun sts => ∀ st ∈ sts, st.Distinct)
    (Q := fun sts => ∀ st ∈ sts, st.Distinct) ?_ ?_ hloop (by simp)
  · intro state s result rest hall hstep
    exact lineStep_distinct hstep hall
  · intro state s next s' hall hstep
    exact lineStep_distinct hstep hall

/-! ## Documents -/

namespace Draft

/-- Both parts of a document under construction are distinct. -/
structure Distinct (d : Draft) : Prop where
  entries : d.entries.Distinct
  openTable : d.openTable.Distinct

variable {d d' : Draft} {entries : Entries}

theorem Distinct.close (h : d.Distinct) (hc : d.close? = some entries) : entries.Distinct := by
  unfold close? at hc
  split at hc
  · refine h.entries.change ?_ hc
    intro origin inner inner' hinner hact
    exact hinner.add h.openTable.table hact
  · refine h.entries.change ?_ hc
    intro origin inner inner' hinner hact
    exact hinner.addTable h.openTable.table hact
  · cases hc
    exact h.openTable

theorem find_distinct {key : String} {path : List String} {node : Node} (h : entries.Distinct)
    (hf : takeImplied?.find key path entries = some node) : node.Distinct := by
  induction path generalizing entries with
  | nil => exact h.lookup hf
  | cons part path ih =>
    rw [takeImplied?.find] at hf
    split at hf
    · next hl => exact ih (.of_table (h.lookup hl)) hf
    · next elements hl =>
      split at hf
      · next hlast =>
        cases h.lookup hl with
        | tables hall => exact ih (.of_table (hall _ (List.mem_of_getLast? hlast))) hf
      · cases hf
    · cases hf

theorem takeImplied_distinct {path : List String} {key : String} (h : entries.Distinct)
    (ht : takeImplied? path key entries = some d) : d.Distinct := by
  obtain ⟨entries₁, hfirst, ht⟩ := Option.bind_eq_some_iff.mp ht
  have h₁ : entries₁.Distinct := by
    refine h.change ?_ hfirst
    intro origin inner inner' hinner hact
    cases hact
    exact hinner
  split at ht
  · next inner hfind =>
    obtain ⟨entries₂, hsecond, he⟩ := Option.bind_eq_some_iff.mp ht
    cases he
    have hinner : Entries.Distinct inner := .of_table (find_distinct h₁ hfind)
    refine ⟨h₁.change ?_ hsecond, hinner⟩
    intro origin es es' hes hact
    cases hact
    exact hes.remove
  · cases ht
  · cases ht
    exact ⟨h₁, Entries.distinct_nil⟩

/-- A step of the run over the statements. -/
theorem Distinct.add {statement : Statement} (h : d.Distinct) (hst : statement.Distinct)
    (ha : d.add? statement = some d') : d'.Distinct := by
  cases statement with
  | assign path key node =>
    obtain ⟨openTable, hassign, he⟩ := Option.bind_eq_some_iff.mp ha
    cases he
    exact ⟨h.entries, h.openTable.assign hst hassign⟩
  | table path key =>
    obtain ⟨entries, hclose, ht⟩ := Option.bind_eq_some_iff.mp ha
    exact takeImplied_distinct (h.close hclose) ht
  | arrayTable path key =>
    obtain ⟨entries, hclose, he⟩ := Option.bind_eq_some_iff.mp ha
    cases he
    exact ⟨h.close hclose, Entries.distinct_nil⟩

/-- The whole run. -/
theorem Distinct.foldlM {statements : List Statement} (h : d.Distinct)
    (hall : ∀ st ∈ statements, st.Distinct) (hf : statements.foldlM Draft.add? d = some d') :
    d'.Distinct := by
  induction statements generalizing d with
  | nil =>
    cases hf
    exact h
  | cons st statements ih =>
    rw [List.foldlM_cons] at hf
    obtain ⟨d₁, hadd, hf⟩ := Option.bind_eq_some_iff.mp hf
    have h₁ : d₁.Distinct := h.add (hall st List.mem_cons_self) hadd
    exact ih h₁ (fun s hs => hall s (List.mem_cons_of_mem _ hs)) hf

end Draft

/-- In every table of a document, each key stands once. -/
theorem document_distinct {text : List Char} {entries : List (String × Value)}
    (h : document? text = some entries) : (Value.table entries).Distinct := by
  simp only [document?, Option.bind_eq_bind, Option.bind_eq_some_iff, Option.pure_def] at h
  obtain ⟨statements, hstatements, draft, hdraft, nodes, hclose, he⟩ := h
  cases he
  have hstart : Draft.Distinct {} := ⟨Entries.distinct_nil, Entries.distinct_nil⟩
  have hnodes : Entries.Distinct nodes :=
    (hstart.foldlM (statements_distinct hstatements) hdraft).close hclose
  have htable : (Node.table .header nodes).toValue.Distinct := hnodes.table.toValue
  rwa [Node.toValue] at htable

end Toml

end ScriptLint
