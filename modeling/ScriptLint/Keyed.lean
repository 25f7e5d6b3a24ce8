/-!
Lists of values by key, in the order in which the keys came. Main statements: `lookup_alter`, what
is found after a change, and `map_fst_alter`, which keys are there then.
-/

namespace ScriptLint.Keyed

variable {α β : Type} [BEq α]

/-- Changes the value of a key in place; a new key comes last. -/
def alter (key : α) (change : Option β → β) : List (α × β) → List (α × β)
  | [] => [(key, change none)]
  | (k, v) :: rest =>
    if k == key then (k, change (some v)) :: rest else (k, v) :: alter key change rest

/-- Sets the value of a key. -/
def put (key : α) (value : β) (entries : List (α × β)) : List (α × β) :=
  alter key (fun _ => value) entries

variable [LawfulBEq α]

theorem lookup_alter (key x : α) (change : Option β → β) (entries : List (α × β)) :
    (alter key change entries).lookup x =
      if x == key then some (change (entries.lookup key)) else entries.lookup x := by
  induction entries with
  | nil => cases h : x == key <;> simp [alter, List.lookup_cons, h]
  | cons entry rest ih =>
    obtain ⟨k, v⟩ := entry
    by_cases hk : k = key
    · subst hk
      cases h : x == k <;> simp [alter, List.lookup_cons, h]
    · by_cases h : x = key
      · subst h
        simp [alter, List.lookup_cons, hk, beq_eq_false_iff_ne.mpr (Ne.symm hk), ih]
      · cases hx : x == k <;> simp [alter, List.lookup_cons, hk, hx, h, ih]

theorem lookup_put (key x : α) (value : β) (entries : List (α × β)) :
    (put key value entries).lookup x = if x == key then some value else entries.lookup x :=
  lookup_alter key x _ entries

theorem map_fst_alter (key : α) (change : Option β → β) (entries : List (α × β)) :
    (alter key change entries).map Prod.fst =
      if (entries.map Prod.fst).contains key then entries.map Prod.fst
      else entries.map Prod.fst ++ [key] := by
  induction entries with
  | nil => simp [alter]
  | cons entry rest ih =>
    obtain ⟨k, v⟩ := entry
    by_cases hk : k = key
    · simp [alter, hk]
    · simp only [alter, beq_eq_false_iff_ne.mpr hk, Bool.false_eq_true, if_false, List.map_cons, ih,
        List.contains_cons, beq_eq_false_iff_ne.mpr (Ne.symm hk), Bool.false_or]
      split <;> rfl

/-- An entry after a change was there before, or it is the one of the key, changed from the entry
that was there before or put there anew. -/
theorem mem_alter {key : α} {change : Option β → β} {entries : List (α × β)} {entry : α × β}
    (h : entry ∈ alter key change entries) :
    entry ∈ entries ∨ (∃ old, (key, old) ∈ entries ∧ entry = (key, change (some old))) ∨
      entry = (key, change none) := by
  induction entries with
  | nil => exact .inr (.inr (List.mem_singleton.mp h))
  | cons first rest ih =>
    obtain ⟨k, v⟩ := first
    by_cases hk : k = key
    · simp only [alter, hk, beq_self_eq_true, if_true, List.mem_cons] at h
      rcases h with rfl | h
      · exact .inr (.inl ⟨v, by simp [hk], rfl⟩)
      · exact .inl (List.mem_cons_of_mem _ h)
    · simp only [alter, beq_eq_false_iff_ne.mpr hk, Bool.false_eq_true, if_false,
        List.mem_cons] at h
      rcases h with rfl | h
      · exact .inl List.mem_cons_self
      · rcases ih h with h | ⟨old, hold, he⟩ | he
        · exact .inl (List.mem_cons_of_mem _ h)
        · exact .inr (.inl ⟨old, List.mem_cons_of_mem _ hold, he⟩)
        · exact .inr (.inr he)

/-- Keys stay distinct. -/
theorem nodup_alter {key : α} {change : Option β → β} {entries : List (α × β)}
    (h : (entries.map Prod.fst).Nodup) : ((alter key change entries).map Prod.fst).Nodup := by
  rw [map_fst_alter]
  split
  · exact h
  · next hk =>
    rw [List.contains_iff_mem] at hk
    rw [List.nodup_append]
    refine ⟨h, by simp, ?_⟩
    intro a ha b hb e
    rw [List.mem_singleton] at hb
    exact hk (hb ▸ e ▸ ha)

theorem mem_of_lookup_eq_some {key : α} {value : β} {entries : List (α × β)}
    (h : entries.lookup key = some value) : (key, value) ∈ entries := by
  induction entries with
  | nil => simp at h
  | cons entry rest ih =>
    obtain ⟨k, v⟩ := entry
    by_cases hk : key = k
    · subst hk
      simp at h
      simp [h]
    · simp [List.lookup_cons, beq_eq_false_iff_ne.mpr hk] at h
      exact List.mem_cons_of_mem _ (ih h)

/-- Where keys are distinct, what is found under a key is what stands with it. -/
theorem lookup_eq_some_of_mem {key : α} {value : β} {entries : List (α × β)}
    (h : (entries.map Prod.fst).Nodup)
    (hm : (key, value) ∈ entries) : entries.lookup key = some value := by
  obtain ⟨before, after, rfl⟩ := List.append_of_mem hm
  refine List.lookup_eq_some_iff.mpr ⟨before, after, rfl, fun entry hentry => ?_⟩
  rw [List.map_append, List.map_cons, List.nodup_append] at h
  simpa using (h.2.2 entry.1 (List.mem_map_of_mem hentry) key List.mem_cons_self).symm

end ScriptLint.Keyed
