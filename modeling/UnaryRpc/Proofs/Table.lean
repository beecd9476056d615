import UnaryRpc.Table

namespace UnaryRpc.Table

variable {α β : Type}

theorem find_append (k : String) (xs ys : List (String × α)) :
    find k (xs ++ ys) = (find k xs).or (find k ys) := by
  induction xs with
  | nil => simp [find]
  | cons e xs ih =>
    obtain ⟨k', v⟩ := e
    by_cases h : k' = k
    · simp [find, h]
    · simp [find, h, ih]

/-- After bindings one after another, a key has the last value bound to it. -/
theorem get?_foldl_insert (l : List (String × α)) (t : Table α) (k : String) :
    (l.foldl (fun t e => t.insert e.1 e.2) t).get? k = (find k l.reverse).or (t.get? k) := by
  induction l generalizing t with
  | nil => simp [find]
  | cons e l ih =>
    obtain ⟨k', v⟩ := e
    simp only [List.foldl_cons, List.reverse_cons]
    rw [ih, find_append, get?_insert]
    cases find k l.reverse with
    | some w => simp
    | none =>
      by_cases h : k' = k
      · simp [find, h]
      · simp [find, h, Ne.symm h]

/-- A table of a list has the last value of each key. -/
theorem get?_ofList (l : List (String × α)) (k : String) :
    (ofList l).get? k = (l.reverse.find? (fun e => e.1 == k)).map Prod.snd := by
  have hfind : ∀ l : List (String × α), find k l = (l.find? (fun e => e.1 == k)).map Prod.snd := by
    intro l
    induction l with
    | nil => rfl
    | cons e l ih =>
      obtain ⟨k', v⟩ := e
      by_cases h : k' = k <;> simp [find, h, ih]
  rw [ofList, get?_foldl_insert, get?_empty, Option.or_none, hfind]

theorem find_reverse {l : List (String × α)} (k : String)
    (h : l.Pairwise (fun a b => Text.Before a.1 b.1)) : find k l.reverse = find k l := by
  induction l with
  | nil => rfl
  | cons e l ih =>
    obtain ⟨k', v⟩ := e
    obtain ⟨hhd, htl⟩ := List.pairwise_cons.mp h
    rw [List.reverse_cons, find_append, ih htl]
    by_cases hk : k' = k
    · subst hk
      have hnone : find k' l = none := find_tail_of_before hhd
      simp [find, hnone]
    · simp [find, hk]

/-- A table is made again from its entries. -/
theorem ofList_entries (t : Table α) : ofList t.entries = t := by
  apply ext
  intro k
  rw [ofList, get?_foldl_insert, find_reverse k t.ascending, get?_empty, Option.or_none]
  rfl

theorem erase_of_get?_none {t : Table α} {k : String} (h : t.get? k = none) : t.erase k = t := by
  apply ext
  intro k'
  rw [get?_erase]
  split
  · rename_i he
    rw [he, h]
  · rfl

theorem mem_map_fst_iff (k : String) (l : List (String × α)) :
    k ∈ l.map Prod.fst ↔ ∃ v, find k l = some v := by
  induction l with
  | nil => simp [find]
  | cons e l ih =>
    obtain ⟨k', v⟩ := e
    by_cases h : k' = k
    · simp [find, h]
    · simp [find, h, Ne.symm h, ← ih]

/-- The keys are those that are bound. -/
theorem mem_keys (t : Table α) (k : String) : k ∈ t.keys ↔ ∃ v, t.get? k = some v :=
  mem_map_fst_iff k t.entries

/-- The entries are what is bound. -/
theorem mem_entries_iff (t : Table α) (k : String) (v : α) :
    (k, v) ∈ t.entries ↔ t.get? k = some v := by
  obtain ⟨l, hl⟩ := t
  change (k, v) ∈ l ↔ find k l = some v
  induction l with
  | nil => simp [find]
  | cons e l ih =>
    obtain ⟨k', v'⟩ := e
    obtain ⟨hhd, htl⟩ := List.pairwise_cons.mp hl
    by_cases h : k' = k
    · subst h
      have hfresh : (k', v) ∉ l := fun hm => (hhd _ hm).ne rfl
      simp [find, hfresh, eq_comm]
    · simp [find, h, Ne.symm h, ih htl]

theorem keys_ascending (t : Table α) : t.keys.Pairwise Text.Before :=
  List.pairwise_map.mpr t.ascending

theorem keys_nodup (t : Table α) : t.keys.Nodup :=
  t.keys_ascending.imp Text.Before.ne

/-- Changes the values and leaves the keys. -/
def map (f : α → β) (t : Table α) : Table β :=
  ⟨t.entries.map (fun e => (e.1, f e.2)), by simpa [List.pairwise_map] using t.ascending⟩

theorem get?_map (f : α → β) (t : Table α) (k : String) : (t.map f).get? k = (t.get? k).map f := by
  obtain ⟨l, hl⟩ := t
  change find k (l.map (fun e => (e.1, f e.2))) = (find k l).map f
  clear hl
  induction l with
  | nil => rfl
  | cons e l ih =>
    obtain ⟨k', v⟩ := e
    by_cases h : k' = k <;> simp [find, h, ih]

end UnaryRpc.Table
