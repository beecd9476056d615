import UnaryRpc.Text.Bytes

namespace UnaryRpc

/-- A map from text to values, kept as pairs in ascending byte order of the keys. -/
structure Table (α : Type) where
  entries : List (String × α)
  ascending : entries.Pairwise (fun a b => Text.Before a.1 b.1)
deriving DecidableEq

namespace Table

variable {α : Type}

def find (k : String) : List (String × α) → Option α
  | [] => none
  | (k', v) :: rest => if k' = k then some v else find k rest

/-- Puts a pair at its place, in place of a pair with its key. -/
def place (k : String) (v : α) : List (String × α) → List (String × α)
  | [] => [(k, v)]
  | (k', v') :: rest =>
    if k' = k then (k, v) :: rest
    else if Text.Before k k' then (k, v) :: (k', v') :: rest
    else (k', v') :: place k v rest

theorem mem_place {k : String} {v : α} {e : String × α} {l : List (String × α)}
    (h : e ∈ place k v l) : e = (k, v) ∨ e ∈ l := by
  induction l with
  | nil => simpa [place] using h
  | cons hd tl ih =>
    obtain ⟨k', v'⟩ := hd
    unfold place at h
    split at h
    · rcases List.mem_cons.1 h with h | h
      · exact .inl h
      · exact .inr (List.mem_cons_of_mem _ h)
    · split at h
      · simpa using h
      · simp only [List.mem_cons] at h ⊢
        rcases h with h | h
        · exact .inr (.inl h)
        · rcases ih h with h | h
          · exact .inl h
          · exact .inr (.inr h)

theorem place_ascending (k : String) (v : α) {l : List (String × α)}
    (h : l.Pairwise (fun a b => Text.Before a.1 b.1)) :
    (place k v l).Pairwise (fun a b => Text.Before a.1 b.1) := by
  induction l with
  | nil => simp [place]
  | cons hd tl ih =>
    obtain ⟨k', v'⟩ := hd
    obtain ⟨hhd, htl⟩ := List.pairwise_cons.1 h
    unfold place
    split
    · rename_i he
      subst he
      exact List.pairwise_cons.2 ⟨hhd, htl⟩
    · rename_i hne
      split
      · rename_i hb
        refine List.pairwise_cons.2 ⟨?_, h⟩
        intro e he
        rcases List.mem_cons.1 he with rfl | he
        · exact hb
        · exact hb.trans (hhd e he)
      · rename_i hb
        refine List.pairwise_cons.2 ⟨?_, ih htl⟩
        intro e he
        rcases mem_place he with rfl | he
        · exact Text.Before.of_not (Ne.symm hne) hb
        · exact hhd e he

def empty : Table α := ⟨[], .nil⟩

instance : Inhabited (Table α) := ⟨empty⟩

def get? (t : Table α) (k : String) : Option α :=
  find k t.entries

/-- Binds a key, in place of what it was bound to. -/
def insert (t : Table α) (k : String) (v : α) : Table α :=
  ⟨place k v t.entries, place_ascending k v t.ascending⟩

/-- Keeps the entries that satisfy a test. -/
def filter (t : Table α) (keep : String → α → Bool) : Table α :=
  ⟨t.entries.filter (fun e => keep e.1 e.2), t.ascending.filter _⟩

def erase (t : Table α) (k : String) : Table α :=
  t.filter (fun k' _ => k' != k)

def keys (t : Table α) : List String :=
  t.entries.map Prod.fst

/-- The table of a list of pairs, the last pair of a key winning. -/
def ofList (l : List (String × α)) : Table α :=
  l.foldl (fun t e => t.insert e.1 e.2) empty

theorem find_place_self (k : String) (v : α) (l : List (String × α)) :
    find k (place k v l) = some v := by
  induction l with
  | nil => simp [place, find]
  | cons hd tl ih =>
    obtain ⟨k', v'⟩ := hd
    unfold place
    split
    · simp [find]
    · split
      · simp [find]
      · rename_i hne _
        simp [find, hne, ih]

theorem find_place_other {k k' : String} (hne : k' ≠ k) (v : α) (l : List (String × α)) :
    find k' (place k v l) = find k' l := by
  induction l with
  | nil => simp [place, find, Ne.symm hne]
  | cons hd tl ih =>
    obtain ⟨k'', v'⟩ := hd
    unfold place
    split
    · rename_i he
      subst he
      simp [find, Ne.symm hne]
    · split
      · simp [find, Ne.symm hne]
      · simp [find, ih]

theorem find_eq_none {k : String} {l : List (String × α)} (h : ∀ e ∈ l, e.1 ≠ k) :
    find k l = none := by
  induction l with
  | nil => rfl
  | cons hd tl ih =>
    have hhd := h hd (by simp)
    simp [find, hhd, ih (fun e he => h e (by simp [he]))]

@[simp] theorem get?_empty (k : String) : (empty : Table α).get? k = none := rfl

@[simp] theorem get?_insert_self (t : Table α) (k : String) (v : α) :
    (t.insert k v).get? k = some v :=
  find_place_self k v t.entries

theorem get?_insert_other (t : Table α) {k k' : String} (hne : k' ≠ k) (v : α) :
    (t.insert k v).get? k' = t.get? k' :=
  find_place_other hne v t.entries

/-- Look-up after a binding. -/
theorem get?_insert (t : Table α) (k k' : String) (v : α) :
    (t.insert k v).get? k' = if k' = k then some v else t.get? k' := by
  split
  · rename_i h
    subst h
    exact get?_insert_self t k' v
  · rename_i h
    exact get?_insert_other t h v

/-- Look-up among the entries kept by a test. -/
theorem get?_filter (t : Table α) (keep : String → α → Bool) (k : String) :
    (t.filter keep).get? k = (t.get? k).filter (keep k) := by
  obtain ⟨l, asc⟩ := t
  show find k (l.filter _) = (find k l).filter (keep k)
  induction l with
  | nil => rfl
  | cons hd tl ih =>
    obtain ⟨k', v'⟩ := hd
    obtain ⟨hhd, htl⟩ := List.pairwise_cons.1 asc
    by_cases he : k' = k
    · subst he
      have hnone : find k' tl = none := find_eq_none (fun e he => (hhd e he).ne.symm)
      by_cases hk : keep k' v' = true
      · simp [find, hk, Option.filter]
      · have := ih htl
        simp only [hnone, Option.filter_none] at this
        simp [find, hk, this, Option.filter]
    · by_cases hk : keep k' v' = true
      · simp [find, hk, he, ih htl]
      · simp [find, hk, he, ih htl]

/-- Look-up after unbinding. -/
theorem get?_erase (t : Table α) (k k' : String) :
    (t.erase k).get? k' = if k' = k then none else t.get? k' := by
  rw [erase, get?_filter]
  by_cases h : k' = k <;> cases t.get? k' <;> simp [h]

theorem find_tail_of_before {k : String} {l : List (String × α)}
    (h : ∀ e ∈ l, Text.Before k e.1) : find k l = none :=
  find_eq_none (fun e he => (h e he).ne.symm)

/-- Tables with the same look-ups are equal. -/
theorem ext {s t : Table α} (h : ∀ k, s.get? k = t.get? k) : s = t := by
  obtain ⟨ls, as⟩ := s
  obtain ⟨lt, at'⟩ := t
  replace h : ∀ k, find k ls = find k lt := h
  have : ls = lt := by
    induction ls generalizing lt with
    | nil =>
      cases lt with
      | nil => rfl
      | cons hd tl => have := h hd.1; simp [find] at this
    | cons hs ts ih =>
      cases lt with
      | nil => have := h hs.1; simp [find] at this
      | cons ht tt =>
        obtain ⟨ks, vs⟩ := hs
        obtain ⟨kt, vt⟩ := ht
        obtain ⟨hhs, hts⟩ := List.pairwise_cons.1 as
        obtain ⟨hht, htt⟩ := List.pairwise_cons.1 at'
        have hk : ks = kt := by
          by_cases hb : ks = kt
          · exact hb
          · exfalso
            by_cases hlt : Text.Before ks kt
            · have hn : find ks tt = none :=
                find_tail_of_before (fun e he => hlt.trans (hht e he))
              have := h ks
              simp [find, Ne.symm hb, hn] at this
            · have hgt := Text.Before.of_not hb hlt
              have hn : find kt ts = none :=
                find_tail_of_before (fun e he => hgt.trans (hhs e he))
              have := h kt
              simp [find, hb, hn] at this
        subst hk
        have hv : vs = vt := by simpa [find] using h ks
        subst hv
        have htail : ts = tt := by
          apply ih hts _ htt
          intro k
          by_cases he : ks = k
          · subst he
            rw [find_tail_of_before (fun e he => hhs e he),
              find_tail_of_before (fun e he => hht e he)]
          · simpa [find, he] using h k
        rw [htail]
  subst this
  rfl

end Table

end UnaryRpc
