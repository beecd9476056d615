import Mathlib.Data.List.Dedup
import UnaryRpc.Context

namespace UnaryRpc

open ContextKeys

/-- A value whose type is known only when it is asked for. -/
structure Boxed where
  type : Type
  content : type

namespace Boxed

open Classical in
/-- What is in a box, if it has the type that is asked for. -/
noncomputable def open? (b : Boxed) (α : Type) : Option α :=
  if h : b.type = α then some (h ▸ b.content) else none

theorem open?_self (α : Type) (x : α) : (Boxed.mk α x).open? α = some x := by
  simp [open?]

end Boxed

/-- What is kept under a key if the key is forgotten: its name, and a box. -/
structure Shelf where
  name : String
  box : Boxed

variable {κ : Type} [ContextKeys κ]

/-- A box for the value of a key. -/
def Shelf.ofValue (k : κ) (v : Value k) : Shelf := ⟨ContextKeys.name k, ⟨Value k, v⟩⟩

/-- A context that keeps boxes, so that nothing ties the type in a box to its key. -/
def Cabinet (κ : Type) : Type 1 := κ → Option Shelf

namespace Cabinet

def contains (s : Cabinet κ) (k : κ) : Bool := (s k).isSome

/-- The value under a key, if the box there has the type of the key. -/
noncomputable def get? (s : Cabinet κ) (k : κ) : Option (Value k) :=
  (s k).bind (fun shelf => shelf.box.open? (Value k))

variable [DecidableEq κ]

def set (s : Cabinet κ) (k : κ) (v : Value k) : Cabinet κ :=
  fun k' => if k' = k then some (.ofValue k v) else s k'

/-- The cabinet after values are set one after another. -/
def ofSets (sets : List ((k : κ) × Value k)) : Cabinet κ :=
  sets.foldl (fun s e => s.set e.1 e.2) (fun _ => none)

end Cabinet

namespace Context

/-- Entries that a visitor is shown one after another, and after each of which it wants more. -/
inductive Shown {S : Type} (visitor : String → (k : κ) × Value k → StateM S Visit) :
    List ((k : κ) × Value k) → S → S → Prop
  | nil (s : S) : Shown visitor [] s s
  | cons {e : (k : κ) × Value k} {es : List ((k : κ) × Value k)} {s t s' : S}
      (first : (visitor (name e.1) e).run s = (.next, t)) (others : Shown visitor es t s') :
      Shown visitor (e :: es) s s'

/-- A visit that shows all entries, or all up to the first after which the visitor stops. -/
def Visited {S : Type} (visitor : String → (k : κ) × Value k → StateM S Visit)
    (entries : List ((k : κ) × Value k)) (s s' : S) : Prop :=
  Shown visitor entries s s' ∨
    ∃ before e after t, entries = before ++ e :: after ∧ Shown visitor before s t ∧
      (visitor (name e.1) e).run t = (.stop, s')

theorem visitFrom_visited {S : Type} (visitor : String → (k : κ) × Value k → StateM S Visit)
    (entries : List ((k : κ) × Value k)) (s : S) :
    Visited visitor entries s ((visitFrom visitor entries).run s).2 := by
  induction entries generalizing s with
  | nil => exact .inl (.nil s)
  | cons e es ih =>
    have hrun : ((visitFrom visitor (e :: es)).run s).2 =
        match (visitor (name e.1) e).run s with
        | (.stop, t) => t
        | (.next, t) => ((visitFrom visitor es).run t).2 := by
      rw [visitFrom, StateT.run_bind]
      cases h : (visitor (name e.1) e).run s with
      | mk visit t => cases visit <;> rfl
    rw [hrun]
    rcases h : (visitor (name e.1) e).run s with ⟨_ | _, t⟩
    · rcases ih t with hall | ⟨before, e', after, t', hes, hbefore, hstop⟩
      · exact .inl (.cons h hall)
      · exact .inr ⟨e :: before, e', after, t', by rw [hes, List.cons_append],
          .cons h hbefore, hstop⟩
    · exact .inr ⟨[], e, es, s, rfl, .nil s, h⟩

theorem isEmpty_iff (c : Context κ) : c.isEmpty = true ↔ c.size = 0 := by
  simp [isEmpty, size]

variable [DecidableEq κ]

/-- The context after values are set one after another. -/
def ofSets (sets : List ((k : κ) × Value k)) : Context κ :=
  sets.foldl (fun c e => c.set e.1 e.2) empty

/-- A value is set for a key, and nothing is set for that key afterwards. -/
def SetLast (k : κ) (v : Value k) (sets : List ((k : κ) × Value k)) : Prop :=
  ∃ before after, sets = before ++ ⟨k, v⟩ :: after ∧ ∀ e ∈ after, e.1 ≠ k

theorem find_eq_some_iff (k : κ) (v : Value k) (entries : List ((k : κ) × Value k)) :
    find k entries = some v ↔
      ∃ before after, entries = before ++ ⟨k, v⟩ :: after ∧ ∀ e ∈ before, e.1 ≠ k := by
  induction entries with
  | nil => simp [find]
  | cons e es ih =>
    obtain ⟨k', w⟩ := e
    by_cases h : k' = k
    · subst h
      simp only [find, ↓reduceDIte, Option.some.injEq]
      constructor
      · rintro rfl
        exact ⟨[], es, rfl, by simp⟩
      · rintro ⟨_ | ⟨e, before⟩, after, heq, hbefore⟩
        · simp only [List.nil_append, List.cons.injEq, Sigma.mk.injEq, heq_eq_eq, true_and] at heq
          exact heq.1
        · simp only [List.cons_append, List.cons.injEq] at heq
          exact absurd (congrArg Sigma.fst heq.1).symm (hbefore e (by simp))
    · simp only [find, h, ↓reduceDIte, ih]
      constructor
      · rintro ⟨before, after, rfl, hbefore⟩
        exact ⟨⟨k', w⟩ :: before, after, rfl, by simpa [h] using hbefore⟩
      · rintro ⟨_ | ⟨e, before⟩, after, heq, hbefore⟩
        · simp only [List.nil_append, List.cons.injEq] at heq
          exact absurd (congrArg Sigma.fst heq.1) h
        · simp only [List.cons_append, List.cons.injEq] at heq
          exact ⟨before, after, heq.2, fun e he => hbefore e (by simp [he])⟩

theorem find_eq_none_iff (k : κ) (entries : List ((k : κ) × Value k)) :
    find k entries = none ↔ ∀ e ∈ entries, e.1 ≠ k := by
  induction entries with
  | nil => simp [find]
  | cons e es ih =>
    obtain ⟨k', w⟩ := e
    by_cases h : k' = k
    · subst h
      simp [find]
    · simp [find, h, ih]

/-- Each key has the value set last for it. -/
theorem get?_foldl_set (sets : List ((k : κ) × Value k)) (c : Context κ) (k : κ) :
    (sets.foldl (fun c e => c.set e.1 e.2) c).get? k = (find k sets.reverse).or (c.get? k) := by
  induction sets generalizing c with
  | nil => simp [find]
  | cons e sets ih =>
    obtain ⟨k', v⟩ := e
    rw [List.foldl_cons, ih, List.reverse_cons, find_append]
    by_cases h : k = k'
    · subst h
      simp [find]
    · simp [find, get?_set_other c h, Ne.symm h]

theorem get?_ofSets (sets : List ((k : κ) × Value k)) (k : κ) :
    (ofSets sets).get? k = find k sets.reverse := by
  rw [ofSets, get?_foldl_set]
  exact Option.or_none

theorem get?_ofSets_eq_some_iff (sets : List ((k : κ) × Value k)) (k : κ) (v : Value k) :
    (ofSets sets).get? k = some v ↔ SetLast k v sets := by
  rw [get?_ofSets, find_eq_some_iff]
  constructor
  · rintro ⟨before, after, heq, hbefore⟩
    refine ⟨after.reverse, before.reverse, ?_, by simpa using hbefore⟩
    simpa using congrArg List.reverse heq
  · rintro ⟨before, after, rfl, hafter⟩
    exact ⟨after.reverse, before.reverse, by simp, by simpa using hafter⟩

theorem get?_ofSets_eq_none_iff (sets : List ((k : κ) × Value k)) (k : κ) :
    (ofSets sets).get? k = none ↔ ∀ e ∈ sets, e.1 ≠ k := by
  simp [get?_ofSets, find_eq_none_iff]

/-- A key is there exactly if it has a value. -/
theorem contains_eq_isSome (c : Context κ) (k : κ) : c.contains k = (c.get? k).isSome := by
  have hiff : c.contains k = true ↔ (c.get? k).isSome = true := by
    rw [Option.isSome_iff_ne_none, get?, Ne, find_eq_none_iff]
    simp [contains]
  exact Bool.eq_iff_iff.mpr hiff

/-- The entries are the keys that have a value, with that value. -/
theorem mem_entries_iff (c : Context κ) (k : κ) (v : Value k) :
    ⟨k, v⟩ ∈ c.entries ↔ c.get? k = some v := by
  rw [get?, find_eq_some_iff]
  constructor
  · intro h
    obtain ⟨before, after, heq⟩ := List.append_of_mem h
    refine ⟨before, after, heq, ?_⟩
    have hdistinct := c.distinct
    rw [heq, List.map_append, List.map_cons] at hdistinct
    intro e he hk
    exact (List.nodup_append.mp hdistinct).2.2 e.1 (List.mem_map_of_mem he) k (by simp) hk
  · rintro ⟨before, after, heq, -⟩
    rw [heq]
    simp

theorem mem_keys_iff (c : Context κ) (k : κ) :
    k ∈ c.entries.map Sigma.fst ↔ ∃ v, c.get? k = some v := by
  constructor
  · intro h
    obtain ⟨⟨k', v⟩, he, rfl⟩ := List.mem_map.mp h
    exact ⟨v, (mem_entries_iff c k' v).mp he⟩
  · rintro ⟨v, hv⟩
    exact List.mem_map.mpr ⟨⟨k, v⟩, (mem_entries_iff c k v).mpr hv, rfl⟩

/-- As many keys are there as different ones were set. -/
theorem size_ofSets (sets : List ((k : κ) × Value k)) :
    (ofSets sets).size = (sets.map Sigma.fst).dedup.length := by
  have hkeys : ((ofSets sets).entries.map Sigma.fst).Perm (sets.map Sigma.fst).dedup := by
    rw [List.perm_ext_iff_of_nodup (ofSets sets).distinct (List.nodup_dedup _)]
    intro k
    rw [mem_keys_iff, ← Option.ne_none_iff_exists', Ne, get?_ofSets_eq_none_iff, List.mem_dedup]
    simp
  simpa [size] using hkeys.length_eq

/-- A cabinet has a box for every key that has a value, with that value, and no other boxes. -/
theorem cabinet_eq (sets : List ((k : κ) × Value k)) (k : κ) :
    Cabinet.ofSets sets k = ((ofSets sets).get? k).map (Shelf.ofValue k) := by
  -- one value more is set in both; the start is left open for the induction
  have hfold : ∀ (s : Cabinet κ) (c : Context κ),
      (∀ k, s k = (c.get? k).map (Shelf.ofValue k)) →
      ∀ k, sets.foldl (fun s e => s.set e.1 e.2) s k =
        ((sets.foldl (fun c e => c.set e.1 e.2) c).get? k).map (Shelf.ofValue k) := by
    induction sets with
    | nil => exact fun s c h => h
    | cons e sets ih =>
      intro s c h
      refine ih (s.set e.1 e.2) (c.set e.1 e.2) ?_
      intro k
      by_cases hk : k = e.1
      · subst hk
        simp [Cabinet.set]
      · simp [Cabinet.set, hk, get?_set_other c hk, h k]
  exact hfold (fun _ => none) empty (fun _ => rfl) k

theorem cabinet_get? (sets : List ((k : κ) × Value k)) (k : κ) :
    (Cabinet.ofSets sets).get? k = (ofSets sets).get? k := by
  rw [Cabinet.get?, cabinet_eq]
  cases (ofSets sets).get? k with
  | none => rfl
  | some v => exact Boxed.open?_self (Value k) v

/-- Whatever is asked of a context after values were set in it, the answer follows from the value set
last for each key. The same shows if the values are kept in boxes that forget their types. -/
theorem ofSets_observations (sets : List ((k : κ) × Value k)) :
    let c := ofSets sets
    (∀ k v, SetLast k v sets → c.get? k = some v ∧ c.get k = v ∧ c.contains k = true) ∧
    (∀ k, (∀ e ∈ sets, e.1 ≠ k) →
      c.get? k = none ∧ c.get k = default k ∧ c.contains k = false) ∧
    (∀ k, c.contains k = (c.get? k).isSome) ∧
    (∀ k v k', k' ≠ k → (c.set k v).get? k' = c.get? k' ∧ (c.set k v).get k' = c.get k' ∧
      (c.set k v).contains k' = c.contains k') ∧
    (∀ k, (Cabinet.ofSets sets).contains k = c.contains k ∧
      (Cabinet.ofSets sets).get? k = c.get? k ∧
      ∀ shelf, Cabinet.ofSets sets k = some shelf →
        shelf.name = name k ∧ ∃ v, shelf.box.open? (Value k) = some v) ∧
    c.size = (sets.map Sigma.fst).dedup.length ∧ (c.isEmpty = true ↔ c.size = 0) ∧
    (∀ (S : Type) (visitor : String → (k : κ) × Value k → StateM S Visit) (s : S),
      Visited visitor c.entries s ((c.forEach visitor).run s).2) ∧
    ∀ entries, entries.Perm c.entries →
      (entries.map Sigma.fst).Nodup ∧ entries.length = c.size ∧
      (∀ k v, ⟨k, v⟩ ∈ entries ↔ SetLast k v sets) ∧
      ∀ (S : Type) (visitor : String → (k : κ) × Value k → StateM S Visit) (s : S),
        Visited visitor entries s ((visitFrom visitor entries).run s).2 := by
  intro c
  refine ⟨?_, ?_, contains_eq_isSome c, ?_, ?_, size_ofSets sets, isEmpty_iff c,
    fun S visitor s => visitFrom_visited visitor c.entries s, ?_⟩
  · intro k v hlast
    have hget : c.get? k = some v := (get?_ofSets_eq_some_iff sets k v).mpr hlast
    exact ⟨hget, by rw [get, hget, Option.getD_some], by rw [contains_eq_isSome, hget]; rfl⟩
  · intro k hunset
    have hget : c.get? k = none := (get?_ofSets_eq_none_iff sets k).mpr hunset
    exact ⟨hget, by rw [get, hget, Option.getD_none], by rw [contains_eq_isSome, hget]; rfl⟩
  · intro k v k' hne
    have hget : (c.set k v).get? k' = c.get? k' := get?_set_other c hne v
    exact ⟨hget, by rw [get, get, hget], by rw [contains_eq_isSome, contains_eq_isSome, hget]⟩
  · intro k
    refine ⟨?_, cabinet_get? sets k, ?_⟩
    · rw [Cabinet.contains, cabinet_eq, Option.isSome_map, contains_eq_isSome]
    · intro shelf hshelf
      rw [cabinet_eq] at hshelf
      obtain ⟨v, -, rfl⟩ := Option.map_eq_some_iff.mp hshelf
      exact ⟨rfl, v, Boxed.open?_self (Value k) v⟩
  · intro entries hperm
    refine ⟨(hperm.map Sigma.fst).nodup_iff.mpr c.distinct, hperm.length_eq, ?_, ?_⟩
    · intro k v
      rw [hperm.mem_iff, mem_entries_iff, get?_ofSets_eq_some_iff]
    · exact fun S visitor s => visitFrom_visited visitor entries s

end Context

end UnaryRpc
