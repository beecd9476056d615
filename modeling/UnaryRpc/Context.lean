import UnaryRpc.Text.Bytes
import UnaryRpc.Text.Inspect

namespace UnaryRpc

/-- A family of context keys: what each stores, how it is called, and its value until one is
set. -/
class ContextKeys (κ : Type) where
  Value : κ → Type
  name : κ → String
  default : (k : κ) → Value k

/-- A family without keys. -/
instance : ContextKeys Empty where
  Value := Empty.elim
  name := Empty.elim
  default k := k.elim

/-- Data that accompanies a request. The key alone tells entries apart, not its name or the type of
its value. -/
structure Context (κ : Type) [ContextKeys κ] where
  entries : List ((k : κ) × ContextKeys.Value k)
  distinct : (entries.map Sigma.fst).Nodup

/-- Whether a visitor wants to see more entries. -/
inductive Visit where
  | next
  | stop
deriving DecidableEq

namespace Context

open ContextKeys

variable {κ : Type} [ContextKeys κ]

def empty : Context κ := ⟨[], .nil⟩

instance : Inhabited (Context κ) := ⟨empty⟩

def size (c : Context κ) : Nat := c.entries.length

def isEmpty (c : Context κ) : Bool := c.entries.isEmpty

/-- Shows the entries to a visitor, with their names, until it stops. -/
def visitFrom {S : Type} (visitor : String → (k : κ) × Value k → StateM S Visit) :
    List ((k : κ) × Value k) → StateM S Unit
  | [] => pure ()
  | e :: rest => do
    match ← visitor (name e.1) e with
    | .stop => pure ()
    | .next => visitFrom visitor rest

/-- Shows every entry to a visitor, until it stops. -/
def forEach {S : Type} (c : Context κ)
    (visitor : String → (k : κ) × Value k → StateM S Visit) : StateM S Unit :=
  visitFrom visitor c.entries

/-- Inspection text: the names of the keys that are set, in byte order. -/
def inspect (c : Context κ) : String :=
  Inspect.set (((c.entries.map (fun e => name e.1)).mergeSort
    (fun a b => !decide (Text.Before b a))).map Inspect.quoted)

variable [DecidableEq κ]

/-- The first value under a key. -/
def find (k : κ) : List ((k : κ) × Value k) → Option (Value k)
  | [] => none
  | ⟨k', v⟩ :: rest => if h : k' = k then some (h ▸ v) else find k rest

/-- The value that is set for a key. -/
def get? (c : Context κ) (k : κ) : Option (Value k) := find k c.entries

/-- The value of a key: what is set, or its default. -/
def get (c : Context κ) (k : κ) : Value k := (c.get? k).getD (default k)

def contains (c : Context κ) (k : κ) : Bool := c.entries.any (fun e => e.1 == k)

/-- Sets a key, in place of what was set. -/
def set (c : Context κ) (k : κ) (v : Value k) : Context κ where
  entries := c.entries.filter (fun e => e.1 != k) ++ [⟨k, v⟩]
  distinct := by
    rw [List.map_append, List.nodup_append]
    refine ⟨(c.distinct.sublist (List.filter_sublist.map _)), by simp, ?_⟩
    intro a ha b hb
    simp only [List.map_cons, List.map_nil, List.mem_cons, List.not_mem_nil, or_false] at hb
    subst hb
    obtain ⟨e, he, rfl⟩ := List.mem_map.1 ha
    simpa using (List.mem_filter.1 he).2

theorem find_append (k : κ) (xs ys : List ((k : κ) × Value k)) :
    find k (xs ++ ys) = (find k xs).or (find k ys) := by
  induction xs with
  | nil => simp [find]
  | cons e rest ih =>
    obtain ⟨k', v⟩ := e
    by_cases h : k' = k
    · subst h
      simp [find]
    · simp [find, h, ih]

theorem find_filter_self (k : κ) (xs : List ((k : κ) × Value k)) :
    find k (xs.filter (fun e => e.1 != k)) = none := by
  induction xs with
  | nil => rfl
  | cons e rest ih =>
    obtain ⟨k', v⟩ := e
    by_cases h : k' = k <;> simp [find, h, ih]

theorem find_filter_other {k k' : κ} (hne : k' ≠ k) (xs : List ((k : κ) × Value k)) :
    find k' (xs.filter (fun e => e.1 != k)) = find k' xs := by
  induction xs with
  | nil => rfl
  | cons e rest ih =>
    obtain ⟨k'', v⟩ := e
    by_cases h : k'' = k
    · subst h
      simp [find, Ne.symm hne, ih]
    · by_cases h' : k'' = k'
      · subst h'
        simp [find, h]
      · simp [find, h, h', ih]

@[simp] theorem get?_set_self (c : Context κ) (k : κ) (v : Value k) :
    (c.set k v).get? k = some v := by
  simp [get?, set, find_append, find_filter_self, find]

theorem get?_set_other (c : Context κ) {k k' : κ} (hne : k' ≠ k) (v : Value k) :
    (c.set k v).get? k' = c.get? k' := by
  simp [get?, set, find_append, find_filter_other hne, find, Ne.symm hne]

end Context

end UnaryRpc
