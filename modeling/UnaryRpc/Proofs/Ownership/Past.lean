import UnaryRpc.Ownership.Heap

namespace UnaryRpc.Heap

variable {α : Type}

theorem getElem?_append_singleton {β : Type} (l : List β) (x : β) (k : Nat) :
    (l ++ [x])[k]? = if k = l.length then some x else l[k]? := by
  by_cases hk : k = l.length
  · simp [hk]
  · rw [if_neg hk]
    rcases Nat.lt_or_gt_of_ne hk with hlt | hgt
    · rw [List.getElem?_append_left hlt]
    · rw [List.getElem?_eq_none (Nat.le_of_lt hgt), List.getElem?_eq_none]
      rw [List.length_append, List.length_singleton]
      exact hgt

namespace Step

/-- The arena, if there is one, and the first value of the object that a step creates. -/
def created? : Step α → Option (Option Nat × α)
  | .alloc a x => some (some a, x)
  | .newIn a? x => some (a?, x)
  | .independent x => some (none, x)
  | _ => none

def opens : Step α → Bool
  | .newArena => true
  | _ => false

def givesUp (handle : Nat) : Step α → Bool
  | .release h => h == handle
  | _ => false

def closes (arena : Nat) : Step α → Bool
  | .releaseArena a => a == arena
  | _ => false

/-- What a step writes through a handle. -/
def change? (handle : Nat) : Step α → Option (α → α)
  | .modify h f => if h = handle then some f else none
  | _ => none

end Step

namespace Past

/-- The objects that were created, each with its arena and its first value. -/
def creations (past : List (Step α)) : List (Option Nat × α) :=
  past.filterMap Step.created?

/-- How many arenas were created. -/
def opened (past : List (Step α)) : Nat :=
  past.countP Step.opens

def givenUp (past : List (Step α)) (handle : Nat) : Bool :=
  past.any (Step.givesUp handle)

def closed (past : List (Step α)) (arena : Nat) : Bool :=
  past.any (Step.closes arena)

/-- What was written through a handle, in order. -/
def changes (past : List (Step α)) (handle : Nat) : List (α → α) :=
  past.filterMap (Step.change? handle)

/-- Whether a handle was created and not given up. -/
def handleLive (past : List (Step α)) (handle : Nat) : Bool :=
  handle < (creations past).length && !givenUp past handle

/-- Whether an arena was created and not released. -/
def arenaLive (past : List (Step α)) (arena : Nat) : Bool :=
  arena < opened past && !closed past arena

/-- The arena that an object was allocated in. -/
def arenaOf? (past : List (Step α)) (object : Nat) : Option Nat :=
  (creations past)[object]?.bind Prod.fst

def ownershipOf (past : List (Step α)) (object : Nat) : Ownership :=
  if (arenaOf? past object).isSome then .bound else .independent

/-- The objects allocated in an arena, in order. -/
def allocated (past : List (Step α)) (arena : Nat) : List Nat :=
  (List.range (creations past).length).filter (fun object => arenaOf? past object == some arena)

/-- Whether a live handle or a live arena holds an object. -/
def held (past : List (Step α)) (object : Nat) : Bool :=
  handleLive past object || (arenaOf? past object).any (arenaLive past)

/-- The value of an object: its first value if it was allocated in an arena, and otherwise what was
made of it through its handle since. -/
def value? (past : List (Step α)) (object : Nat) : Option α :=
  (creations past)[object]?.map (fun created =>
    match created.1 with
    | some _ => created.2
    | none => (changes past object).foldl (fun x f => f x) created.2)

/-- Steps that name only what was created before them. -/
structure Sound (past : List (Step α)) : Prop where
  givenUp_created : ∀ h, givenUp past h = true → h < (creations past).length
  changed_created : ∀ h, changes past h ≠ [] → h < (creations past).length
  closed_opened : ∀ a, closed past a = true → a < opened past
  arena_opened : ∀ object a, arenaOf? past object = some a → a < opened past

section

variable {past : List (Step α)} {s : Step α} {object handle a : Nat}

@[simp] theorem creations_append (past : List (Step α)) (s : Step α) :
    creations (past ++ [s]) = creations past ++ s.created?.toList := by
  rw [creations, List.filterMap_append]
  cases hs : s.created? <;> simp [creations, hs]

@[simp] theorem opened_append (past : List (Step α)) (s : Step α) :
    opened (past ++ [s]) = opened past + s.opens.toNat := by
  rw [opened, List.countP_append]
  cases hs : s.opens <;> simp [opened, hs]

@[simp] theorem givenUp_append (past : List (Step α)) (s : Step α) (h : Nat) :
    givenUp (past ++ [s]) h = (givenUp past h || s.givesUp h) := by
  simp [givenUp]

@[simp] theorem closed_append (past : List (Step α)) (s : Step α) (a : Nat) :
    closed (past ++ [s]) a = (closed past a || s.closes a) := by
  simp [closed]

@[simp] theorem changes_append (past : List (Step α)) (s : Step α) (h : Nat) :
    changes (past ++ [s]) h = changes past h ++ (s.change? h).toList := by
  rw [changes, List.filterMap_append]
  cases hs : s.change? h <;> simp [changes, hs]

theorem lt_of_handleLive (h : handleLive past handle = true) :
    handle < (creations past).length := by
  simp only [handleLive, Bool.and_eq_true, decide_eq_true_eq] at h
  exact h.1

theorem lt_of_arenaLive (h : arenaLive past a = true) : a < opened past := by
  simp only [arenaLive, Bool.and_eq_true, decide_eq_true_eq] at h
  exact h.1

theorem lt_of_arenaOf? (h : arenaOf? past object = some a) : object < (creations past).length := by
  obtain ⟨created, hcreated, _⟩ := Option.bind_eq_some_iff.mp h
  exact (List.getElem?_eq_some_iff.mp hcreated).1

theorem held_iff : held past object = true ↔
    handleLive past object = true ∨
      ∃ a, arenaOf? past object = some a ∧ arenaLive past a = true := by
  simp only [held, Bool.or_eq_true, Option.any_eq_true]

theorem lt_of_held (h : held past object = true) : object < (creations past).length := by
  rcases held_iff.mp h with h | ⟨a, ha, _⟩
  · exact lt_of_handleLive h
  · exact lt_of_arenaOf? ha

@[simp] theorem mem_allocated : object ∈ allocated past a ↔ arenaOf? past object = some a := by
  simp only [allocated, List.mem_filter, List.mem_range, beq_iff_eq, and_iff_right_iff_imp]
  exact lt_of_arenaOf?

theorem allocated_ascending (past : List (Step α)) (a : Nat) :
    (allocated past a).Pairwise (· < ·) :=
  List.pairwise_lt_range.filter _

theorem value?_isSome (h : object < (creations past).length) : (value? past object).isSome := by
  simp [value?, h]

/-- An object stays in the arena that it was allocated in. -/
theorem arenaOf?_append (h : object < (creations past).length) :
    arenaOf? (past ++ [s]) object = arenaOf? past object := by
  rw [arenaOf?, creations_append, List.getElem?_append_left h, arenaOf?]

/-- Only the step that creates an object allocates it. -/
theorem created?_of_arenaOf?_append (h : (creations past).length ≤ object)
    (ha : arenaOf? (past ++ [s]) object = some a) : ∃ x, s.created? = some (some a, x) := by
  obtain ⟨⟨arena, x⟩, hcreated, harena⟩ := Option.bind_eq_some_iff.mp ha
  rw [creations_append, List.getElem?_append_right h] at hcreated
  have hmem := List.mem_of_getElem? hcreated
  obtain rfl : arena = some a := harena
  exact ⟨x, by simpa using hmem⟩

/-- What is not live any more does not come to life. -/
theorem handleLive_of_append (h : handle < (creations past).length)
    (hlive : handleLive (past ++ [s]) handle = true) : handleLive past handle = true := by
  simp only [handleLive, givenUp_append, Bool.not_or, Bool.and_eq_true, decide_eq_true_eq]
    at hlive ⊢
  exact ⟨h, hlive.2.1⟩

theorem arenaLive_of_append (h : a < opened past) (hlive : arenaLive (past ++ [s]) a = true) :
    arenaLive past a = true := by
  simp only [arenaLive, closed_append, Bool.not_or, Bool.and_eq_true, decide_eq_true_eq] at hlive ⊢
  exact ⟨h, hlive.2.1⟩

theorem held_of_append (hsound : Sound past) (h : object < (creations past).length)
    (hheld : held (past ++ [s]) object = true) : held past object = true := by
  rw [held_iff, arenaOf?_append h] at hheld
  rcases hheld with hlive | ⟨a, ha, hlive⟩
  · exact held_iff.mpr (.inl (handleLive_of_append h hlive))
  · exact held_iff.mpr (.inr ⟨a, ha, arenaLive_of_append (hsound.arena_opened object a ha) hlive⟩)

/-- Only what a step gives up ends with it. -/
theorem handleLive_append (hlive : handleLive past handle = true) (hs : s.givesUp handle = false) :
    handleLive (past ++ [s]) handle = true := by
  simp only [handleLive, givenUp_append, hs, Bool.or_false, Bool.and_eq_true, decide_eq_true_eq,
    creations_append, List.length_append] at hlive ⊢
  exact ⟨by omega, hlive.2⟩

theorem arenaLive_append (hlive : arenaLive past a = true) (hs : s.closes a = false) :
    arenaLive (past ++ [s]) a = true := by
  simp only [arenaLive, closed_append, hs, Bool.or_false, Bool.and_eq_true, decide_eq_true_eq,
    opened_append] at hlive ⊢
  exact ⟨by omega, hlive.2⟩

theorem held_append (hgivesUp : ∀ h, s.givesUp h = false) (hcloses : ∀ a, s.closes a = false)
    (hheld : held past object = true) : held (past ++ [s]) object = true := by
  rw [held_iff, arenaOf?_append (lt_of_held hheld)]
  rcases held_iff.mp hheld with hlive | ⟨a, ha, hlive⟩
  · exact .inl (handleLive_append hlive (hgivesUp object))
  · exact .inr ⟨a, ha, arenaLive_append hlive (hcloses a)⟩

end

/-- What a step names is live. -/
def Applicable (past : List (Step α)) : Step α → Prop
  | .newArena | .newIn none _ | .independent _ => True
  | .alloc a _ | .newIn (some a) _ | .releaseArena a | .inspect a => arenaLive past a = true
  | .modify h _ | .read h | .release h => handleLive past h = true

/-- An object is allocated only in an arena that is live. -/
theorem arenaLive_of_created {past : List (Step α)} {s : Step α} {a : Nat} {x : α}
    (hs : Applicable past s) (hcreated : s.created? = some (some a, x)) :
    arenaLive past a = true := by
  cases s with
  | alloc a' x' =>
    obtain ⟨rfl, rfl⟩ : a' = a ∧ x' = x := by simpa [Step.created?] using hcreated
    exact hs
  | newIn a? x' =>
    obtain ⟨rfl, rfl⟩ : a? = some a ∧ x' = x := by simpa [Step.created?] using hcreated
    exact hs
  | _ => simp [Step.created?] at hcreated

theorem sound_nil : Sound ([] : List (Step α)) := by
  constructor <;> simp [givenUp, changes, closed, arenaOf?, creations]

theorem Sound.append {past : List (Step α)} {s : Step α} (hsound : Sound past)
    (hs : Applicable past s) : Sound (past ++ [s]) := by
  constructor
  · intro h hgiven
    have hold : givenUp past h = true → h < (creations (past ++ [s])).length := by
      intro hpast
      have hlt := hsound.givenUp_created h hpast
      rw [creations_append, List.length_append]
      omega
    rw [givenUp_append, Bool.or_eq_true] at hgiven
    rcases hgiven with hgiven | hgiven
    · exact hold hgiven
    · cases s with
      | release h' =>
        obtain rfl : h' = h := by simpa [Step.givesUp] using hgiven
        have hlt := lt_of_handleLive hs
        simpa [Step.created?] using hlt
      | _ => simp [Step.givesUp] at hgiven
  · intro h hchanges
    rw [changes_append] at hchanges
    by_cases hpast : changes past h = []
    · cases s with
      | modify h' f =>
        have heq : h' = h := Decidable.byContradiction fun hne =>
          hchanges (by simp [hpast, Step.change?, hne])
        subst heq
        have hlt := lt_of_handleLive hs
        simpa [Step.created?] using hlt
      | _ => simp [hpast, Step.change?] at hchanges
    · have hlt := hsound.changed_created h hpast
      rw [creations_append, List.length_append]
      omega
  · intro a hclosed
    rw [closed_append, Bool.or_eq_true] at hclosed
    rcases hclosed with hclosed | hclosed
    · have hlt := hsound.closed_opened a hclosed
      rw [opened_append]
      omega
    · cases s with
      | releaseArena a' =>
        obtain rfl : a' = a := by simpa [Step.closes] using hclosed
        have hlt := lt_of_arenaLive hs
        simpa [Step.opens] using hlt
      | _ => simp [Step.closes] at hclosed
  · intro object a ha
    rw [opened_append]
    by_cases hold : object < (creations past).length
    · rw [arenaOf?_append hold] at ha
      have hlt := hsound.arena_opened object a ha
      omega
    · obtain ⟨x, hcreated⟩ := created?_of_arenaOf?_append (Nat.le_of_not_lt hold) ha
      have hlt := lt_of_arenaLive (arenaLive_of_created hs hcreated)
      omega

theorem Sound.fresh_handle {past : List (Step α)} (hsound : Sound past) {h : Nat}
    (hnew : (creations past).length ≤ h) : givenUp past h = false := by
  cases hgiven : givenUp past h with
  | false => rfl
  | true => exact absurd (hsound.givenUp_created h hgiven) (Nat.not_lt.mpr hnew)

theorem Sound.fresh_arena {past : List (Step α)} (hsound : Sound past) {a : Nat}
    (hnew : opened past ≤ a) : closed past a = false := by
  cases hclosed : closed past a with
  | false => rfl
  | true => exact absurd (hsound.closed_opened a hclosed) (Nat.not_lt.mpr hnew)

section

variable {past : List (Step α)} {s : Step α}

theorem creations_quiet (hs : s.created? = none) : creations (past ++ [s]) = creations past := by
  simp [hs]

theorem arenaOf?_quiet (hs : s.created? = none) (object : Nat) :
    arenaOf? (past ++ [s]) object = arenaOf? past object := by
  rw [arenaOf?, creations_quiet hs, arenaOf?]

theorem ownershipOf_quiet (hs : s.created? = none) (object : Nat) :
    ownershipOf (past ++ [s]) object = ownershipOf past object := by
  rw [ownershipOf, arenaOf?_quiet hs, ownershipOf]

theorem allocated_quiet (hs : s.created? = none) (a : Nat) :
    allocated (past ++ [s]) a = allocated past a := by
  simp only [allocated, creations_quiet hs, arenaOf?_quiet hs]

theorem handleLive_quiet (hs : s.created? = none) (h : Nat) :
    handleLive (past ++ [s]) h = (handleLive past h && !s.givesUp h) := by
  rw [handleLive, creations_quiet hs, givenUp_append, Bool.not_or, ← Bool.and_assoc, handleLive]

theorem arenaLive_quiet (hs : s.opens = false) (a : Nat) :
    arenaLive (past ++ [s]) a = (arenaLive past a && !s.closes a) := by
  simp [arenaLive, hs, Bool.and_assoc]

theorem held_quiet (hs : s.created? = none) (hopens : s.opens = false) (object : Nat) :
    held (past ++ [s]) object = (handleLive past object && !s.givesUp object ||
      (arenaOf? past object).any (fun a => arenaLive past a && !s.closes a)) := by
  rw [held, handleLive_quiet hs, arenaOf?_quiet hs, funext (arenaLive_quiet hopens)]

theorem value?_quiet (hs : s.created? = none) (object : Nat)
    (hchange : s.change? object = none ∨ arenaOf? past object ≠ none) :
    value? (past ++ [s]) object = value? past object := by
  rw [value?, creations_quiet hs, value?]
  cases hobject : (creations past)[object]? with
  | none => rfl
  | some created =>
    obtain ⟨arena, x⟩ := created
    cases arena with
    | some a => rfl
    | none =>
      have hnone : arenaOf? past object = none := by rw [arenaOf?, hobject]; rfl
      have hquiet : s.change? object = none := hchange.resolve_right (fun h => h hnone)
      simp [hquiet]

/-- Without an arena, an object is what was last made of it. -/
theorem value?_modify {object : Nat} {f : α → α} (harena : arenaOf? past object = none) :
    value? (past ++ [.modify object f]) object = (value? past object).map f := by
  have hchanges : changes (past ++ [.modify object f]) object = changes past object ++ [f] := by
    simp [Step.change?]
  rw [value?, hchanges, creations_quiet rfl, value?]
  cases hobject : (creations past)[object]? with
  | none => rfl
  | some created =>
    obtain ⟨arena, x⟩ := created
    obtain rfl : arena = none := by simpa [arenaOf?, hobject] using harena
    simp

end

section

variable {past : List (Step α)} {s : Step α} {a? : Option Nat} {x : α}

theorem created_quiet (hs : s.created? = some (a?, x)) :
    s.opens = false ∧ (∀ h, s.givesUp h = false) ∧ (∀ a, s.closes a = false) ∧
      ∀ h, s.change? h = none := by
  cases s with
  | alloc _ _ | newIn _ _ | independent _ =>
    exact ⟨rfl, fun _ => rfl, fun _ => rfl, fun _ => rfl⟩
  | _ => cases hs

theorem creations_created (hs : s.created? = some (a?, x)) :
    creations (past ++ [s]) = creations past ++ [(a?, x)] := by
  simp [hs]

theorem getElem?_created (hs : s.created? = some (a?, x)) (object : Nat) :
    (creations (past ++ [s]))[object]? =
      if object = (creations past).length then some (a?, x) else (creations past)[object]? := by
  rw [creations_created hs, getElem?_append_singleton]

theorem arenaOf?_created (hs : s.created? = some (a?, x)) (object : Nat) :
    arenaOf? (past ++ [s]) object =
      if object = (creations past).length then a? else arenaOf? past object := by
  rw [arenaOf?, getElem?_created hs]
  split
  · rfl
  · rfl

theorem allocated_created (hs : s.created? = some (a?, x)) (a : Nat) :
    allocated (past ++ [s]) a =
      allocated past a ++ if a? = some a then [(creations past).length] else [] := by
  rw [allocated, creations_created hs, List.length_append, List.length_singleton, List.range_succ,
    List.filter_append]
  congr 1
  · apply List.filter_congr
    intro object hobject
    have hne : object ≠ (creations past).length := Nat.ne_of_lt (List.mem_range.mp hobject)
    rw [arenaOf?_created hs, if_neg hne]
  · simp [List.filter_cons, arenaOf?_created hs]

theorem handleLive_created (hsound : Sound past) (hs : s.created? = some (a?, x)) (h : Nat) :
    handleLive (past ++ [s]) h =
      if h = (creations past).length then true else handleLive past h := by
  rw [handleLive, creations_created hs, givenUp_append, (created_quiet hs).2.1, Bool.or_false,
    List.length_append, List.length_singleton]
  by_cases hnew : h = (creations past).length
  · have hfresh : givenUp past h = false := hsound.fresh_handle (Nat.le_of_eq hnew.symm)
    rw [if_pos hnew, hfresh, decide_eq_true (by omega)]
    rfl
  · rw [if_neg hnew, handleLive]
    congr 1
    exact decide_eq_decide.mpr (by omega)

theorem arenaLive_created (hs : s.created? = some (a?, x)) (a : Nat) :
    arenaLive (past ++ [s]) a = arenaLive past a := by
  obtain ⟨hopens, _, hcloses, _⟩ := created_quiet hs
  rw [arenaLive_quiet hopens, hcloses, Bool.not_false, Bool.and_true]

theorem value?_created (hsound : Sound past) (hs : s.created? = some (a?, x)) (object : Nat) :
    value? (past ++ [s]) object =
      if object = (creations past).length then some x else value? past object := by
  have hchanges : changes (past ++ [s]) object = changes past object := by
    simp [(created_quiet hs).2.2.2]
  rw [value?, hchanges, getElem?_created hs]
  split
  case isTrue hnew =>
    have hfresh : changes past object = [] := Decidable.byContradiction fun hne =>
      absurd (hsound.changed_created object hne) (by omega)
    rw [hfresh]
    cases a? with
    | none => rfl
    | some a => rfl
  case isFalse => rfl

end

/-- A new arena is live and holds nothing. -/
theorem arenaLive_newArena {past : List (Step α)} (hsound : Sound past) (a : Nat) :
    arenaLive (past ++ [.newArena]) a = if a = opened past then true else arenaLive past a := by
  simp only [arenaLive, opened_append, closed_append, Step.opens, Step.closes, Bool.or_false,
    Bool.toNat_true]
  by_cases hnew : a = opened past
  · have hfresh : closed past a = false := hsound.fresh_arena (Nat.le_of_eq hnew.symm)
    rw [if_pos hnew, hfresh, decide_eq_true (by omega)]
    rfl
  · rw [if_neg hnew]
    congr 1
    exact decide_eq_decide.mpr (by omega)

theorem allocated_opened {past : List (Step α)} (hsound : Sound past) :
    allocated past (opened past) = [] := by
  apply List.eq_nil_iff_forall_not_mem.mpr
  intro object hmem
  exact absurd (hsound.arena_opened object _ (mem_allocated.mp hmem)) (Nat.lt_irrefl _)

end Past

end UnaryRpc.Heap
