import Mathlib.Data.List.Induction
import Mathlib.Data.Nat.Find
import UnaryRpc.Proofs.Ownership.Reflection

namespace UnaryRpc.Heap

variable {α : Type}

namespace Past

/-- What a step is answered. -/
def answer? (past : List (Step α)) : Step α → Option (Answer α)
  | .newArena => some (.number (opened past))
  | .alloc _ _ | .newIn _ _ | .independent _ => some (.number (creations past).length)
  | .modify h _ => some (.allowed (ownershipOf past h == .independent))
  | .read h => (value? past h).map (fun x => .value ⟨ownershipOf past h, x⟩)
  | .release _ => some .none
  | .releaseArena a => some (.number (allocated past a).length)
  | .inspect a => some (.arena ⟨allocated past a⟩)

/-- The objects that a step drops, in order: the one of a handle that no live arena keeps, or those
of an arena that no live handle keeps. -/
def drops (past : List (Step α)) : Step α → List Nat
  | .release h => if (arenaOf? past h).any (arenaLive past) then [] else [h]
  | .releaseArena a => (allocated past a).filter (fun object => !handleLive past object)
  | _ => []

/-- Every step names what is live when it is made. -/
def Valid (steps : List (Step α)) : Prop :=
  ∀ k s, steps[k]? = some s → Applicable (steps.take k) s

/-- A step is the first after which nothing holds an object that was created. -/
structure Ends (steps : List (Step α)) (object k : Nat) : Prop where
  created : object < (creations (steps.take (k + 1))).length
  unheld : held (steps.take (k + 1)) object = false
  first : ∀ j < k, object < (creations (steps.take (j + 1))).length →
    held (steps.take (j + 1)) object = true

section

variable {past steps : List (Step α)} {s : Step α} {object : Nat}

theorem drops_ascending (past : List (Step α)) (s : Step α) :
    (drops past s).Pairwise (· < ·) := by
  cases s with
  | release h =>
    rw [drops]
    split
    · exact .nil
    · exact List.pairwise_singleton _ _
  | releaseArena a => exact (allocated_ascending past a).filter _
  | _ => exact .nil

/-- A step drops exactly what is not held any more after it. -/
theorem mem_drops_iff (hs : Applicable past s) :
    object ∈ drops past s ↔ held past object = true ∧ held (past ++ [s]) object = false := by
  cases s with
  | release h =>
    have hlive : handleLive past h = true := hs
    rw [held_quiet rfl rfl, held]
    simp only [Step.givesUp, Step.closes, Bool.not_false, Bool.and_true, drops]
    by_cases hobject : h = object
    · subst hobject
      cases (arenaOf? past h).any (arenaLive past) <;> simp [hlive]
    · have hother : ¬ object = h := fun heq => hobject heq.symm
      cases (arenaOf? past h).any (arenaLive past) <;> cases handleLive past object <;>
        simp [hobject, hother]
  | releaseArena a =>
    have hlive : arenaLive past a = true := hs
    rw [held_quiet rfl rfl, held]
    simp only [Step.givesUp, Step.closes, Bool.not_false, Bool.and_true, drops, List.mem_filter,
      mem_allocated]
    cases harena : arenaOf? past object with
    | none => cases handleLive past object <;> simp
    | some a' =>
      by_cases ha : a = a'
      · subst ha
        simp [hlive]
      · have hother : ¬ a' = a := fun heq => ha heq.symm
        cases handleLive past object <;> cases arenaLive past a' <;> simp [ha, hother]
  | _ =>
    simp only [drops, List.not_mem_nil, false_iff, not_and, Bool.not_eq_false]
    exact held_append (fun _ => rfl) (fun _ => rfl)

/-- What a step creates is held after it. -/
theorem held_new (hsound : Sound past) (hnew : (creations past).length ≤ object)
    (hlt : object < (creations (past ++ [s])).length) : held (past ++ [s]) object = true := by
  cases hs : s.created? with
  | none =>
    rw [creations_quiet hs] at hlt
    omega
  | some created =>
    obtain ⟨a?, x⟩ := created
    rw [creations_created hs, List.length_append, List.length_singleton] at hlt
    have hobject : object = (creations past).length := by omega
    rw [held_iff, handleLive_created hsound hs, if_pos hobject]
    exact .inl rfl

theorem take_succ_of_getElem? {k : Nat} (hs : steps[k]? = some s) :
    steps.take (k + 1) = steps.take k ++ [s] := by
  rw [List.take_add_one, hs, Option.toList_some]

theorem creations_take_le {j k : Nat} (hjk : j ≤ k) :
    (creations (steps.take j)).length ≤ (creations (steps.take k)).length := by
  have htaken : steps.take j <+: steps.take k := List.take_prefix_take_left hjk
  exact (htaken.sublist.filterMap _).length_le

theorem valid_append : Valid (steps ++ [s]) ↔ Valid steps ∧ Applicable steps s := by
  constructor
  · intro hvalid
    constructor
    · intro k s' hs'
      have hk : k < steps.length := (List.getElem?_eq_some_iff.mp hs').1
      have happly := hvalid k s' (by rw [List.getElem?_append_left hk, hs'])
      rwa [List.take_append_of_le_length (Nat.le_of_lt hk)] at happly
    · have happly := hvalid steps.length s (by simp)
      rwa [List.take_append_of_le_length (Nat.le_refl _), List.take_length] at happly
  · rintro ⟨hvalid, hlast⟩ k s' hs'
    rcases Nat.lt_or_ge k steps.length with hk | hk
    · rw [List.getElem?_append_left hk] at hs'
      rw [List.take_append_of_le_length (Nat.le_of_lt hk)]
      exact hvalid k s' hs'
    · have hlt := (List.getElem?_eq_some_iff.mp hs').1
      rw [List.length_append, List.length_singleton] at hlt
      obtain rfl : k = steps.length := by omega
      obtain rfl : s = s' := by simpa using hs'
      rwa [List.take_append_of_le_length (Nat.le_refl _), List.take_length]

theorem Valid.sound (hvalid : Valid steps) : Sound steps := by
  induction steps using List.reverseRecOn with
  | nil => exact sound_nil
  | append_singleton steps s ih =>
    obtain ⟨hbefore, hs⟩ := valid_append.mp hvalid
    exact (ih hbefore).append hs

theorem Valid.take (hvalid : Valid steps) (k : Nat) : Valid (steps.take k) := by
  intro j s hs
  rw [List.getElem?_take] at hs
  split at hs
  case isTrue hj =>
    rw [List.take_take, Nat.min_eq_left (Nat.le_of_lt hj)]
    exact hvalid j s hs
  case isFalse => cases hs

/-- What is held later was held since it was created. -/
theorem Valid.held_take (hvalid : Valid steps) {j k : Nat} (hjk : j ≤ k)
    (hcreated : object < (creations (steps.take j)).length)
    (hheld : held (steps.take k) object = true) : held (steps.take j) object = true := by
  induction k, hjk using Nat.le_induction with
  | base => exact hheld
  | succ k hjk ih =>
    cases hs : steps[k]? with
    | none =>
      apply ih
      rwa [List.take_add_one, hs, Option.toList_none, List.append_nil] at hheld
    | some s =>
      rw [take_succ_of_getElem? hs] at hheld
      have hlt := Nat.lt_of_lt_of_le hcreated (creations_take_le hjk)
      exact ih (held_of_append (hvalid.take k).sound hlt hheld)

/-- The objects that a step drops are those that end with it. -/
theorem Valid.mem_drops_iff_ends (hvalid : Valid steps) {k : Nat} (hs : steps[k]? = some s) :
    object ∈ drops (steps.take k) s ↔ Ends steps object k := by
  rw [mem_drops_iff (hvalid k s hs), ← take_succ_of_getElem? hs]
  constructor
  · rintro ⟨hbefore, hafter⟩
    have hcreated := lt_of_held hbefore
    exact {
      created := Nat.lt_of_lt_of_le hcreated (creations_take_le (Nat.le_succ k))
      unheld := hafter
      first := fun j hj hold => hvalid.held_take hj hold hbefore }
  · intro hends
    refine ⟨?_, hends.unheld⟩
    rcases Nat.lt_or_ge object (creations (steps.take k)).length with hold | hnew
    · cases k with
      | zero => simp [creations] at hold
      | succ j => exact hends.first j (Nat.lt_succ_self j) hold
    · have hheld := held_new (s := s) (hvalid.take k).sound hnew
        (by rw [← take_succ_of_getElem? hs]; exact hends.created)
      rw [← take_succ_of_getElem? hs, hends.unheld] at hheld
      cases hheld

theorem Ends.unique {j k : Nat} (hj : Ends steps object j) (hk : Ends steps object k) : j = k := by
  rcases Nat.lt_trichotomy j k with hlt | heq | hgt
  · exact absurd (hk.first j hlt hj.created) (by simp [hj.unheld])
  · exact heq
  · exact absurd (hj.first k hgt hk.created) (by simp [hk.unheld])

theorem Valid.exists_ends_iff (hvalid : Valid steps)
    (hcreated : object < (creations steps).length) :
    (∃ k, Ends steps object k) ↔ held steps object = false := by
  constructor
  · rintro ⟨k, hends⟩
    cases hheld : held steps object with
    | false => rfl
    | true =>
      have hearlier : held (steps.take (k + 1)) object = true := by
        rcases Nat.le_total (k + 1) steps.length with hle | hge
        · exact hvalid.held_take hle hends.created (by rw [List.take_length]; exact hheld)
        · rw [List.take_of_length_le hge]; exact hheld
      rw [hends.unheld] at hearlier
      cases hearlier
  · intro hunheld
    have hexists : ∃ k, object < (creations (steps.take (k + 1))).length ∧
        held (steps.take (k + 1)) object = false := by
      refine ⟨steps.length, ?_⟩
      rw [List.take_of_length_le (Nat.le_succ _)]
      exact ⟨hcreated, hunheld⟩
    classical
    refine ⟨Nat.find hexists, (Nat.find_spec hexists).1, (Nat.find_spec hexists).2, ?_⟩
    intro j hj hlt
    have hearlier := Nat.find_min hexists hj
    simpa [hlt] using hearlier

end

end Past

open Past

/-- What the outcomes of some steps say of every object, handle and arena. -/
structure Lifetimes (steps : List (Step α)) (outcomes : List (Outcome α)) : Prop where
  length : outcomes.length = steps.length
  answered : ∀ k s outcome, steps[k]? = some s → outcomes[k]? = some outcome →
    some outcome.answer = answer? (steps.take k) s
  dropped : ∀ k s outcome, steps[k]? = some s → outcomes[k]? = some outcome →
    outcome.dropped.map some = (drops (steps.take k) s).map (Past.value? (steps.take k))
  ascending : ∀ k s, steps[k]? = some s → (drops (steps.take k) s).Pairwise (· < ·)
  ends : ∀ k s object, steps[k]? = some s → (object ∈ drops (steps.take k) s ↔ Ends steps object k)
  once : ∀ object j k, Ends steps object j → Ends steps object k → j = k
  unheld : ∀ object, object < (creations steps).length →
    ((∃ k, Ends steps object k) ↔ held steps object = false)
  settled : (∀ h, handleLive steps h = false) → (∀ a, arenaLive steps a = false) →
    ∀ object, object < (creations steps).length → ∃! k, Ends steps object k

theorem map_some_filterMap {β γ : Type} {f : β → Option γ} {l : List β}
    (h : ∀ x ∈ l, (f x).isSome) : (l.filterMap f).map some = l.map f := by
  induction l with
  | nil => rfl
  | cons x l ih =>
    obtain ⟨y, hy⟩ := Option.isSome_iff_exists.mp (h x (List.mem_cons_self ..))
    rw [List.filterMap_cons_some hy, List.map_cons, List.map_cons, hy,
      ih (fun x' hx' => h x' (List.mem_cons_of_mem x hx'))]

namespace Reflects

variable {past : List (Step α)} {heap : Heap α} {s : Step α}

/-- A step that names what is live is answered from the steps before it, and drops what they say. -/
theorem step (hr : Reflects past heap) (hs : Applicable past s) :
    ∃ outcome, heap.step s = some outcome ∧ Reflects (past ++ [s]) outcome.heap ∧
      some outcome.answer = answer? past s ∧
      outcome.dropped.map some = (drops past s).map (Past.value? past) := by
  have hgone : ((drops past s).filterMap heap.value?).map some
      = (drops past s).map (Past.value? past) := by
    rw [funext hr.value]
    exact map_some_filterMap fun object hmem =>
      value?_isSome (lt_of_held ((mem_drops_iff hs).mp hmem).1)
  cases s with
  | newArena =>
    obtain ⟨hnumber, hr'⟩ := hr.newArena
    exact ⟨_, rfl, hr', congrArg (some ∘ Answer.number) hnumber, rfl⟩
  | alloc a x =>
    have hcreated : (Step.alloc a x).created? = some (some a, x) := rfl
    obtain ⟨heap', hnew, hr'⟩ := hr.newIn hs hcreated
    have halloc : heap.alloc a x = some ((creations past).length, heap') := hnew
    exact ⟨_, by rw [Heap.step, halloc]; rfl, hr', rfl, rfl⟩
  | newIn a? x =>
    obtain ⟨heap', hnew, hr'⟩ := hr.newIn hs rfl
    exact ⟨_, by rw [Heap.step, hnew]; rfl, hr', rfl, rfl⟩
  | independent x =>
    have hcreated : (Step.independent x).created? = some (none, x) := rfl
    obtain ⟨heap', hnew, hr'⟩ := hr.newIn hs hcreated
    have hfree : heap.independent x = ((creations past).length, heap') := Option.some.inj hnew
    exact ⟨_, by rw [Heap.step, hfree], hr', rfl, rfl⟩
  | modify h f =>
    obtain ⟨heap', hmodify, hr'⟩ := hr.modify hs
    exact ⟨_, by rw [Heap.step, hmodify]; rfl, hr', rfl, rfl⟩
  | read h =>
    obtain ⟨x, hx, hread⟩ := hr.read hs
    refine ⟨_, by rw [Heap.step, hread]; rfl, ?_, by rw [answer?, hx]; rfl, rfl⟩
    exact hr.look hs rfl rfl (fun _ => rfl) (fun _ => rfl) (fun _ => .inl rfl)
  | release h =>
    obtain ⟨heap', hrelease, hr'⟩ := hr.release hs
    exact ⟨_, by rw [Heap.step, hrelease]; rfl, hr', rfl, hgone⟩
  | releaseArena a =>
    obtain ⟨heap', hrelease, hr'⟩ := hr.releaseArena hs
    exact ⟨_, by rw [Heap.step, hrelease]; rfl, hr', rfl, hgone⟩
  | inspect a =>
    have harena := hr.arena?_live hs
    refine ⟨_, by rw [Heap.step, harena]; rfl, ?_, rfl, rfl⟩
    exact hr.look hs rfl rfl (fun _ => rfl) (fun _ => rfl) (fun _ => .inl rfl)

/-- A step that names what is not live does not happen. -/
theorem step_eq_none (hr : Reflects past heap) (hs : ¬ Applicable past s) : heap.step s = none := by
  have hhandle : ∀ h, ¬ handleLive past h = true → heap.handle? h = none := by
    intro h hdead
    rw [hr.handle, if_neg hdead]
  have harena : ∀ a, ¬ arenaLive past a = true → heap.arena? a = none := by
    intro a hdead
    rw [hr.arena, if_neg hdead]
  cases s with
  | newArena | independent _ => exact absurd trivial hs
  | alloc a x => simp [Heap.step, Heap.alloc, harena a hs]
  | newIn a? x =>
    cases a? with
    | none => exact absurd trivial hs
    | some a => simp [Heap.step, Heap.newIn, Heap.alloc, harena a hs]
  | modify h f => simp [Heap.step, Heap.modify, hhandle h hs]
  | read h => simp [Heap.step, Heap.read, hhandle h hs]
  | release h => simp [Heap.step, Heap.release, hhandle h hs]
  | releaseArena a => simp [Heap.step, Heap.releaseArena, harena a hs]
  | inspect a => simp [Heap.step, harena a hs]

end Reflects

theorem run_append (heap : Heap α) (steps : List (Step α)) (s : Step α) :
    heap.run (steps ++ [s]) = (heap.run steps).bind (fun (outcomes, heap') =>
      (heap'.step s).map (fun outcome => (outcomes ++ [outcome], outcome.heap))) := by
  induction steps generalizing heap with
  | nil => cases hs : heap.step s <;> simp [run, hs]
  | cons first steps ih =>
    cases hfirst : heap.step first with
    | none => simp [run, hfirst]
    | some outcome =>
      cases hrun : outcome.heap.run steps with
      | none => simp [run, hfirst, ih, hrun]
      | some rest => cases hs : rest.2.step s <;> simp [run, hfirst, ih, hrun, hs]

/-- Along a run, each step is answered and drops what the steps before it say. -/
theorem run_reflects (steps : List (Step α)) (hvalid : Valid steps) :
    ∃ outcomes heap, ({} : Heap α).run steps = some (outcomes, heap) ∧ Reflects steps heap ∧
      outcomes.length = steps.length ∧
      ∀ k s outcome, steps[k]? = some s → outcomes[k]? = some outcome →
        some outcome.answer = answer? (steps.take k) s ∧
        outcome.dropped.map some = (drops (steps.take k) s).map (Past.value? (steps.take k)) := by
  induction steps using List.reverseRecOn with
  | nil => exact ⟨[], {}, rfl, reflects_nil, rfl, by simp⟩
  | append_singleton steps s ih =>
    obtain ⟨hbefore, hs⟩ := valid_append.mp hvalid
    obtain ⟨outcomes, heap, hrun, hr, hlength, hsteps⟩ := ih hbefore
    obtain ⟨outcome, hstep, hr', hanswer, hdropped⟩ := hr.step hs
    refine ⟨outcomes ++ [outcome], outcome.heap, ?_, hr', by simp [hlength], ?_⟩
    · rw [run_append, hrun]
      simp [hstep]
    · intro k s' outcome' hs' houtcome'
      rcases Nat.lt_or_ge k steps.length with hk | hk
      · rw [List.getElem?_append_left hk] at hs'
        rw [List.getElem?_append_left (by omega)] at houtcome'
        rw [List.take_append_of_le_length (Nat.le_of_lt hk)]
        exact hsteps k s' outcome' hs' houtcome'
      · have hlt := (List.getElem?_eq_some_iff.mp hs').1
        rw [List.length_append, List.length_singleton] at hlt
        obtain rfl : k = steps.length := by omega
        obtain rfl : s = s' := by simpa using hs'
        rw [← hlength] at houtcome'
        obtain rfl : outcome = outcome' := by simpa using houtcome'
        rw [List.take_append_of_le_length (Nat.le_refl _), List.take_length]
        exact ⟨hanswer, hdropped⟩

/-- A run stops at the first step that names what is not live. -/
theorem run_eq_none (steps : List (Step α)) (hinvalid : ¬ Valid steps) :
    ({} : Heap α).run steps = none := by
  induction steps using List.reverseRecOn with
  | nil => exact absurd (by simp [Valid]) hinvalid
  | append_singleton steps s ih =>
    rw [run_append]
    by_cases hbefore : Valid steps
    · obtain ⟨outcomes, heap, hrun, hr, _⟩ := run_reflects steps hbefore
      have hs : ¬ Applicable steps s := fun hs => hinvalid (valid_append.mpr ⟨hbefore, hs⟩)
      simp [hrun, hr.step_eq_none hs]
    · simp [ih hbefore]

/-- A run goes on as long as every step names what is live, and each object of it is dropped once,
with the first step after which nothing holds it. -/
theorem run_lifetimes (steps : List (Step α)) :
    match ({} : Heap α).run steps with
    | some (outcomes, heap) => Valid steps ∧ Reflects steps heap ∧ Lifetimes steps outcomes
    | none => ¬ Valid steps := by
  by_cases hvalid : Valid steps
  · obtain ⟨outcomes, heap, hrun, hr, hlength, hsteps⟩ := run_reflects steps hvalid
    rw [hrun]
    exact ⟨hvalid, hr, {
      length := hlength
      answered := fun k s outcome hs houtcome => (hsteps k s outcome hs houtcome).1
      dropped := fun k s outcome hs houtcome => (hsteps k s outcome hs houtcome).2
      ascending := fun k s _ => drops_ascending (steps.take k) s
      ends := fun k s object hs => hvalid.mem_drops_iff_ends hs
      once := fun object j k => Ends.unique
      unheld := fun object => hvalid.exists_ends_iff
      settled := fun hhandles harenas object hcreated => by
        have hunheld : held steps object = false := by
          rw [held, hhandles, Bool.false_or]
          cases arenaOf? steps object with
          | none => rfl
          | some a => exact harenas a
        obtain ⟨k, hends⟩ := (hvalid.exists_ends_iff hcreated).mpr hunheld
        exact ⟨k, hends, fun j hj => hj.unique hends⟩ }⟩
  · rw [run_eq_none steps hvalid]
    exact hvalid

/-- The arena drops what it alone holds; the handle that outlives it drops its own object. -/
example : (({} : Heap String).run
      [.newArena, .alloc 0 "kept", .newIn none "free", .alloc 0 "last", .modify 1 (· ++ "r"),
        .release 2, .releaseArena 0, .release 1, .release 0]).map
      (fun (outcomes, _) => outcomes.map Outcome.dropped) =
    some [[], [], [], [], [], [], ["last"], ["freer"], ["kept"]] := by
  decide

end UnaryRpc.Heap
