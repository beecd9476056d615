import Mathlib.Data.List.Induction
import UnaryRpc.Bench.Messages
import UnaryRpc.Proofs.Client.Sending
import UnaryRpc.Proofs.Ownership.Reflection
import UnaryRpc.Proofs.Server.Handling

namespace UnaryRpc.Client

open Http Message

variable {κ σ : Type} [ContextKeys κ]

/-- A gateway whose interceptors allocate nothing in the caller's arena. -/
def Gateway.Frugal (g : Gateway κ σ) : Prop :=
  ∀ u ∈ g.interceptors.units, ∀ call o, ((u call).outcome o).2.store = o.store

/-- A call of a client, whatever its gateway and its messages are. -/
structure Job (κ σ : Type) [ContextKeys κ] where
  Input : Type
  Output : Type
  [input : Message Input]
  [output : Message Output]
  gateway : Gateway κ σ
  frugal : gateway.Frugal
  service : String
  encoding : Encoding
  context : Context κ
  method : String
  value : Input

attribute [instance] Job.input Job.output

def Job.call (job : Job κ σ) : Action (Caller σ) (Owned job.Output) :=
  Stub.call ⟨job.gateway.send, job.service, job.encoding⟩ job.context job.method job.value

/-- What comes of a call and what it leaves of the store it was made with. -/
inductive Settles {O : Type} [Message O] (store : Store) : Except Status (Owned O) → Store → Prop
  | succeeded (output : O) :
    Settles store (.ok ⟨if store.isSome then .bound else .independent, output⟩)
      (store.map (fun arena => arena.alloc (erase output)))
  | failed (status : Status) : Settles store (.error status) store

section

variable {g : Gateway κ σ} {call : Call κ} {caller : Caller σ}

theorem passes_store {us : List (Interceptor κ σ)} {o o' : Outgoing σ}
    (hus : ∀ u ∈ us, ∀ call o, ((u call).outcome o).2.store = o.store)
    (h : Chain.Passes (fun u => u call) us o o') : o'.store = o.store := by
  induction h with
  | nil => rfl
  | @cons u us o middle o' first _ ih =>
    have hfirst := hus u List.mem_cons_self call o
    rw [first] at hfirst
    rw [ih (fun v hv => hus v (List.mem_cons_of_mem _ hv)), hfirst]

/-- However a call fares on the way, the caller's arena stays as it was. -/
theorem Gateway.Fares.store {outcome : Except Status Body} {after : Caller σ} {acts : List Act}
    (h : g.Fares call caller outcome after acts) (hg : g.Frugal) :
    after.store = caller.store := by
  cases h with
  | @intercepted before u rest o status stopped hunits hpass hfail =>
    have hbefore := passes_store
      (fun v hv => hg v (hunits ▸ List.mem_append_left _ hv)) hpass
    have hstopped := hg u (hunits ▸ List.mem_append_right before List.mem_cons_self) call o
    rw [hfail] at hstopped
    exact hstopped.trans hbefore
  | unaddressed hpass _ => exact passes_store hg hpass
  | undelivered hpost => exact passes_store hg hpost.units
  | answered hpost _ => exact passes_store hg hpost.units
  | refused hpost _ => exact passes_store hg hpost.units

/-- Only the last step of a call, behind all that can fail, allocates. -/
theorem Job.settles (job : Job κ σ) (caller : Caller σ) :
    Settles caller.store (job.call.outcome caller).1 (job.call.outcome caller).2.store := by
  unfold Job.call
  cases hwrite : Message.write job.encoding job.value with
  | error fault =>
    rw [Stub.call, hwrite]
    exact .failed fault.status
  | ok body =>
    obtain ⟨outcome, after, acts, h⟩ := job.gateway.exists_fares
      ⟨job.context, job.encoding, job.service, job.method, .ofBytes body⟩ caller
    have hsend := Gateway.send_of_fares h
    have hstore := h.store job.frugal
    cases outcome with
    | error status =>
      rw [Stub.call_fails hwrite hsend]
      dsimp only
      rw [hstore]
      exact .failed status
    | ok reply =>
      rw [Stub.call_received hwrite hsend]
      cases hread : Message.read (M := job.Output) job.encoding reply with
      | error fault =>
        dsimp only
        rw [hstore]
        exact .failed fault.status
      | ok output =>
        dsimp only
        rw [hstore, store_newIn, owned_newIn]
        exact .succeeded output

end

namespace Settles

variable {O : Type} [Message O] {store store' : Store} {result : Except Status (Owned O)}

/-- The arena of a call has the reply behind what it had, if there is a reply. -/
theorem store_eq (h : Settles store result store') :
    store' = store.map (fun arena =>
      ⟨arena.held ++ (result.toOption.map (fun output => erase output.value)).toList⟩) := by
  cases h with
  | succeeded output => rfl
  | failed status => cases store <;> simp [Except.toOption]

theorem ownership {output : Owned O} (h : Settles store (.ok output) store') :
    output.ownership = if store.isSome then .bound else .independent := by
  cases h
  rfl

end Settles

/-- Arenas by number, those that were released being none, and the world. -/
structure Desk (σ : Type) where
  arenas : List (Option (Arena Outbound)) := []
  world : σ

namespace Desk

/-- What is done between opening an arena and releasing it. A call is made with an arena or without
one. -/
inductive Step (κ σ : Type) [ContextKeys κ] where
  | newArena
  | call (place : Option Nat) (job : Job κ σ)
  | release (arena : Nat)

/-- What a step is answered: the number of the new arena or of the objects that were released, or
the outcome of a call. -/
inductive Answer where
  | number (n : Nat)
  | outcome (result : Except Status (Owned Outbound))

/-- A step with its answer. -/
abbrev Event (κ σ : Type) [ContextKeys κ] := Step κ σ × Answer

namespace Step

/-- The arena that a step names. -/
def named? : Step κ σ → Option Nat
  | newArena => none
  | call place _ => place
  | release arena => some arena

def opens : Step κ σ → Bool
  | newArena => true
  | _ => false

def closes (a : Nat) : Step κ σ → Bool
  | release arena => arena == a
  | _ => false

end Step

def arena? (d : Desk σ) (a : Nat) : Option (Arena Outbound) := d.arenas[a]?.join

/-- The store of a call that is made with an arena or without one. -/
def store? (d : Desk σ) : Option Nat → Option Store
  | none => some none
  | some a => (d.arena? a).map some

def step (d : Desk σ) : Step κ σ → Option (Answer × Desk σ)
  | .newArena => some (.number d.arenas.length, { d with arenas := d.arenas ++ [some .empty] })
  | .call place job => (d.store? place).map (fun store =>
      let (result, after) := job.call.outcome ⟨store, d.world⟩
      (.outcome (result.map (Owned.map erase)),
        { arenas := place.elim d.arenas (fun a => d.arenas.set a after.store)
          world := after.world }))
  | .release a => (d.arena? a).map (fun arena =>
      (.number arena.size, { d with arenas := d.arenas.set a none }))

/-- Takes one step more. -/
def advance (before : List (Event κ σ) × Desk σ) (s : Step κ σ) :
    Option (List (Event κ σ) × Desk σ) :=
  (before.2.step s).map (fun (answer, d) => (before.1 ++ [(s, answer)], d))

def run (d : Desk σ) (steps : List (Step κ σ)) : Option (List (Event κ σ) × Desk σ) :=
  steps.foldlM advance ([], d)

theorem run_concat (d : Desk σ) (steps : List (Step κ σ)) (s : Step κ σ) :
    d.run (steps ++ [s]) = (d.run steps).bind (fun before => advance before s) := by
  simp [run, List.foldlM_append]

/-- How many arenas were opened. -/
def opened (steps : List (Step κ σ)) : Nat := steps.countP Step.opens

def closed (steps : List (Step κ σ)) (a : Nat) : Bool := steps.any (Step.closes a)

/-- Whether an arena was opened and not released. -/
def live (steps : List (Step κ σ)) (a : Nat) : Bool := a < opened steps && !closed steps a

/-- Every step names an arena that is live by then, if it names one. -/
def Valid (steps : List (Step κ σ)) : Prop :=
  ∀ before s after, steps = before ++ s :: after → ∀ a, s.named? = some a → live before a = true

/-- The reply of a successful call that is made with an arena. -/
def kept? (a : Nat) : Event κ σ → Option Outbound
  | (.call place _, .outcome (.ok output)) => if place = some a then some output.value else none
  | _ => none

/-- The replies of the successful calls made with an arena, in order. -/
def kept (events : List (Event κ σ)) (a : Nat) : List Outbound := events.filterMap (kept? a)

/-- Whether a call was made with an arena and succeeded. -/
def succeeds (a : Nat) : Event κ σ → Bool
  | (.call place _, .outcome (.ok _)) => place == some a
  | _ => false

/-- How many calls made with an arena succeeded. -/
def successes (events : List (Event κ σ)) (a : Nat) : Nat := events.countP (succeeds a)

/-- The books of a run: what each arena holds, what its release was answered, and who keeps the
replies. -/
structure Balanced (steps : List (Step κ σ)) (events : List (Event κ σ)) (d : Desk σ) : Prop where
  made : events.map Prod.fst = steps
  named : ∀ s ∈ steps, ∀ a, s.named? = some a → a < opened steps
  arenas : d.arenas.length = opened steps
  held : ∀ a, d.arena? a = if live steps a then some ⟨kept events a⟩ else none
  released : ∀ a answer, (.release a, answer) ∈ events → answer = .number (successes events a)
  answered : ∀ place job answer, (.call place job, answer) ∈ events →
    ∃ result, answer = .outcome result ∧ ∀ output, result = .ok output →
      output.ownership = if place.isSome then .bound else .independent

section

variable {steps : List (Step κ σ)} {events : List (Event κ σ)} {d d' : Desk σ} {s : Step κ σ}
  {answer : Answer} {a : Nat}

theorem opened_concat (steps : List (Step κ σ)) (s : Step κ σ) :
    opened (steps ++ [s]) = opened steps + if s.opens then 1 else 0 := by
  rw [opened, opened, List.countP_append, List.countP_singleton]

theorem closed_concat (steps : List (Step κ σ)) (s : Step κ σ) (a : Nat) :
    closed (steps ++ [s]) a = (closed steps a || s.closes a) := by
  simp [closed]

theorem kept_concat (events : List (Event κ σ)) (e : Event κ σ) (a : Nat) :
    kept (events ++ [e]) a = kept events a ++ (kept? a e).toList := by
  rw [kept, List.filterMap_append, ← kept]
  cases h : kept? a e <;> simp [h]

theorem kept?_isSome (a : Nat) (e : Event κ σ) : (kept? a e).isSome = succeeds a e := by
  unfold kept? succeeds
  split
  · split <;> simp_all
  · rfl

theorem kept_quiet (events : List (Event κ σ)) (h : kept? a (s, answer) = none) :
    kept (events ++ [(s, answer)]) a = kept events a := by
  rw [kept_concat, h, Option.toList_none, List.append_nil]

theorem successes_concat (events : List (Event κ σ)) (e : Event κ σ) (a : Nat) :
    successes (events ++ [e]) a = successes events a + if succeeds a e then 1 else 0 := by
  rw [successes, successes, List.countP_append, List.countP_singleton]

theorem named_of_succeeds (h : succeeds a (s, answer) = true) : s.named? = some a := by
  unfold succeeds at h
  split at h
  · rename_i he
    obtain ⟨rfl, -⟩ := Prod.mk.inj he
    exact beq_iff_eq.mp h
  · cases h

/-- The objects in an arena are as many as the calls made with it that succeeded. -/
theorem length_kept (events : List (Event κ σ)) (a : Nat) :
    (kept events a).length = successes events a := by
  rw [kept, List.length_filterMap_eq_countP, successes]
  exact congrArg (fun p => events.countP p) (funext (kept?_isSome a))

theorem valid_concat :
    Valid (steps ++ [s]) ↔ Valid steps ∧ ∀ a, s.named? = some a → live steps a = true :=
  forall_before_concat

theorem isSome_step :
    (d.step s).isSome = true ↔ ∀ a, s.named? = some a → (d.arena? a).isSome = true := by
  cases s with
  | newArena => simp [step, Step.named?]
  | release a => simp [step, Step.named?]
  | call place job => cases place <;> simp [step, store?, Step.named?]

theorem isSome_store {place : Option Nat} {store : Store} (h : d.store? place = some store) :
    store.isSome = place.isSome := by
  cases place with
  | none =>
    obtain rfl := Option.some.inj h
    rfl
  | some a =>
    obtain ⟨arena, -, rfl⟩ := Option.map_eq_some_iff.mp h
    rfl

theorem arena?_lt {arena : Arena Outbound} (h : d.arena? a = some arena) : a < d.arenas.length :=
  Heap.lt_of_join_getElem? h

/-- A store that is put back where it came from changes no other arena. -/
theorem arena?_put {place : Option Nat} {store : Store} (h : d.store? place = some store)
    (f : Arena Outbound → Arena Outbound) (world : σ) (a : Nat) :
    (⟨place.elim d.arenas (fun b => d.arenas.set b (store.map f)), world⟩ : Desk σ).arena? a =
      if place = some a then (d.arena? a).map f else d.arena? a := by
  cases place with
  | none => rfl
  | some b =>
    obtain ⟨arena, harena, rfl⟩ := Option.map_eq_some_iff.mp h
    refine (Heap.join_getElem?_set d.arenas (arena?_lt harena) _ a).trans ?_
    by_cases hb : b = a
    · subst hb
      rw [if_pos rfl, if_pos rfl, harena]
    · rw [if_neg hb, if_neg (fun he => hb (Option.some.inj he)), arena?]

theorem step_newArena (h : d.step (.newArena : Step κ σ) = some (answer, d')) :
    d'.arenas.length = d.arenas.length + 1 ∧
    ∀ a, d'.arena? a = if a = d.arenas.length then some .empty else d.arena? a := by
  obtain ⟨-, rfl⟩ := Prod.mk.inj (Option.some.inj h)
  exact ⟨List.length_append, Heap.join_getElem?_append d.arenas (some .empty)⟩

/-- A release is answered with the number of objects in the arena, and the arena is gone. -/
theorem step_release {b : Nat} (h : d.step (.release b : Step κ σ) = some (answer, d')) :
    ∃ arena, d.arena? b = some arena ∧ answer = .number arena.size ∧
      d'.arenas.length = d.arenas.length ∧
      ∀ a, d'.arena? a = if b = a then none else d.arena? a := by
  obtain ⟨arena, harena, he⟩ := Option.map_eq_some_iff.mp h
  obtain ⟨rfl, rfl⟩ := Prod.mk.inj he
  exact ⟨arena, harena, rfl, List.length_set,
    Heap.join_getElem?_set d.arenas (arena?_lt harena) none⟩

/-- A call adds its reply to the arena it is made with, and it leaves all others as they were. -/
theorem step_call {place : Option Nat} {job : Job κ σ}
    (h : d.step (.call place job) = some (answer, d')) :
    d'.arenas.length = d.arenas.length ∧
    (∀ a, d'.arena? a = (d.arena? a).map (fun arena =>
      ⟨arena.held ++ (kept? a (.call place job, answer)).toList⟩)) ∧
    ∃ result, answer = .outcome result ∧ ∀ output, result = .ok output →
      output.ownership = if place.isSome then .bound else .independent := by
  obtain ⟨store, hstore, h⟩ := Option.map_eq_some_iff.mp h
  have hsettles := job.settles ⟨store, d.world⟩
  generalize job.call.outcome ⟨store, d.world⟩ = outcome at h hsettles
  obtain ⟨result, ⟨store', world'⟩⟩ := outcome
  obtain ⟨rfl, rfl⟩ := Prod.mk.inj h
  have hkept : ∀ a, kept? a (.call place job, .outcome (result.map (Owned.map erase))) =
      if place = some a then result.toOption.map (fun output => erase output.value) else none := by
    intro a
    cases result with
    | error status => exact (ite_self none).symm
    | ok output => rfl
  refine ⟨?_, fun a => ?_, _, rfl, fun output houtput => ?_⟩
  · cases place with
    | none => rfl
    | some b => exact List.length_set
  · rw [hkept, hsettles.store_eq, arena?_put hstore]
    split
    · rfl
    · simp
  · rw [← isSome_store hstore]
    cases result with
    | error status => cases houtput
    | ok output' =>
      obtain rfl := Except.ok.inj houtput
      exact hsettles.ownership

theorem live_concat (steps : List (Step κ σ)) (a : Nat) (hopens : s.opens = false)
    (hcloses : s.closes a = false) : live (steps ++ [s]) a = live steps a := by
  rw [live, live, opened_concat, closed_concat, hopens, hcloses, Bool.or_false]
  rfl

theorem live_release (steps : List (Step κ σ)) (b a : Nat) :
    live (steps ++ [.release b]) a = if b = a then false else live steps a := by
  rw [live, live, opened_concat, closed_concat]
  by_cases hb : b = a
  · simp [Step.closes, hb]
  · simp [Step.opens, Step.closes, beq_false_of_ne hb, hb]

namespace Balanced

theorem lt_opened (h : Balanced steps events d) (hlive : (d.arena? a).isSome = true) :
    a < opened steps := by
  obtain ⟨arena, harena⟩ := Option.isSome_iff_exists.mp hlive
  rw [← h.arenas]
  exact arena?_lt harena

theorem kept_unopened (h : Balanced steps events d) (ha : opened steps ≤ a) :
    kept events a = [] := by
  rw [kept, List.filterMap_eq_nil_iff]
  intro e he
  have hs : e.1 ∈ steps := h.made ▸ List.mem_map_of_mem he
  unfold kept?
  split
  · rename_i place job output
    rw [if_neg]
    intro hplace
    have hlt := h.named _ hs a hplace
    omega
  · rfl

theorem closed_unopened (h : Balanced steps events d) (ha : opened steps ≤ a) :
    closed steps a = false := by
  rw [closed, List.any_eq_false]
  intro s hs
  cases s with
  | release b =>
    have hlt := h.named _ hs b rfl
    simp only [Step.closes, beq_iff_eq]
    omega
  | _ => simp [Step.closes]

theorem live_newArena (h : Balanced steps events d) (a : Nat) :
    live (steps ++ [.newArena]) a = if a = opened steps then true else live steps a := by
  rw [live, live, opened_concat, closed_concat]
  by_cases ha : a = opened steps
  · simp [ha, h.closed_unopened (Nat.le_refl _), Step.opens, Step.closes]
  · have hlt : a < opened steps + 1 ↔ a < opened steps := by omega
    simp [ha, hlt, Step.opens, Step.closes]

/-- An arena is as large as the number of calls that were made with it and succeeded. -/
theorem size_eq (h : Balanced steps events d) {arena : Arena Outbound}
    (harena : d.arena? a = some arena) : arena.size = successes events a := by
  rw [h.held] at harena
  split at harena
  · obtain rfl := Option.some.inj harena
    exact length_kept events a
  · cases harena

theorem arenas_concat (h : Balanced steps events d) (hstep : d.step s = some (answer, d')) :
    d'.arenas.length = opened (steps ++ [s]) := by
  rw [opened_concat, ← h.arenas]
  cases s with
  | newArena => exact (step_newArena hstep).1
  | call place job => exact (step_call hstep).1
  | release b =>
    obtain ⟨_, -, -, hlength, -⟩ := step_release hstep
    exact hlength

theorem held_concat (h : Balanced steps events d) (hstep : d.step s = some (answer, d')) (a : Nat) :
    d'.arena? a =
      if live (steps ++ [s]) a then some ⟨kept (events ++ [(s, answer)]) a⟩ else none := by
  cases s with
  | newArena =>
    rw [kept_quiet events rfl, h.live_newArena, (step_newArena hstep).2, h.arenas, h.held]
    split
    · rename_i ha
      rw [h.kept_unopened (Nat.le_of_eq ha.symm)]
      rfl
    · rfl
  | call place job =>
    rw [kept_concat, (step_call hstep).2.1, h.held, live_concat steps a rfl rfl]
    split <;> rfl
  | release b =>
    obtain ⟨_, -, -, -, hgone⟩ := step_release hstep
    rw [kept_quiet events rfl, live_release, hgone, h.held]
    split
    · rfl
    · rfl

/-- What a release was answered does not change: no later call is made with its arena. -/
theorem released_concat (h : Balanced steps events d) (hstep : d.step s = some (answer, d'))
    {answer' : Answer} (ha : (.release a, answer') ∈ events ++ [(s, answer)]) :
    answer' = .number (successes (events ++ [(s, answer)]) a) := by
  rw [successes_concat]
  rcases List.mem_append.mp ha with ha | ha
  · have hclosed : closed steps a = true := by
      rw [← h.made, closed, List.any_map]
      exact List.any_eq_true.mpr ⟨_, ha, beq_self_eq_true a⟩
    have hlater : ¬succeeds a (s, answer) = true := by
      intro hsucceeds
      have hlive := isSome_step.mp (by rw [hstep, Option.isSome_some]) a
        (named_of_succeeds hsucceeds)
      rw [h.held, live, hclosed, Bool.not_true, Bool.and_false] at hlive
      contradiction
    rw [if_neg hlater]
    exact h.released a answer' ha
  · obtain ⟨rfl, rfl⟩ := Prod.mk.inj (List.mem_singleton.mp ha)
    obtain ⟨arena, harena, rfl, -⟩ := step_release hstep
    rw [h.size_eq harena]
    rfl

theorem answered_concat (h : Balanced steps events d) (hstep : d.step s = some (answer, d'))
    {place : Option Nat} {job : Job κ σ} {answer' : Answer}
    (ha : (.call place job, answer') ∈ events ++ [(s, answer)]) :
    ∃ result, answer' = .outcome result ∧ ∀ output, result = .ok output →
      output.ownership = if place.isSome then .bound else .independent := by
  rcases List.mem_append.mp ha with ha | ha
  · exact h.answered place job answer' ha
  · obtain ⟨rfl, rfl⟩ := Prod.mk.inj (List.mem_singleton.mp ha)
    exact (step_call hstep).2.2

/-- A step keeps the books balanced. -/
theorem concat (h : Balanced steps events d) (hstep : d.step s = some (answer, d')) :
    Balanced (steps ++ [s]) (events ++ [(s, answer)]) d' where
  made := by rw [List.map_append, h.made, List.map_singleton]
  named := by
    intro s' hs' a hnamed
    have hlt : a < opened steps := by
      rcases List.mem_append.mp hs' with hs' | hs'
      · exact h.named s' hs' a hnamed
      · obtain rfl := List.mem_singleton.mp hs'
        apply h.lt_opened
        exact isSome_step.mp (by rw [hstep, Option.isSome_some]) a hnamed
    rw [opened_concat]
    exact Nat.lt_add_right _ hlt
  arenas := h.arenas_concat hstep
  held := h.held_concat hstep
  released _ _ := h.released_concat hstep
  answered _ _ _ := h.answered_concat hstep

theorem start (world : σ) : Balanced ([] : List (Step κ σ)) [] ⟨[], world⟩ where
  made := rfl
  named := nofun
  arenas := rfl
  held _ := rfl
  released := nofun
  answered := nofun

/-- A step can be made exactly if the arena that it names is live. -/
theorem step_iff (h : Balanced steps events d) :
    (d.step s).isSome = true ↔ ∀ a, s.named? = some a → live steps a = true := by
  rw [isSome_step]
  refine forall_congr' (fun a => forall_congr' (fun _ => ?_))
  rw [h.held]
  split <;> simp_all

end Balanced

/-- A run goes on as long as each step names a live arena, and its books are balanced. -/
theorem run_balanced (world : σ) (steps : List (Step κ σ)) :
    match run ⟨[], world⟩ steps with
    | some (events, d) => Valid steps ∧ Balanced steps events d
    | none => ¬Valid steps := by
  induction steps using List.reverseRecOn with
  | nil => exact ⟨by simp [Valid], .start world⟩
  | append_singleton steps s ih =>
    rw [run_concat, valid_concat]
    cases hrun : run ⟨[], world⟩ steps with
    | none =>
      rw [hrun] at ih
      exact fun hvalid => ih hvalid.1
    | some before =>
      obtain ⟨events, d⟩ := before
      rw [hrun] at ih
      obtain ⟨hvalid, hbalanced⟩ := ih
      rw [Option.bind_some, advance]
      cases hstep : d.step s with
      | none =>
        refine fun hall => ?_
        have hsome := hbalanced.step_iff.mpr hall.2
        rw [hstep] at hsome
        contradiction
      | some taken =>
        have hlive := hbalanced.step_iff.mp (by rw [hstep, Option.isSome_some])
        exact ⟨⟨hvalid, hlive⟩, hbalanced.concat hstep⟩

end

end Desk

/-- A call leaves its reply in the caller's arena if it succeeds, and nothing if it fails; so the
release of an arena is answered with the number of the calls that succeeded with it. -/
theorem arenas_account_for_calls (world : σ) (steps : List (Desk.Step κ σ)) :
    (∀ (job : Job κ σ) (caller : Caller σ),
      Settles caller.store (job.call.outcome caller).1 (job.call.outcome caller).2.store) ∧
    (∀ (events : List (Desk.Event κ σ)) (a : Nat), (Desk.kept events a).length = Desk.successes events a) ∧
    match Desk.run ⟨[], world⟩ steps with
    | some (events, d) => Desk.Valid steps ∧ Desk.Balanced steps events d
    | none => ¬Desk.Valid steps :=
  ⟨Job.settles, Desk.length_kept, Desk.run_balanced world steps⟩

/-- Fixed headers do not allocate. -/
theorem Gateway.frugal_fixed (baseUrl : String) (transport : Transport σ) (settings : Settings)
    (fixed : List FixedHeader) :
    ((fixed.map FixedHeader.interceptor).foldl addInterceptor
      (.new baseUrl transport settings) : Gateway κ σ).Frugal := by
  intro u hu call o
  rw [foldl_addInterceptor] at hu
  obtain ⟨header, -, rfl⟩ := List.mem_map.mp hu
  rfl

/-- A call that a response is the answer to. -/
def answeredBy (response : Response) : Job Empty Unit where
  Input := Bench.SensorId
  Output := Bench.SensorId
  gateway := .new "http://localhost:8080" (fun _ => pure (.ok response)) {}
  frugal := Gateway.frugal_fixed _ _ _ []
  service := "test.Echo"
  encoding := .json
  context := .empty
  method := "Echo"
  value := ⟨"s1"⟩

/-- The numbers that steps were answered with. -/
def Desk.numbers {κ σ : Type} [ContextKeys κ] (events : List (Desk.Event κ σ)) : List Nat :=
  events.filterMap (fun e =>
    match e.2 with
    | .number n => some n
    | .outcome _ => none)

theorem arenas_account_for_calls_echo :
    let good := answeredBy { body := .ofBytes (Text.bytes "\x7b\"id\":\"s2\"\x7d") }
    let bad := answeredBy { status := 500 }
    let steps : List (Desk.Step Empty Unit) :=
      [.newArena, .call (some 0) good, .call (some 0) bad, .call none good, .release 0]
    ∃ events d, Desk.run ⟨[], ()⟩ steps = some (events, d) ∧ Desk.Balanced steps events d ∧
      Desk.successes events 0 = 1 ∧ Desk.numbers events = [0, 1] := by
  intro good bad steps
  have hcounts : (Desk.run ⟨[], ()⟩ steps).map
      (fun r => (Desk.successes r.1 0, Desk.numbers r.1)) = some (1, [0, 1]) := by
    decide +kernel
  obtain ⟨⟨events, d⟩, hrun, hcount⟩ := Option.map_eq_some_iff.mp hcounts
  have hbalanced := (arenas_account_for_calls () steps).2.2
  rw [hrun] at hbalanced
  exact ⟨events, d, hrun, hbalanced.2, (Prod.mk.inj hcount).1, (Prod.mk.inj hcount).2⟩

end UnaryRpc.Client
