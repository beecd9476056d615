import Mathlib.Data.List.Induction
import UnaryRpc.Chain.Edit
import UnaryRpc.Proofs.Chain

namespace UnaryRpc

namespace Chain

variable {U S : Type}

/-- Goes on with a unit, unless one before it failed. -/
def goOn (handle : U → Action S Unit) : Except Status Unit × S → U → Except Status Unit × S
  | (.ok (), s), u => (handle u).outcome s
  | (.error status, s), _ => (.error status, s)

/-- Handles a unit and writes it down, in a diary that the state carries along. -/
def logging (handle : U → Action S Unit) (u : U) : Action (S × List U) Unit := fun (s, diary) =>
  let (result, s') := (handle u).outcome s
  (result, (s', diary ++ [u]))

/-- How a run ends: which units were handled, the outcome, and the state it leaves. Only the last
unit that is handled may fail. -/
inductive Ends (handle : U → Action S Unit) :
    List U → S → List U → Except Status Unit → S → Prop
  | passed {units s s'} (hpass : Passes handle units s s') :
    Ends handle units s units (.ok ()) s'
  | failed {before u after s s' status s''} (hpass : Passes handle before s s')
      (hfail : (handle u).outcome s' = (.error status, s'')) :
    Ends handle (before ++ u :: after) s (before ++ [u]) (.error status) s''

variable {handle : U → Action S Unit} {units ran : List U} {result : Except Status Unit} {s s' : S}

theorem exists_ends (handle : U → Action S Unit) (units : List U) (s : S) :
    ∃ ran result s', Ends handle units s ran result s' := by
  rcases passes_or_fails handle units s with
    ⟨s', hpass⟩ | ⟨before, u, after, s', status, s'', rfl, hpass, hfail⟩
  · exact ⟨_, _, _, .passed hpass⟩
  · exact ⟨_, _, _, .failed hpass hfail⟩

theorem Ends.runUnits (h : Ends handle units s ran result s') :
    (runUnits handle units).outcome s = (result, s') := by
  cases h with
  | passed hpass => exact runUnits_of_passes hpass
  | failed hpass hfail => exact runUnits_of_fails hpass hfail

theorem logging_outcome {u : U} (h : (handle u).outcome s = (result, s')) (diary : List U) :
    (logging handle u).outcome (s, diary) = (result, (s', diary ++ [u])) := by
  change (((handle u).outcome s).1, (((handle u).outcome s).2, diary ++ [u])) = _
  rw [h]

theorem Passes.logging (h : Passes handle units s s') (diary : List U) :
    Passes (logging handle) units (s, diary) (s', diary ++ units) := by
  induction h generalizing diary with
  | nil s =>
    rw [List.append_nil]
    exact .nil _
  | @cons u us _ _ _ first _ ih =>
    have hothers := ih (diary ++ [u])
    rw [List.append_assoc, List.singleton_append] at hothers
    exact .cons (logging_outcome first diary) hothers

/-- The diary of a run has the units that it handles. -/
theorem Ends.logging (h : Ends handle units s ran result s') :
    Ends (logging handle) units (s, []) ran result (s', ran) := by
  cases h with
  | passed hpass => exact .passed (hpass.logging [])
  | failed hpass hfail => exact .failed (hpass.logging []) (logging_outcome hfail _)

theorem foldl_goOn_error (status : Status) (units : List U) :
    units.foldl (goOn handle) (.error status, s) = (.error status, s) := by
  induction units with
  | nil => rfl
  | cons u units ih => exact ih

theorem runUnits_eq_foldl (units : List U) (s : S) :
    (runUnits handle units).outcome s = units.foldl (goOn handle) (.ok (), s) := by
  induction units generalizing s with
  | nil => rfl
  | cons u units ih =>
    rw [List.foldl_cons, goOn, Chain.runUnits]
    rcases hu : (handle u).outcome s with ⟨status | ⟨⟩, t⟩
    · rw [Action.outcome_bind_error hu, foldl_goOn_error]
    · rw [Action.outcome_bind_ok hu, ih]

theorem runUnits_append (units others : List U) :
    Chain.runUnits handle (units ++ others) =
      (do Chain.runUnits handle units; Chain.runUnits handle others) := by
  induction units with
  | nil => rw [List.nil_append, Chain.runUnits, pure_bind]
  | cons u units ih => rw [List.cons_append, Chain.runUnits, Chain.runUnits, ih, bind_assoc]

/-- A chain of two parts runs the second part if the first succeeds. -/
theorem execute_append (c d : Chain U) (handle : U → Action S Unit) (s : S) :
    ((ofList (c.units ++ d.units)).execute handle).outcome s =
      match (c.execute handle).outcome s with
      | (.ok (), s') => (d.execute handle).outcome s'
      | (.error status, s') => (.error status, s') := by
  rw [execute, units_ofList, runUnits_append, ← execute, ← execute]
  rcases hc : (c.execute handle).outcome s with ⟨status | ⟨⟩, s'⟩
  · exact Action.outcome_bind_error hc _
  · exact Action.outcome_bind_ok hc _

end Chain

namespace ChainEdit

variable {U : Type}

/-- The chain that an edit names. -/
def named? : ChainEdit U → Option Nat
  | push n _ => some n
  | copy n => some n
  | collect _ => none
  | create => none

/-- Whether an edit adds a chain. -/
def adds : ChainEdit U → Bool
  | push _ _ => false
  | copy _ => true
  | collect _ => true
  | create => true

/-- The unit that an edit pushes on a chain. -/
def pushed? (n : Nat) : ChainEdit U → Option U
  | push m u => if m = n then some u else none
  | copy _ => none
  | collect _ => none
  | create => none

/-- The units that are pushed on a chain, in order. -/
def pushes (n : Nat) (edits : List (ChainEdit U)) : List U :=
  edits.filterMap (pushed? n)

/-- The number of the next chain after edits. -/
def next (start : Chains U) (edits : List (ChainEdit U)) : Nat :=
  start.length + edits.countP adds

/-- Every edit names a chain that exists by then. -/
def Valid (start : Chains U) (edits : List (ChainEdit U)) : Prop :=
  ∀ before e after, edits = before ++ e :: after → ∀ n, e.named? = some n → n < next start before

/-- The units that a chain has by its own history: those it was there with, copied from another
chain as that one was then, was collected from, or none, and then those pushed on it. -/
inductive History (start : Chains U) : List (ChainEdit U) → Nat → List U → Prop
  | started {edits n chain} (hstart : start[n]? = some chain) :
    History start edits n (chain.units ++ pushes n edits)
  | copied {before n units after} (hcopied : History start before n units) :
    History start (before ++ copy n :: after) (next start before)
      (units ++ pushes (next start before) after)
  | collected {before units after} :
    History start (before ++ collect units :: after) (next start before)
      (units ++ pushes (next start before) after)
  | created {before after} :
    History start (before ++ create :: after) (next start before)
      (pushes (next start before) after)

section

variable {start chains chains' : Chains U} {edits : List (ChainEdit U)} {e : ChainEdit U} {n : Nat}
  {units : List U}

theorem pushes_concat (n : Nat) (edits : List (ChainEdit U)) (e : ChainEdit U) :
    pushes n (edits ++ [e]) = pushes n edits ++ (e.pushed? n).toList := by
  rw [pushes, List.filterMap_append, ← pushes]
  cases h : e.pushed? n <;> simp [h]

theorem next_concat (start : Chains U) (edits : List (ChainEdit U)) (e : ChainEdit U) :
    next start (edits ++ [e]) = next start edits + if e.adds then 1 else 0 := by
  rw [next, next, List.countP_append, List.countP_singleton, Nat.add_assoc]

theorem valid_concat :
    Valid start (edits ++ [e]) ↔
      Valid start edits ∧ ∀ n, e.named? = some n → n < next start edits :=
  forall_before_concat

theorem apply_keeps (h : apply chains e = some chains') {chain : Chain U}
    (hn : chains[n]? = some chain) :
    chains'[n]? = some ⟨chain.units ++ (e.pushed? n).toList⟩ := by
  have hlt : n < chains.length := (List.getElem?_eq_some_iff.mp hn).1
  have hsame : chain = ⟨chain.units ++ ([] : List U)⟩ := by rw [List.append_nil]
  cases e with
  | push m u =>
    obtain ⟨pushed, hm, rfl⟩ := Option.map_eq_some_iff.mp h
    by_cases hmn : m = n
    · subst hmn
      rw [hm] at hn
      obtain rfl := Option.some.inj hn
      rw [List.getElem?_set_self hlt, pushed?, if_pos rfl]
      rfl
    · rw [List.getElem?_set_ne hmn, hn, pushed?, if_neg hmn]
      exact congrArg some hsame
  | copy m =>
    obtain ⟨copied, _, rfl⟩ := Option.map_eq_some_iff.mp h
    rw [List.getElem?_append_left hlt, hn]
    exact congrArg some hsame
  | collect units =>
    obtain rfl := Option.some.inj h
    rw [List.getElem?_append_left hlt, hn]
    exact congrArg some hsame
  | create =>
    obtain rfl := Option.some.inj h
    rw [List.getElem?_append_left hlt, hn]
    exact congrArg some hsame

theorem apply_length (h : apply chains e = some chains') :
    chains'.length = chains.length + if e.adds then 1 else 0 := by
  cases e with
  | push m u =>
    obtain ⟨_, _, rfl⟩ := Option.map_eq_some_iff.mp h
    exact List.length_set ..
  | copy m =>
    obtain ⟨_, _, rfl⟩ := Option.map_eq_some_iff.mp h
    exact List.length_append
  | collect units =>
    obtain rfl := Option.some.inj h
    exact List.length_append
  | create =>
    obtain rfl := Option.some.inj h
    exact List.length_append

/-- An edit can be made if the chain that it names exists. -/
theorem exists_apply_iff :
    (∃ chains', apply chains e = some chains') ↔ ∀ n, e.named? = some n → n < chains.length := by
  rw [← Option.isSome_iff_exists]
  cases e with
  | push m u => simp [apply, named?]
  | copy m => simp [apply, named?]
  | collect units => simp [apply, named?]
  | create => simp [apply, named?]

theorem applyAll_append (start : Chains U) (before after : List (ChainEdit U)) :
    applyAll start (before ++ after) =
      (applyAll start before).bind (fun chains => applyAll chains after) :=
  List.foldlM_append

theorem applyAll_cons (start : Chains U) (e : ChainEdit U) (after : List (ChainEdit U)) :
    applyAll start (e :: after) = (apply start e).bind (fun chains => applyAll chains after) :=
  List.foldlM_cons

theorem applyAll_concat (start : Chains U) (edits : List (ChainEdit U)) (e : ChainEdit U) :
    applyAll start (edits ++ [e]) = (applyAll start edits).bind (fun chains => apply chains e) := by
  rw [applyAll_append]
  refine congrArg _ (funext fun chains => ?_)
  rw [applyAll_cons]
  exact Option.bind_fun_some _

theorem applyAll_keeps (h : applyAll chains edits = some chains') {chain : Chain U}
    (hn : chains[n]? = some chain) :
    chains'[n]? = some ⟨chain.units ++ pushes n edits⟩ := by
  induction edits using List.reverseRecOn generalizing chains' with
  | nil =>
    obtain rfl := Option.some.inj h
    rw [hn, pushes, List.filterMap_nil, List.append_nil]
  | append_singleton edits e ih =>
    rw [applyAll_concat] at h
    obtain ⟨middle, hmiddle, he⟩ := Option.bind_eq_some_iff.mp h
    rw [apply_keeps he (ih hmiddle), pushes_concat, List.append_assoc]

theorem applyAll_length (h : applyAll start edits = some chains) :
    chains.length = next start edits := by
  induction edits using List.reverseRecOn generalizing chains with
  | nil =>
    obtain rfl := Option.some.inj h
    rfl
  | append_singleton edits e ih =>
    rw [applyAll_concat] at h
    obtain ⟨middle, hmiddle, he⟩ := Option.bind_eq_some_iff.mp h
    rw [apply_length he, ih hmiddle, next_concat]

/-- Edits can be made if each of them names a chain that exists by then. -/
theorem exists_applyAll_iff : (∃ chains, applyAll start edits = some chains) ↔ Valid start edits := by
  induction edits using List.reverseRecOn with
  | nil => exact ⟨fun _ before e after h => by simp at h, fun _ => ⟨start, rfl⟩⟩
  | append_singleton edits e ih =>
    rw [valid_concat, ← ih, applyAll_concat]
    constructor
    · rintro ⟨chains, h⟩
      obtain ⟨middle, hmiddle, he⟩ := Option.bind_eq_some_iff.mp h
      rw [← applyAll_length hmiddle]
      exact ⟨⟨middle, hmiddle⟩, exists_apply_iff.mp ⟨chains, he⟩⟩
    · rintro ⟨⟨middle, hmiddle⟩, hnamed⟩
      rw [← applyAll_length hmiddle] at hnamed
      obtain ⟨chains, he⟩ := exists_apply_iff.mpr hnamed
      exact ⟨chains, by rw [hmiddle, Option.bind_some, he]⟩

/-- A chain that an edit adds keeps the units it begins with, and gets what is pushed on it. -/
theorem applyAll_added {before after : List (ChainEdit U)} {middle added : Chains U}
    {chain : Chain U} (h : applyAll start (before ++ e :: after) = some chains)
    (hmiddle : applyAll start before = some middle) (he : apply middle e = some added)
    (hchain : added[middle.length]? = some chain) :
    chains[next start before]? = some ⟨chain.units ++ pushes (next start before) after⟩ := by
  rw [applyAll_append, hmiddle, Option.bind_some, applyAll_cons, he, Option.bind_some] at h
  rw [← applyAll_length hmiddle]
  exact applyAll_keeps h hchain

theorem exists_applyAll_before {before after : List (ChainEdit U)}
    (h : applyAll start (before ++ after) = some chains) :
    ∃ middle, applyAll start before = some middle := by
  rw [applyAll_append] at h
  obtain ⟨middle, hmiddle, -⟩ := Option.bind_eq_some_iff.mp h
  exact ⟨middle, hmiddle⟩

/-- After edits, a chain has the units of its history. -/
theorem History.getElem? (h : History start edits n units) (hedits : applyAll start edits = some chains) :
    chains[n]? = some ⟨units⟩ := by
  induction h generalizing chains with
  | started hstart => exact applyAll_keeps hedits hstart
  | copied _ ih =>
    obtain ⟨middle, hmiddle⟩ := exists_applyAll_before hedits
    have hcopy := congrArg (Option.map fun chain => middle ++ [chain]) (ih hmiddle)
    exact applyAll_added hedits hmiddle hcopy List.getElem?_concat_length
  | collected =>
    obtain ⟨middle, hmiddle⟩ := exists_applyAll_before hedits
    exact applyAll_added hedits hmiddle rfl List.getElem?_concat_length
  | created =>
    obtain ⟨middle, hmiddle⟩ := exists_applyAll_before hedits
    exact applyAll_added hedits hmiddle rfl List.getElem?_concat_length

/-- A history goes on with what is pushed. -/
theorem History.concat (h : History start edits n units) (e : ChainEdit U) :
    History start (edits ++ [e]) n (units ++ (e.pushed? n).toList) := by
  cases h with
  | started hstart =>
    rw [List.append_assoc, ← pushes_concat]
    exact .started hstart
  | @copied before n units after hcopied =>
    rw [List.append_assoc units, ← pushes_concat, List.append_assoc, List.cons_append]
    exact .copied hcopied
  | @collected before units after =>
    rw [List.append_assoc units, ← pushes_concat, List.append_assoc, List.cons_append]
    exact .collected
  | created =>
    rw [← pushes_concat, List.append_assoc, List.cons_append]
    exact .created

/-- Every chain has a history. -/
theorem exists_history (hedits : applyAll start edits = some chains) (hn : n < chains.length) :
    ∃ units, History start edits n units := by
  induction edits using List.reverseRecOn generalizing chains n with
  | nil =>
    obtain rfl := Option.some.inj hedits
    exact ⟨_, .started (List.getElem?_eq_getElem hn)⟩
  | append_singleton edits e ih =>
    rw [applyAll_concat] at hedits
    obtain ⟨middle, hmiddle, he⟩ := Option.bind_eq_some_iff.mp hedits
    rcases Nat.lt_or_ge n middle.length with hold | hnew
    · obtain ⟨units, h⟩ := ih hmiddle hold
      exact ⟨_, h.concat e⟩
    · have hlength := apply_length he
      have hadds : e.adds = true := by
        cases hquiet : e.adds with
        | true => rfl
        | false =>
          rw [hquiet, if_neg Bool.false_ne_true] at hlength
          omega
      rw [if_pos hadds] at hlength
      obtain rfl : n = next start edits := by
        rw [← applyAll_length hmiddle]
        omega
      cases e with
      | push m u => cases hadds
      | copy m =>
        obtain ⟨units, h⟩ := ih hmiddle (exists_apply_iff.mp ⟨chains, he⟩ m rfl)
        exact ⟨_, .copied h⟩
      | collect units => exact ⟨_, .collected⟩
      | create => exact ⟨_, .created⟩

/-- Of chains that are edited, each has the units of its history and no others. -/
theorem getElem?_eq_some_iff_history (hedits : applyAll start edits = some chains) :
    chains[n]? = some ⟨units⟩ ↔ History start edits n units := by
  constructor
  · intro hn
    obtain ⟨units', h⟩ := exists_history hedits (List.getElem?_eq_some_iff.mp hn).1
    have hsame := h.getElem? hedits
    rw [hn] at hsame
    cases hsame
    exact h
  · intro h
    exact h.getElem? hedits

/-- A copy and its model begin alike, and then each has what is pushed on it alone. -/
theorem copied_apart {before after : List (ChainEdit U)}
    (hedits : applyAll start (before ++ copy n :: after) = some chains) :
    ∃ units, n ≠ next start before ∧ chains[n]? = some ⟨units ++ pushes n after⟩ ∧
      chains[next start before]? = some ⟨units ++ pushes (next start before) after⟩ := by
  obtain ⟨middle, hmiddle⟩ := exists_applyAll_before hedits
  rw [applyAll_append, hmiddle, Option.bind_some, applyAll_cons] at hedits
  obtain ⟨added, hadded, hafter⟩ := Option.bind_eq_some_iff.mp hedits
  obtain ⟨chain, hn, rfl⟩ := Option.map_eq_some_iff.mp hadded
  have hlt : n < middle.length := (List.getElem?_eq_some_iff.mp hn).1
  rw [← applyAll_length hmiddle]
  refine ⟨chain.units, Nat.ne_of_lt hlt, ?_, ?_⟩
  · exact applyAll_keeps hafter ((List.getElem?_append_left hlt).trans hn)
  · exact applyAll_keeps hafter List.getElem?_concat_length

end

end ChainEdit

namespace Chain

/-- A chain runs its units in order up to the first that fails, and each of several chains that are
edited side by side keeps the units of its own history. -/
theorem execute_fail_fast {U S : Type} (c : Chain U) (handle : U → Action S Unit) (s : S) :
    (∃ ran result s', Ends handle c.units s ran result s') ∧
    (∀ ran result s', Ends handle c.units s ran result s' →
      (c.execute handle).outcome s = (result, s') ∧
      (c.execute (logging handle)).outcome (s, []) = (result, (s', ran))) ∧
    (c.execute handle).outcome s = c.units.foldl (goOn handle) (.ok (), s) ∧
    (∀ d : Chain U, ((ofList (c.units ++ d.units)).execute handle).outcome s =
      match (c.execute handle).outcome s with
      | (.ok (), s') => (d.execute handle).outcome s'
      | (.error status, s') => (.error status, s')) ∧
    ∀ (start : Chains U) (edits : List (ChainEdit U)),
      match ChainEdit.applyAll start edits with
      | none => ¬ ChainEdit.Valid start edits
      | some chains =>
        ChainEdit.Valid start edits ∧ chains.length = ChainEdit.next start edits ∧
        (∀ n units, chains[n]? = some ⟨units⟩ ↔ ChainEdit.History start edits n units) ∧
        ∀ before n after, edits = before ++ .copy n :: after →
          let new := ChainEdit.next start before
          ∃ units, n ≠ new ∧ chains[n]? = some ⟨units ++ ChainEdit.pushes n after⟩ ∧
            chains[new]? = some ⟨units ++ ChainEdit.pushes new after⟩ := by
  refine ⟨exists_ends handle c.units s, ?_, runUnits_eq_foldl c.units s,
    fun d => execute_append c d handle s, fun start edits => ?_⟩
  · intro ran result s' h
    exact ⟨h.runUnits, h.logging.runUnits⟩
  · cases hedits : ChainEdit.applyAll start edits with
    | none =>
      intro hvalid
      obtain ⟨chains, hchains⟩ := ChainEdit.exists_applyAll_iff.mpr hvalid
      rw [hedits] at hchains
      cases hchains
    | some chains =>
      refine ⟨ChainEdit.exists_applyAll_iff.mp ⟨chains, hedits⟩, ChainEdit.applyAll_length hedits,
        fun n units => ChainEdit.getElem?_eq_some_iff_history hedits, ?_⟩
      rintro before n after rfl
      exact ChainEdit.copied_apart hedits

/-- What is pushed on a copy, and then on its model. -/
example : (ChainEdit.applyAll [.ofList ["log"]]
      [.copy 0, .push 1 "name", .push 0 "refuse"]).map (List.map Chain.units) =
    some [["log", "refuse"], ["log", "name"]] := by
  decide

end Chain

end UnaryRpc
