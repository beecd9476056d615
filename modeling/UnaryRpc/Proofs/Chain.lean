import UnaryRpc.Chain

namespace UnaryRpc

namespace Action

variable {S α β : Type}

theorem outcome_bind_ok {a : Action S α} {s s' : S} {x : α} (h : a.outcome s = (.ok x, s'))
    (f : α → Action S β) : (a >>= f).outcome s = (f x).outcome s' := by
  change (ExceptT.bind a f) s = _
  have ha : a s = (.ok x, s') := h
  simp only [ExceptT.bind, ExceptT.mk, bind, StateT.bind, ha]
  rfl

theorem outcome_bind_error {a : Action S α} {s s' : S} {status : Status}
    (h : a.outcome s = (.error status, s')) (f : α → Action S β) :
    (a >>= f).outcome s = (.error status, s') := by
  change (ExceptT.bind a f) s = _
  have ha : a s = (.error status, s') := h
  simp only [ExceptT.bind, ExceptT.mk, bind, StateT.bind, ha]
  rfl

end Action

/-- Steps that may each follow those before it: the last one after all others, and the others among
themselves. -/
theorem forall_before_concat.{u} {A : Type u} {P : List A → A → Prop} {steps : List A} {s : A} :
    (∀ before x after, steps ++ [s] = before ++ x :: after → P before x) ↔
      (∀ before x after, steps = before ++ x :: after → P before x) ∧ P steps s := by
  constructor
  · intro h
    refine ⟨?_, h steps s [] rfl⟩
    rintro before x after rfl
    exact h before x (after ++ [s]) (by simp)
  · rintro ⟨hsteps, hs⟩ before x after hsplit
    rcases List.eq_nil_or_concat after with rfl | ⟨after, last, rfl⟩
    · obtain ⟨rfl, hlast⟩ := List.append_inj' hsplit rfl
      obtain rfl := List.singleton_inj.mp hlast
      exact hs
    · rw [List.concat_eq_append, ← List.cons_append, ← List.append_assoc] at hsplit
      exact hsteps before x after (List.append_inj' hsplit rfl).1

namespace Chain

variable {U S : Type}

/-- Units that all succeed, one after another, and take one state to another. -/
inductive Passes (handle : U → Action S Unit) : List U → S → S → Prop
  | nil (s : S) : Passes handle [] s s
  | cons {u : U} {us : List U} {s t s' : S} (first : (handle u).outcome s = (.ok (), t))
      (others : Passes handle us t s') : Passes handle (u :: us) s s'

variable {handle : U → Action S Unit} {s s' s'' : S}

theorem runUnits_of_passes {us : List U} (h : Passes handle us s s') :
    (runUnits handle us).outcome s = (.ok (), s') := by
  induction h with
  | nil s => rfl
  | cons first _ ih =>
    rw [runUnits, Action.outcome_bind_ok first]
    exact ih

theorem runUnits_of_fails {before after : List U} {u : U} {status : Status}
    (h : Passes handle before s s') (hu : (handle u).outcome s' = (.error status, s'')) :
    (runUnits handle (before ++ u :: after)).outcome s = (.error status, s'') := by
  induction h with
  | nil s =>
    rw [List.nil_append, runUnits]
    exact Action.outcome_bind_error hu _
  | cons first _ ih =>
    rw [List.cons_append, runUnits, Action.outcome_bind_ok first]
    exact ih hu

/-- A chain ends in one of the two ways. -/
theorem passes_or_fails (handle : U → Action S Unit) (us : List U) (s : S) :
    (∃ s', Passes handle us s s') ∨
      ∃ before u after s' status s'', us = before ++ u :: after ∧ Passes handle before s s' ∧
        (handle u).outcome s' = (.error status, s'') := by
  induction us generalizing s with
  | nil => exact .inl ⟨s, .nil s⟩
  | cons u us ih =>
    rcases hu : (handle u).outcome s with ⟨status | ⟨⟩, t⟩
    · exact .inr ⟨[], u, us, s, status, t, rfl, .nil s, hu⟩
    · rcases ih t with ⟨s', hs⟩ | ⟨before, v, after, s', status, s'', rfl, hs, hv⟩
      · exact .inl ⟨s', .cons hu hs⟩
      · exact .inr ⟨u :: before, v, after, s', status, s'', rfl, .cons hu hs, hv⟩

theorem map_range_succ {A : Type} (mark : Nat → A) (n : Nat) :
    (List.range (n + 1)).map mark = (List.range n).map mark ++ [mark n] := by
  rw [List.range_succ, List.map_append, List.map_singleton]

/-- Numbered units around one of them. -/
theorem zipIdx_around.{u, v} {U : Type u} {V : Type v} (note : Nat → U → V)
    (before after : List U) (u : U) :
    ((before ++ u :: after).zipIdx).map (fun p => note p.2 p.1) =
      (before.zipIdx.map fun p => note p.2 p.1) ++ note before.length u ::
        (after.zipIdx (before.length + 1)).map fun p => note p.2 p.1 := by
  rw [List.zipIdx_append, List.map_append, List.zipIdx_cons, List.map_cons, Nat.zero_add]

section

variable {V T A : Type} {handle' : V → Action T Unit} {note : Nat → U → V} {lift : S → List A → T}
  {mark : Nat → A} {us : List U}
  (hnote : ∀ {u s s'}, (handle u).outcome s = (.ok (), s') → ∀ number diary,
    (handle' (note number u)).outcome (lift s diary) = (.ok (), lift s' (diary ++ [mark number])))
include hnote

theorem Passes.noting_from (h : Passes handle us s s') (first : Nat) (diary : List A) :
    Passes handle' ((us.zipIdx first).map (fun p => note p.2 p.1)) (lift s diary)
      (lift s' (diary ++ (List.range' first us.length).map mark)) := by
  -- later units go on from the numbers of the earlier ones, so both may start anywhere
  induction h generalizing first diary with
  | nil s =>
    rw [List.length_nil, List.range'_zero, List.map_nil, List.append_nil]
    exact .nil _
  | cons hu _ ih =>
    have hothers := ih (first + 1) (diary ++ [mark first])
    rw [List.append_assoc, List.singleton_append] at hothers
    rw [List.length_cons, List.range'_succ, List.map_cons, List.zipIdx_cons, List.map_cons]
    exact .cons (hnote hu first diary) hothers

/-- Units that pass still do when each writes down its number, in a diary that the state carries
along. -/
theorem Passes.noting (h : Passes handle us s s') :
    Passes handle' (us.zipIdx.map (fun p => note p.2 p.1)) (lift s [])
      (lift s' ((List.range us.length).map mark)) := by
  have hpass := Passes.noting_from hnote h 0 []
  rw [List.nil_append, ← List.range_eq_range'] at hpass
  exact hpass

end

end Chain

end UnaryRpc
