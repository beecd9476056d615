import UnaryRpc.Protobuf.Record

namespace UnaryRpc.Protobuf

/-- A payload that neither starts nor ends a group. -/
def Payload.Single (p : Payload) : Prop := p ≠ .groupStart ∧ p ≠ .groupEnd

/-- Records that may stand inside a group with so many levels below it. Each of them takes a level,
and so does a group for what is inside it. -/
inductive Nested : (depth : Nat) → List Record → Prop
  | nil {depth : Nat} : Nested depth []
  | single {depth : Nat} {r : Record} {records : List Record} (single : r.payload.Single)
      (others : Nested (depth + 1) records) : Nested (depth + 1) (r :: records)
  | group {depth number : Nat} {inner records : List Record} (inside : Nested depth inner)
      (others : Nested (depth + 1) records) :
      Nested (depth + 1) (⟨number, .groupStart⟩ :: inner ++ ⟨number, .groupEnd⟩ :: records)

/-- Records of a message, and those of them that stand outside groups. A group stands there as its
start. -/
inductive Grouped : (depth : Nat) → List Record → List Record → Prop
  | nil {depth : Nat} : Grouped depth [] []
  | single {depth : Nat} {r : Record} {records outside : List Record} (single : r.payload.Single)
      (others : Grouped depth records outside) : Grouped depth (r :: records) (r :: outside)
  | group {depth number : Nat} {inner records outside : List Record} (inside : Nested depth inner)
      (others : Grouped (depth + 1) records outside) :
      Grouped (depth + 1) (⟨number, .groupStart⟩ :: inner ++ ⟨number, .groupEnd⟩ :: records)
        (⟨number, .groupStart⟩ :: outside)

namespace Nesting

theorem step_single_outside {r : Record} (h : r.payload.Single) (depth : Nat)
    (outside : List Record) :
    Nesting.step depth ⟨[], outside⟩ r = some ⟨[], r :: outside⟩ := by
  obtain ⟨number, payload⟩ := r
  cases payload with
  | groupStart => exact absurd rfl h.1
  | groupEnd => exact absurd rfl h.2
  | _ => rfl

theorem step_single_inside {r : Record} (h : r.payload.Single) (depth number : Nat)
    (opened : List Nat) (outside : List Record) :
    Nesting.step depth ⟨number :: opened, outside⟩ r =
      if opened.length + 1 < depth then some ⟨number :: opened, outside⟩ else none := by
  obtain ⟨field, payload⟩ := r
  cases payload with
  | groupStart => exact absurd rfl h.1
  | groupEnd => exact absurd rfl h.2
  | _ => rfl

theorem step_start_outside (depth number : Nat) (outside : List Record) :
    Nesting.step depth ⟨[], outside⟩ ⟨number, .groupStart⟩ =
      if depth = 0 then none else some ⟨[number], ⟨number, .groupStart⟩ :: outside⟩ := rfl

theorem step_start_inside (depth field number : Nat) (opened : List Nat) (outside : List Record) :
    Nesting.step depth ⟨number :: opened, outside⟩ ⟨field, .groupStart⟩ =
      if opened.length + 1 < depth then some ⟨field :: number :: opened, outside⟩ else none := rfl

theorem step_end_inside (depth field number : Nat) (opened : List Nat) (outside : List Record) :
    Nesting.step depth ⟨number :: opened, outside⟩ ⟨field, .groupEnd⟩ =
      if field = number then some ⟨opened, outside⟩ else none := rfl

theorem run_cons (depth : Nat) (s : Nesting) (r : Record) (records : List Record) :
    Nesting.run depth s (r :: records) =
      (s.step depth r).bind (fun s => s.run depth records) := by
  rw [Nesting.run]
  cases s.step depth r <;> rfl

/-- What is nested in an open group leaves no trace. -/
theorem run_nested {below depth : Nat} {inner : List Record} (h : Nested below inner)
    (number : Nat) (opened : List Nat) (outside rest : List Record)
    (hdepth : opened.length + 1 + below = depth) :
    Nesting.run depth ⟨number :: opened, outside⟩ (inner ++ rest) =
      Nesting.run depth ⟨number :: opened, outside⟩ rest := by
  induction h generalizing number opened rest with
  | nil => rfl
  | @single below r records single _ ih =>
    have hroom : opened.length + 1 < depth := by omega
    rw [List.cons_append, run_cons, step_single_inside single, if_pos hroom, Option.bind_some]
    exact ih number opened rest hdepth
  | @group below field inner records _ _ ihInner ihOthers =>
    have hroom : opened.length + 1 < depth := by omega
    rw [List.cons_append, List.cons_append, List.append_assoc, run_cons, step_start_inside,
      if_pos hroom, Option.bind_some,
      ihInner field (number :: opened) _ (by simp only [List.length_cons]; omega),
      List.cons_append, run_cons, step_end_inside, if_pos rfl, Option.bind_some]
    exact ihOthers number opened rest hdepth

/-- The records up to the end of an open group are nested in it. -/
theorem nested_of_run {depth number : Nat} {opened : List Nat} {outside records out : List Record}
    (hopen : opened.length + 1 ≤ depth)
    (h : Nesting.run depth ⟨number :: opened, outside⟩ records = some ⟨[], out⟩) :
    ∃ inner rest, records = inner ++ ⟨number, .groupEnd⟩ :: rest ∧
      Nested (depth - (opened.length + 1)) inner ∧
      Nesting.run depth ⟨opened, outside⟩ rest = some ⟨[], out⟩ := by
  -- a group takes a part of the records, so the induction is on their number
  induction hlen : records.length using Nat.strongRecOn generalizing number opened records with
  | ind n ih =>
    cases records with
    | nil => simp [Nesting.run] at h
    | cons r records =>
      simp only [List.length_cons] at hlen
      rw [run_cons] at h
      by_cases hstart : r.payload = .groupStart
      · obtain ⟨field, payload⟩ := r
        subst hstart
        by_cases hroom : opened.length + 1 < depth
        · obtain ⟨below, hbelow⟩ : ∃ below, depth - (opened.length + 1) = below + 1 :=
            ⟨depth - (opened.length + 1) - 1, by omega⟩
          rw [step_start_inside, if_pos hroom, Option.bind_some] at h
          have hdeeper : (number :: opened).length + 1 ≤ depth := by
            rw [List.length_cons]
            omega
          obtain ⟨inner, rest, rfl, hinner, hrest⟩ := ih records.length (by omega) hdeeper h rfl
          obtain ⟨inner', rest', rfl, hinner', hrest'⟩ :=
            ih rest.length (by simp only [List.length_append, List.length_cons] at hlen; omega)
              hopen hrest rfl
          refine ⟨⟨field, .groupStart⟩ :: inner ++ ⟨field, .groupEnd⟩ :: inner', rest', by simp,
            ?_, hrest'⟩
          rw [hbelow] at hinner' ⊢
          refine .group ?_ hinner'
          rwa [List.length_cons, show depth - (opened.length + 1 + 1) = below by omega] at hinner
        · rw [step_start_inside, if_neg hroom] at h
          contradiction
      · by_cases hend : r.payload = .groupEnd
        · obtain ⟨field, payload⟩ := r
          subst hend
          by_cases hnumber : field = number
          · subst hnumber
            rw [step_end_inside, if_pos rfl, Option.bind_some] at h
            exact ⟨[], records, rfl, .nil, h⟩
          · rw [step_end_inside, if_neg hnumber] at h
            contradiction
        · have hsingle : r.payload.Single := ⟨hstart, hend⟩
          rw [step_single_inside hsingle] at h
          split at h
          · rename_i hroom
            obtain ⟨below, hbelow⟩ : ∃ below, depth - (opened.length + 1) = below + 1 :=
              ⟨depth - (opened.length + 1) - 1, by omega⟩
            rw [Option.bind_some] at h
            obtain ⟨inner, rest, rfl, hinner, hrest⟩ :=
              ih records.length (by omega) hopen h rfl
            refine ⟨r :: inner, rest, rfl, ?_, hrest⟩
            rw [hbelow] at hinner ⊢
            exact .single hsingle hinner
          · contradiction

theorem run_grouped {depth : Nat} {records outside : List Record}
    (h : Grouped depth records outside) (before : List Record) :
    Nesting.run depth ⟨[], before⟩ records = some ⟨[], outside.reverse ++ before⟩ := by
  induction h generalizing before with
  | nil => rfl
  | @single depth r records outside single _ ih =>
    rw [run_cons, step_single_outside single, Option.bind_some, ih]
    simp
  | @group depth number inner records outside inside _ ih =>
    rw [List.cons_append, run_cons, step_start_outside, if_neg (by omega), Option.bind_some,
      run_nested inside number [] _ _ (by simp only [List.length_nil]; omega), run_cons,
      step_end_inside, if_pos rfl, Option.bind_some, ih]
    simp

theorem grouped_of_run {depth : Nat} {before records out : List Record}
    (h : Nesting.run depth ⟨[], before⟩ records = some ⟨[], out⟩) :
    ∃ outside, out = outside.reverse ++ before ∧ Grouped depth records outside := by
  induction hlen : records.length using Nat.strongRecOn generalizing before records with
  | ind n ih =>
    cases records with
    | nil =>
      simp only [Nesting.run, Option.some.injEq, Nesting.mk.injEq, true_and] at h
      exact ⟨[], by simp [h], .nil⟩
    | cons r records =>
      simp only [List.length_cons] at hlen
      rw [run_cons] at h
      by_cases hstart : r.payload = .groupStart
      · obtain ⟨number, payload⟩ := r
        subst hstart
        cases depth with
        | zero => contradiction
        | succ depth =>
          rw [step_start_outside, if_neg (by omega), Option.bind_some] at h
          obtain ⟨inner, rest, rfl, hinner, hrest⟩ :=
            nested_of_run (by simp only [List.length_nil]; omega) h
          obtain ⟨outside, hout, hothers⟩ :=
            ih rest.length (by simp only [List.length_append, List.length_cons] at hlen; omega)
              hrest rfl
          exact ⟨⟨number, .groupStart⟩ :: outside, by simp [hout], .group hinner hothers⟩
      · by_cases hend : r.payload = .groupEnd
        · obtain ⟨number, payload⟩ := r
          subst hend
          contradiction
        · have hsingle : r.payload.Single := ⟨hstart, hend⟩
          rw [step_single_outside hsingle, Option.bind_some] at h
          obtain ⟨outside, hout, hothers⟩ := ih records.length (by omega) h rfl
          exact ⟨r :: outside, by simp [hout], .single hsingle hothers⟩

end Nesting

/-- The records outside groups are found exactly if all records nest properly. -/
theorem outermost_eq_some_iff {depth : Nat} {records outside : List Record} :
    outermost depth records = some outside ↔ Grouped depth records outside := by
  constructor
  · intro h
    rw [outermost] at h
    split at h
    · rename_i out hrun
      obtain ⟨outside', rfl, hgrouped⟩ := Nesting.grouped_of_run hrun
      simp only [List.append_nil, List.reverse_reverse, Option.some.injEq] at h
      rwa [← h]
    · contradiction
  · intro h
    rw [outermost, Nesting.run_grouped h []]
    simp

theorem Grouped.mem {depth : Nat} {records outside : List Record}
    (h : Grouped depth records outside) {r : Record} (hr : r ∈ outside) : r ∈ records := by
  induction h with
  | nil => exact hr
  | single _ _ ih =>
    rcases List.mem_cons.mp hr with rfl | hr
    · exact List.mem_cons_self
    · exact List.mem_cons_of_mem _ (ih hr)
  | group _ _ ih =>
    rcases List.mem_cons.mp hr with rfl | hr
    · exact List.mem_cons_self
    · exact List.mem_append_right _ (List.mem_cons_of_mem _ (ih hr))

/-- Records without groups all stand outside groups. -/
theorem grouped_single (depth : Nat) {records : List Record}
    (h : ∀ r ∈ records, r.payload.Single) : Grouped depth records records := by
  induction records with
  | nil => exact .nil
  | cons r records ih => exact .single (h r (by simp)) (ih (fun x hx => h x (by simp [hx])))

end UnaryRpc.Protobuf
