import UnaryRpc.Proofs.Ownership.Past

namespace UnaryRpc.Heap

variable {α β : Type}

theorem join_getElem?_append (l : List (Option β)) (x : Option β) (k : Nat) :
    (l ++ [x])[k]?.join = if k = l.length then x else l[k]?.join := by
  rw [getElem?_append_singleton]
  split
  · rfl
  · rfl

theorem join_getElem?_set (l : List (Option β)) {i : Nat} (h : i < l.length) (x : Option β)
    (k : Nat) : (l.set i x)[k]?.join = if i = k then x else l[k]?.join := by
  by_cases hk : i = k
  · simp [← hk, h]
  · rw [if_neg hk, List.getElem?_set_ne hk]

theorem lt_of_join_getElem? {l : List (Option β)} {k : Nat} {x : β} (h : l[k]?.join = some x) :
    k < l.length :=
  (List.getElem?_eq_some_iff.mp (Option.join_eq_some_iff.mp h)).1

theorem handle?_lt {heap : Heap α} {h : Nat} {handle : Handle} (hh : heap.handle? h = some handle) :
    h < heap.handles.length :=
  lt_of_join_getElem? hh

theorem arena?_lt {heap : Heap α} {a : Nat} {arena : Arena Nat} (ha : heap.arena? a = some arena) :
    a < heap.arenas.length :=
  lt_of_join_getElem? ha

theorem inHandle_iff (heap : Heap α) (object : Nat) :
    heap.inHandle object = true ↔
      ∃ h handle, heap.handle? h = some handle ∧ handle.value = object := by
  simp only [inHandle, List.any_eq_true, Option.any_eq_true, beq_iff_eq, handle?,
    Option.join_eq_some_iff]
  constructor
  · rintro ⟨slot, hslot, handle, rfl, hvalue⟩
    obtain ⟨h, hh⟩ := List.mem_iff_getElem?.mp hslot
    exact ⟨h, handle, hh, hvalue⟩
  · rintro ⟨h, handle, hh, hvalue⟩
    exact ⟨some handle, List.mem_of_getElem? hh, handle, rfl, hvalue⟩

theorem inArena_iff (heap : Heap α) (object : Nat) :
    heap.inArena object = true ↔ ∃ a arena, heap.arena? a = some arena ∧ object ∈ arena.held := by
  simp only [inArena, List.any_eq_true, Option.any_eq_true, List.contains_iff_mem, arena?,
    Option.join_eq_some_iff]
  constructor
  · rintro ⟨slot, hslot, arena, rfl, hmem⟩
    obtain ⟨a, ha⟩ := List.mem_iff_getElem?.mp hslot
    exact ⟨a, arena, ha, hmem⟩
  · rintro ⟨a, arena, ha, hmem⟩
    exact ⟨some arena, List.mem_of_getElem? ha, arena, rfl, hmem⟩

open Past

/-- A heap holds what the steps that led to it say. -/
structure Reflects (past : List (Step α)) (heap : Heap α) : Prop extends Sound past where
  objects_length : heap.objects.length = (creations past).length
  handles_length : heap.handles.length = (creations past).length
  arenas_length : heap.arenas.length = opened past
  value : ∀ object, heap.value? object = Past.value? past object
  handle : ∀ h, heap.handle? h = if handleLive past h then some ⟨ownershipOf past h, h⟩ else none
  arena : ∀ a, heap.arena? a = if arenaLive past a then some ⟨allocated past a⟩ else none

theorem reflects_nil : Reflects [] ({} : Heap α) where
  toSound := sound_nil
  objects_length := rfl
  handles_length := rfl
  arenas_length := rfl
  value _ := rfl
  handle _ := rfl
  arena _ := rfl

namespace Reflects

variable {past : List (Step α)} {heap : Heap α} {s : Step α}

theorem inHandle (hr : Reflects past heap) (object : Nat) :
    heap.inHandle object = handleLive past object := by
  rw [Bool.eq_iff_iff, inHandle_iff]
  constructor
  · rintro ⟨h, handle, hh, rfl⟩
    rw [hr.handle] at hh
    split at hh
    case isTrue hlive => cases hh; exact hlive
    case isFalse => cases hh
  · intro hlive
    exact ⟨object, _, by rw [hr.handle, if_pos hlive], rfl⟩

theorem inArena (hr : Reflects past heap) (object : Nat) :
    heap.inArena object = (arenaOf? past object).any (arenaLive past) := by
  rw [Bool.eq_iff_iff, inArena_iff, Option.any_eq_true]
  constructor
  · rintro ⟨a, arena, ha, hmem⟩
    rw [hr.arena] at ha
    split at ha
    case isTrue hlive => cases ha; exact ⟨a, mem_allocated.mp hmem, hlive⟩
    case isFalse => cases ha
  · rintro ⟨a, ha, hlive⟩
    exact ⟨a, ⟨allocated past a⟩, by rw [hr.arena, if_pos hlive], mem_allocated.mpr ha⟩

/-- A new object with its handle reflects the step that creates it once the arenas do. -/
theorem create (hr : Reflects past heap) (hs : Applicable past s) {a? : Option Nat} {x : α}
    (hcreated : s.created? = some (a?, x)) (arenas : List (Option (Arena Nat)))
    (hlength : arenas.length = heap.arenas.length)
    (harena : ∀ a, arenas[a]?.join =
      if arenaLive past a then some ⟨allocated (past ++ [s]) a⟩ else none) :
    Reflects (past ++ [s])
      { (heap.create (if a?.isSome then .bound else .independent) x).2 with arenas } where
  toSound := hr.toSound.append hs
  objects_length := by simp [Heap.create, hr.objects_length, creations_created hcreated]
  handles_length := by simp [Heap.create, hr.handles_length, creations_created hcreated]
  arenas_length := by simp [hlength, hr.arenas_length, (created_quiet hcreated).1]
  value object := by
    rw [value?_created hr.toSound hcreated, ← hr.value, ← hr.objects_length]
    exact getElem?_append_singleton heap.objects x object
  handle h := by
    have hslot := join_getElem?_append heap.handles
      (some ⟨if a?.isSome then .bound else .independent, heap.objects.length⟩) h
    simp only [Heap.handle?, Heap.create]
    rw [hslot, hr.handles_length, handleLive_created hr.toSound hcreated]
    by_cases hnew : h = (creations past).length
    · simp [hnew, ownershipOf, arenaOf?_created hcreated, hr.objects_length]
    · have hold := hr.handle h
      rw [Heap.handle?] at hold
      rw [if_neg hnew, if_neg hnew, hold, ownershipOf, ownershipOf, arenaOf?_created hcreated,
        if_neg hnew]
  arena a := by
    rw [arenaLive_created hcreated]
    exact harena a

theorem newIn (hr : Reflects past heap) (hs : Applicable past s) {a? : Option Nat} {x : α}
    (hcreated : s.created? = some (a?, x)) :
    ∃ heap', heap.newIn a? x = some ((creations past).length, heap') ∧
      Reflects (past ++ [s]) heap' := by
  cases a? with
  | none =>
    refine ⟨_, ?_, hr.create hs hcreated heap.arenas rfl fun a => ?_⟩
    · simp [Heap.newIn, Heap.independent, Heap.create, hr.handles_length]
    · have hnone : ¬ (none : Option Nat) = some a := by simp
      rw [allocated_created hcreated, if_neg hnone, List.append_nil, ← hr.arena, Heap.arena?]
  | some a =>
    have hlive : arenaLive past a = true := arenaLive_of_created hs hcreated
    have harena : heap.arena? a = some ⟨allocated past a⟩ := by rw [hr.arena, if_pos hlive]
    refine ⟨_, ?_, hr.create hs hcreated (heap.arenas.set a
      (some ((⟨allocated past a⟩ : Arena Nat).alloc heap.objects.length))) (by simp) fun b => ?_⟩
    · simp [Heap.newIn, Heap.alloc, Heap.create, harena, hr.handles_length]
    · have hslot := hr.arena b
      rw [Heap.arena?] at hslot
      rw [join_getElem?_set _ (arena?_lt harena), allocated_created hcreated]
      by_cases hb : a = b
      · rw [if_pos hb, ← hb, if_pos hlive, if_pos rfl, Arena.alloc, hr.objects_length]
      · have hother : ¬ some a = some b := fun h => hb (Option.some.inj h)
        rw [if_neg hb, hslot, if_neg hother, List.append_nil]

theorem newArena (hr : Reflects past heap) :
    heap.newArena.1 = opened past ∧ Reflects (past ++ [.newArena]) heap.newArena.2 := by
  refine ⟨hr.arenas_length, ?_⟩
  have hquiet : (Step.newArena : Step α).created? = none := rfl
  exact {
    toSound := hr.toSound.append trivial
    objects_length := by rw [creations_quiet hquiet]; exact hr.objects_length
    handles_length := by rw [creations_quiet hquiet]; exact hr.handles_length
    arenas_length := by simp [Heap.newArena, hr.arenas_length, Step.opens]
    value := fun object => by rw [value?_quiet hquiet object (.inl rfl)]; exact hr.value object
    handle := fun h => by
      have hkept : (Step.newArena : Step α).givesUp h = false := rfl
      rw [handleLive_quiet hquiet, ownershipOf_quiet hquiet, hkept, Bool.not_false, Bool.and_true]
      exact hr.handle h
    arena := fun a => by
      have hslot := join_getElem?_append heap.arenas (some .empty) a
      have hold := hr.arena a
      rw [Heap.arena?] at hold
      rw [Heap.arena?, Heap.newArena, hslot, hr.arenas_length, arenaLive_newArena hr.toSound,
        allocated_quiet hquiet, hold]
      by_cases hnew : a = opened past
      · rw [if_pos hnew, if_pos hnew, if_pos rfl, hnew, allocated_opened hr.toSound, Arena.empty]
      · rw [if_neg hnew, if_neg hnew] }

/-- Without anything new, a heap reflects a step once what the step gives up is gone from it and
what the step writes is in it. -/
theorem quiet (hr : Reflects past heap) (hs : Applicable past s) (hcreated : s.created? = none)
    (hopens : s.opens = false) {heap' : Heap α}
    (hobjects : heap'.objects.length = heap.objects.length)
    (hhandles : heap'.handles.length = heap.handles.length)
    (harenas : heap'.arenas.length = heap.arenas.length)
    (hvalue : ∀ object, heap'.value? object = Past.value? (past ++ [s]) object)
    (hhandle : ∀ h, heap'.handle? h = if s.givesUp h then none else heap.handle? h)
    (harena : ∀ a, heap'.arena? a = if s.closes a then none else heap.arena? a) :
    Reflects (past ++ [s]) heap' where
  toSound := hr.toSound.append hs
  objects_length := by rw [hobjects, creations_quiet hcreated, hr.objects_length]
  handles_length := by rw [hhandles, creations_quiet hcreated, hr.handles_length]
  arenas_length := by rw [harenas, opened_append, hopens, hr.arenas_length]; rfl
  value := hvalue
  handle h := by
    rw [hhandle, hr.handle, handleLive_quiet hcreated, ownershipOf_quiet hcreated]
    cases s.givesUp h <;> simp
  arena a := by
    rw [harena, hr.arena, arenaLive_quiet hopens, allocated_quiet hcreated]
    cases s.closes a <;> simp

/-- A step that only looks leaves the heap as it is. -/
theorem look (hr : Reflects past heap) (hs : Applicable past s) (hcreated : s.created? = none)
    (hopens : s.opens = false) (hgivesUp : ∀ h, s.givesUp h = false)
    (hcloses : ∀ a, s.closes a = false)
    (hchange : ∀ object, s.change? object = none ∨ arenaOf? past object ≠ none) :
    Reflects (past ++ [s]) heap :=
  hr.quiet hs hcreated hopens rfl rfl rfl
    (fun object => by rw [value?_quiet hcreated object (hchange object), hr.value])
    (fun h => by simp [hgivesUp]) (fun a => by simp [hcloses])

theorem handle?_live (hr : Reflects past heap) {h : Nat} (hlive : handleLive past h = true) :
    heap.handle? h = some ⟨ownershipOf past h, h⟩ := by
  rw [hr.handle, if_pos hlive]

theorem arena?_live (hr : Reflects past heap) {a : Nat} (hlive : arenaLive past a = true) :
    heap.arena? a = some ⟨allocated past a⟩ := by
  rw [hr.arena, if_pos hlive]

theorem modify (hr : Reflects past heap) {h : Nat} {f : α → α} (hlive : handleLive past h = true) :
    ∃ heap', heap.modify h f = some (ownershipOf past h == .independent, heap') ∧
      Reflects (past ++ [.modify h f]) heap' := by
  have hcreated : (Step.modify h f).created? = none := rfl
  cases harena : arenaOf? past h with
  | some a =>
    have hbound : ownershipOf past h = .bound := by simp [ownershipOf, harena]
    refine ⟨heap, by simp [Heap.modify, hr.handle?_live hlive, hbound], ?_⟩
    refine hr.look hlive hcreated rfl (fun _ => rfl) (fun _ => rfl) fun object => ?_
    by_cases hobject : h = object
    · exact .inr (by simp [← hobject, harena])
    · exact .inl (if_neg hobject)
  | none =>
    have hfree : ownershipOf past h = .independent := by simp [ownershipOf, harena]
    refine ⟨_, by simp [Heap.modify, hr.handle?_live hlive, hfree]; rfl, ?_⟩
    refine hr.quiet (s := .modify h f) hlive hcreated rfl (by simp) rfl rfl (fun object => ?_)
      (fun _ => rfl) (fun _ => rfl)
    by_cases hobject : h = object
    · rw [← hobject, value?_modify harena, ← hr.value]
      simp [Heap.value?]
    · rw [value?_quiet hcreated object (.inl (if_neg hobject)), ← hr.value]
      simp [Heap.value?, hobject]

theorem read (hr : Reflects past heap) {h : Nat} (hlive : handleLive past h = true) :
    ∃ x, Past.value? past h = some x ∧ heap.read h = some ⟨ownershipOf past h, x⟩ := by
  obtain ⟨x, hx⟩ := Option.isSome_iff_exists.mp (value?_isSome (lt_of_handleLive hlive))
  exact ⟨x, hx, by simp [Heap.read, hr.handle?_live hlive, hr.value, hx]⟩

/-- Giving up a handle drops its object unless a live arena keeps it. -/
theorem release (hr : Reflects past heap) {h : Nat} (hlive : handleLive past h = true) :
    ∃ heap', heap.release h =
        some (if (arenaOf? past h).any (arenaLive past) then [] else [h], heap') ∧
      Reflects (past ++ [.release h]) heap' := by
  have hhandle := hr.handle?_live hlive
  refine ⟨{ heap with handles := heap.handles.set h none }, ?_, ?_⟩
  · have hkept : ({ heap with handles := heap.handles.set h none } : Heap α).inArena h
        = (arenaOf? past h).any (arenaLive past) := hr.inArena h
    cases harena : arenaOf? past h with
    | none => simp [Heap.release, hhandle, ownershipOf, harena]
    | some a => simp [Heap.release, hhandle, ownershipOf, harena, hkept]
  · refine hr.quiet (s := .release h) hlive rfl rfl rfl (by simp) rfl (fun object => ?_)
      (fun h' => ?_) (fun _ => rfl)
    · rw [value?_quiet rfl object (.inl rfl)]
      exact hr.value object
    · simp only [Step.givesUp, beq_iff_eq]
      exact join_getElem?_set heap.handles (handle?_lt hhandle) none h'

/-- Releasing an arena drops what was allocated in it and has no live handle. -/
theorem releaseArena (hr : Reflects past heap) {a : Nat} (hlive : arenaLive past a = true) :
    ∃ heap', heap.releaseArena a =
        some ((allocated past a).length,
          (allocated past a).filter (fun object => !handleLive past object), heap') ∧
      Reflects (past ++ [.releaseArena a]) heap' := by
  have harena := hr.arena?_live hlive
  refine ⟨{ heap with arenas := heap.arenas.set a none }, ?_, ?_⟩
  · have hkept : ∀ object, ({ heap with arenas := heap.arenas.set a none } : Heap α).inHandle object
        = handleLive past object := hr.inHandle
    simp [Heap.releaseArena, harena, hkept, Arena.size]
  · refine hr.quiet (s := .releaseArena a) hlive rfl rfl rfl rfl (by simp) (fun object => ?_)
      (fun _ => rfl) (fun a' => ?_)
    · rw [value?_quiet rfl object (.inl rfl)]
      exact hr.value object
    · simp only [Step.closes, beq_iff_eq]
      exact join_getElem?_set heap.arenas (arena?_lt harena) none a'

end Reflects

end UnaryRpc.Heap
