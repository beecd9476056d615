import UnaryRpc.Ownership.Arena

namespace UnaryRpc

/-- A handle of an object: its ownership and the object's number. -/
abbrev Handle := Owned Nat

/-- All objects, arenas and handles that were created, by number. Those that are gone are none. An
object lives while a live handle or a live arena keeps it. -/
structure Heap (α : Type) where
  objects : List α := []
  arenas : List (Option (Arena Nat)) := []
  handles : List (Option Handle) := []

namespace Heap

variable {α : Type}

def arena? (heap : Heap α) (a : Nat) : Option (Arena Nat) := heap.arenas[a]?.join

def handle? (heap : Heap α) (h : Nat) : Option Handle := heap.handles[h]?.join

def value? (heap : Heap α) (object : Nat) : Option α := heap.objects[object]?

def inArena (heap : Heap α) (object : Nat) : Bool :=
  heap.arenas.any (fun a => a.any (fun a => a.held.contains object))

def inHandle (heap : Heap α) (object : Nat) : Bool :=
  heap.handles.any (fun h => h.any (fun h => h.value == object))

/-- Adds an object with a handle; the answer is the handle's number. -/
def create (heap : Heap α) (ownership : Ownership) (x : α) : Nat × Heap α :=
  (heap.handles.length,
    { heap with
      objects := heap.objects ++ [x]
      handles := heap.handles ++ [some ⟨ownership, heap.objects.length⟩] })

/-- Adds an arena; the answer is its number. -/
def newArena (heap : Heap α) : Nat × Heap α :=
  (heap.arenas.length, { heap with arenas := heap.arenas ++ [some .empty] })

/-- Allocates in a live arena; the answer is the number of the handle. -/
def alloc (heap : Heap α) (a : Nat) (x : α) : Option (Nat × Heap α) := do
  let arena ← heap.arena? a
  let (h, heap') := heap.create .bound x
  some (h, { heap' with arenas := heap'.arenas.set a (some (arena.alloc heap.objects.length)) })

/-- Creates an object that its handle alone keeps; the answer is the number of the handle. -/
def independent (heap : Heap α) (x : α) : Nat × Heap α :=
  heap.create .independent x

/-- Allocates in an arena if there is one, and independently otherwise. -/
def newIn (heap : Heap α) (a? : Option Nat) (x : α) : Option (Nat × Heap α) :=
  match a? with
  | some a => heap.alloc a x
  | none => some (heap.independent x)

/-- Changes the value behind a handle, which only an independent one allows. The answer is whether
it was allowed. -/
def modify (heap : Heap α) (h : Nat) (f : α → α) : Option (Bool × Heap α) := do
  let handle ← heap.handle? h
  match handle.ownership with
  | .bound => some (false, heap)
  | .independent => some (true, { heap with objects := heap.objects.modify handle.value f })

def read (heap : Heap α) (h : Nat) : Option (Owned α) := do
  let handle ← heap.handle? h
  let x ← heap.value? handle.value
  some ⟨handle.ownership, x⟩

/-- Gives up a handle, by releasing it or by dropping it. The answer is the objects dropped: an
independent one, or a scoped one that no arena keeps any more. -/
def release (heap : Heap α) (h : Nat) : Option (List Nat × Heap α) := do
  let handle ← heap.handle? h
  let heap' := { heap with handles := heap.handles.set h none }
  match handle.ownership with
  | .independent => some ([handle.value], heap')
  | .bound => some (if heap'.inArena handle.value then [] else [handle.value], heap')

/-- Gives up an arena, by releasing it or by dropping it. The answer is the number of objects it held,
which only a release tells, and the objects dropped: those without a live handle, in the order of
their allocation. -/
def releaseArena (heap : Heap α) (a : Nat) : Option (Nat × List Nat × Heap α) := do
  let arena ← heap.arena? a
  let heap' := { heap with arenas := heap.arenas.set a none }
  some (arena.size, arena.held.filter (fun object => !heap'.inHandle object), heap')

inductive Step (α : Type) where
  | newArena
  | alloc (arena : Nat) (value : α)
  | newIn (arena : Option Nat) (value : α)
  | independent (value : α)
  | modify (handle : Nat) (change : α → α)
  | read (handle : Nat)
  | release (handle : Nat)
  | releaseArena (arena : Nat)
  | inspect (arena : Nat)

inductive Answer (α : Type) where
  | number (n : Nat)
  | allowed (b : Bool)
  | value (o : Owned α)
  | arena (a : Arena Nat)
  | none

/-- What a step comes to: its answer, the values it drops in order, and the heap after it. -/
structure Outcome (α : Type) where
  answer : Answer α
  dropped : List α
  heap : Heap α

def step (heap : Heap α) : Step α → Option (Outcome α)
  | .newArena =>
    let (n, heap) := heap.newArena
    some ⟨.number n, [], heap⟩
  | .alloc a x => (heap.alloc a x).map (fun (n, heap) => ⟨.number n, [], heap⟩)
  | .newIn a? x => (heap.newIn a? x).map (fun (n, heap) => ⟨.number n, [], heap⟩)
  | .independent x =>
    let (n, heap) := heap.independent x
    some ⟨.number n, [], heap⟩
  | .modify h f => (heap.modify h f).map (fun (b, heap) => ⟨.allowed b, [], heap⟩)
  | .read h => (heap.read h).map (fun o => ⟨.value o, [], heap⟩)
  | .release h =>
    (heap.release h).map (fun (gone, heap') => ⟨.none, gone.filterMap heap.value?, heap'⟩)
  | .releaseArena a =>
    (heap.releaseArena a).map (fun (n, gone, heap') => ⟨.number n, gone.filterMap heap.value?, heap'⟩)
  | .inspect a => (heap.arena? a).map (fun arena => ⟨.arena arena, [], heap⟩)

def run (heap : Heap α) : List (Step α) → Option (List (Outcome α) × Heap α)
  | [] => some ([], heap)
  | s :: steps => do
    let outcome ← heap.step s
    let (outcomes, heap) ← outcome.heap.run steps
    some (outcome :: outcomes, heap)

end Heap

end UnaryRpc
