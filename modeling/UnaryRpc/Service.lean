import UnaryRpc.Context
import UnaryRpc.Message
import UnaryRpc.Table

namespace UnaryRpc

/-- What a method works with: where to allocate messages, the request's context, and the world
outside the request. -/
structure Scope (κ σ : Type) [ContextKeys κ] where
  store : Message.Store
  context : Context κ
  world : σ

namespace Scope

variable {κ σ : Type} [ContextKeys κ]

/-- Does something to the store of a scope. -/
def withStore {α : Type} (action : Action Message.Store α) : Action (Scope κ σ) α := fun s =>
  let (result, store) := action.outcome s.store
  (result, { s with store })

def withWorld {α : Type} (action : Action σ α) : Action (Scope κ σ) α := fun s =>
  let (result, world) := action.outcome s.world
  (result, { s with world })

/-- Allocates a message for the request. -/
def alloc {M : Type} [Message M] (m : M) : Action (Scope κ σ) (Owned M) :=
  withStore (modifyGet (fun store => Message.newIn store m))

def inspect (s : Scope κ σ) : String :=
  Inspect.record "RequestScope"
    [("arena", Inspect.optional (s.store.map Arena.inspect)), ("context", s.context.inspect)]

end Scope

/-- Decodes a body, calls a method and leaves its output to be encoded. -/
abbrev Invoker (κ σ : Type) [ContextKeys κ] :=
  Http.Body → Encoding → Action (Scope κ σ) (Owned Outbound)

/-- A name, the methods it lists, and a way to invoke them. -/
structure Service (κ σ : Type) [ContextKeys κ] where
  name : String
  methods : List String
  invoke : String → Invoker κ σ

/-- A part of a world, and how to change it within the whole. -/
structure Focus (σ τ : Type) where
  get : σ → τ
  set : σ → τ → σ

/-- Places a service over a part of the world into the whole. -/
def Service.focus {κ σ τ : Type} [ContextKeys κ] (part : Focus σ τ) (s : Service κ τ) :
    Service κ σ where
  name := s.name
  methods := s.methods
  invoke method body encoding := fun scope =>
    let inner : Scope κ τ := ⟨scope.store, scope.context, part.get scope.world⟩
    let (result, inner) := (s.invoke method body encoding).outcome inner
    (result, ⟨inner.store, inner.context, part.set scope.world inner.world⟩)

/-- A service under construction: its methods in the order of their first registration. -/
structure Descriptor (κ σ : Type) [ContextKeys κ] where
  name : String
  methods : List String
  invokers : Table (Invoker κ σ)

namespace Descriptor

variable {κ σ : Type} [ContextKeys κ]

def new (name : String) : Descriptor κ σ := ⟨name, [], .empty⟩

/-- The invoker of a function from messages to messages. -/
def invoker {I O : Type} [Message I] [Message O] (function : I → Action (Scope κ σ) (Owned O)) :
    Invoker κ σ := fun body encoding => do
  let input : Owned I ← Scope.withStore (Message.receive encoding body)
  let output ← function input.value
  return output.map Message.erase

/-- Registers a method. One registered again keeps its place and takes the new function. -/
def unary {I O : Type} [Message I] [Message O] (d : Descriptor κ σ) (method : String)
    (function : I → Action (Scope κ σ) (Owned O)) : Descriptor κ σ where
  name := d.name
  methods := if (d.invokers.get? method).isSome then d.methods else d.methods ++ [method]
  invokers := d.invokers.insert method (invoker function)

def invoke (d : Descriptor κ σ) (method : String) : Invoker κ σ := fun body encoding =>
  match d.invokers.get? method with
  | some run => run body encoding
  | none => throw (Fault.unknownMethod d.name method).status

def toService (d : Descriptor κ σ) : Service κ σ := ⟨d.name, d.methods, d.invoke⟩

def inspect (d : Descriptor κ σ) : String :=
  Inspect.record "ServiceDescriptor"
    [("name", Inspect.quoted d.name), ("methods", Inspect.list (d.methods.map Inspect.quoted))]

end Descriptor

end UnaryRpc
