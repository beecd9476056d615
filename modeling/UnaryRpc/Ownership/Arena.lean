import UnaryRpc.Text.Inspect

namespace UnaryRpc

/-- Who keeps an object alive. -/
inductive Ownership where
  | bound
  | independent
deriving DecidableEq, Repr

def Ownership.inspect : Ownership → String
  | bound => "Scoped"
  | independent => "Independent"

/-- A scope that keeps objects alive, in the order of their allocation. -/
structure Arena (α : Type) where
  held : List α
deriving DecidableEq

namespace Arena

variable {α : Type}

def empty : Arena α := ⟨[]⟩

/-- Moves an object into an arena. -/
def alloc (a : Arena α) (x : α) : Arena α := ⟨a.held ++ [x]⟩

def size (a : Arena α) : Nat := a.held.length

def isEmpty (a : Arena α) : Bool := a.held.isEmpty

def inspect (a : Arena α) : String :=
  Inspect.record "Arena" [("allocations", toString a.size)]

end Arena

/-- A value with its ownership. -/
structure Owned (α : Type) where
  ownership : Ownership
  value : α

namespace Owned

variable {α β : Type}

/-- A value that its handle alone keeps. -/
def independent (x : α) : Owned α := ⟨.independent, x⟩

def isBound (o : Owned α) : Bool := o.ownership == .bound

/-- Changes how a value is seen; who keeps it stays. -/
def map (f : α → β) (o : Owned α) : Owned β := ⟨o.ownership, f o.value⟩

def inspect (value : α → String) (o : Owned α) : String :=
  Inspect.record "Owned" [("ownership", o.ownership.inspect), ("value", value o.value)]

end Owned

end UnaryRpc
