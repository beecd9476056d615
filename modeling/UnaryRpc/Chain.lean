import UnaryRpc.Status
import UnaryRpc.Text.Inspect

namespace UnaryRpc

/-- Interceptors in order. -/
structure Chain (U : Type) where
  units : List U := []

namespace Chain

variable {U S : Type}

def empty : Chain U := ⟨[]⟩

def ofList (units : List U) : Chain U := ⟨units⟩

def push (c : Chain U) (u : U) : Chain U := ⟨c.units ++ [u]⟩

def size (c : Chain U) : Nat := c.units.length

def isEmpty (c : Chain U) : Bool := c.units.isEmpty

def runUnits (handle : U → Action S Unit) : List U → Action S Unit
  | [] => pure ()
  | u :: us => do
    handle u
    runUnits handle us

/-- Runs a chain: each unit is handled once, in order, up to the first that fails. -/
def execute (c : Chain U) (handle : U → Action S Unit) : Action S Unit :=
  runUnits handle c.units

def inspect (c : Chain U) : String :=
  Inspect.record "MiddlewareChain" [("units", toString c.size)]

@[simp] theorem units_ofList (units : List U) : (ofList units).units = units := rfl

@[simp] theorem units_push (c : Chain U) (u : U) : (c.push u).units = c.units ++ [u] := rfl

end Chain

end UnaryRpc
