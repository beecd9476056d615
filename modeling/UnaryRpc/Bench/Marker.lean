import UnaryRpc.Chain

namespace UnaryRpc.Bench

structure Marker where
  label : String
  failure : Option Status := none

def Marker.handle (m : Marker) : Action (List String) Unit := do
  modify (fun trail => trail ++ [m.label])
  match m.failure with
  | some status => throw status
  | none => pure ()

end UnaryRpc.Bench
