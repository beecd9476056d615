import UnaryRpc.Client.Gateway
import UnaryRpc.Weather.Stations

namespace UnaryRpc.Bench

/-- The context keys of the bench. Two of them share a name. -/
inductive Key where
  | userName
  | tenant
  | attempts
  | shadow
  | caller
deriving DecidableEq

instance : ContextKeys Key where
  Value
    | .userName | .tenant | .caller => String
    | .attempts | .shadow => UInt32
  name
    | .userName | .shadow => "user_name"
    | .tenant => "tenant"
    | .attempts => "attempts"
    | .caller => "caller"
  default
    | .userName => "nobody"
    | .tenant => ""
    | .attempts => (0 : UInt32)
    | .shadow => (7 : UInt32)
    | .caller => "stranger"

/-- The context keys of requests on the bench: those of the weather service and its own. -/
abbrev RequestKey := Weather.Key Key

inductive Event where
  | called (method : String) (output : Option Ownership)
  | received (label : String) (inbound : Inbound) (arena : Option Nat) (context : Nat)
      (status : Nat)
  | failing (code : Code)
  | sending (label : String) (call : Client.Call Key) (arena : Option Nat) (headers : Http.Headers)
  | posted (request : Http.Request)

structure Recording where
  events : List Event := []
  skies : List Weather.Sky := []
  answers : List (Except DeliveryFault Http.Response) := []

namespace Recording

def record (event : Event) : Action Recording Unit :=
  modify (fun r => { r with events := r.events ++ [event] })

/-- The sky of one weather service. -/
def sky (n : Nat) : Focus Recording Weather.Sky where
  get r := r.skies.getD n {}
  set r sky := { r with skies := r.skies.set n sky }

def forget (r : Recording) : Recording := { r with events := [] }

end Recording

end UnaryRpc.Bench
