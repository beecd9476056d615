import UnaryRpc.Service
import UnaryRpc.Weather.Messages

namespace UnaryRpc.Weather

/-- The keys of a weather request: who asks, beside keys of another family. -/
inductive Key (ε : Type) where
  | clientName
  | other (k : ε)
deriving DecidableEq

instance {ε : Type} [ContextKeys ε] : ContextKeys (Key ε) where
  Value
    | .clientName => String
    | .other k => ContextKeys.Value k
  name
    | .clientName => "client_name"
    | .other k => ContextKeys.name k
  default
    | .clientName => "anonymous"
    | .other k => ContextKeys.default k

inductive Level where
  | info
  | warn
deriving DecidableEq

def Level.label : Level → String
  | info => "INFO"
  | warn => "WARN"

structure LogLine where
  level : Level
  text : String
deriving DecidableEq

structure Sky where
  stations : Table WeatherStation := .empty
  log : List LogLine := []
deriving DecidableEq, Inhabited

namespace Sky

def write (level : Level) (text : String) : Action Sky Unit :=
  modify (fun sky => { sky with log := sky.log ++ [⟨level, text⟩] })

end Sky

inductive WeatherFault where
  | noStation (id : String)
  | noIdentity
  | clientName
deriving DecidableEq

def WeatherFault.status : WeatherFault → Status
  | noStation id => { code := .notFound, message := "no station " ++ id }
  | noIdentity =>
    Status.set { code := .invalidArgument, message := "station id is required" }
      "argument" "ws_id"
  | clientName => { code := .invalidArgument, message := "client name must be ascii" }

variable {ε : Type} [ContextKeys ε] [DecidableEq ε]

def clientName : Action (Scope (Key ε) Sky) String := do
  return (← get).context.get .clientName

/-- The stations known to a request. -/
def stations : Action (Scope (Key ε) Sky) (Table WeatherStation) := do
  return (← get).world.stations

def setStations (stations : Table WeatherStation) : Action (Scope (Key ε) Sky) Unit :=
  modify (fun s => { s with world := { s.world with stations } })

/-- The station with an identity, as shown to the client. -/
def find (request : WeatherStationId) :
    Action (Scope (Key ε) Sky) (Owned WeatherStation) := do
  match (← stations).get? request.id with
  | none => throw (WeatherFault.noStation request.id).status
  | some station => Scope.alloc { station with contextData := ← clientName }

/-- Forgets the station with an identity. -/
def delete (request : WeatherStationId) :
    Action (Scope (Key ε) Sky) (Owned WeatherStationId) := do
  let known ← stations
  match known.get? request.id with
  | none => throw (WeatherFault.noStation request.id).status
  | some _ =>
    setStations (known.erase request.id)
    Scope.withWorld (Sky.write .info ((← clientName) ++ " deleted station " ++ request.id))
    Scope.alloc request

/-- Keeps a station under its identity, in place of one that was there. -/
def update (request : WeatherStation) :
    Action (Scope (Key ε) Sky) (Owned WeatherStation) := do
  if request.stationId = "" then throw WeatherFault.noIdentity.status
  setStations ((← stations).insert request.stationId request)
  Scope.alloc { request with contextData := ← clientName }

end UnaryRpc.Weather
