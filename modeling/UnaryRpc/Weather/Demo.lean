import UnaryRpc.Weather.Endpoints

namespace UnaryRpc.Weather.Demo

open UnaryRpc.Client

/-- The base address unless told otherwise. -/
def defaultBaseUrl : String := "http://localhost:8080"

def demoServer : Server (Key Empty) Sky := server

/-- The gateway of the demonstration. It tells its name in a header. -/
def gateway (baseUrl : String) : Gateway Empty Sky :=
  (Gateway.new baseUrl (Transport.loopback demoServer) {}).addInterceptor
    (FixedHeader.interceptor ⟨clientHeader, Text.bytes "example-weather"⟩)

/-- Writes a line into the log. -/
def say (level : Level) (text : String) : Action (Caller Sky) Unit :=
  Caller.withWorld (Sky.write level text)

def station : WeatherStation :=
  { wsId := some ⟨"north-ridge"⟩, kind := StationKind.sat.number, name := "North Ridge" }

/-- What is said of a station that was asked for after it was forgotten. Only its absence is as it
should be; another failure goes on. -/
def reportAbsence : Except Status (Owned WeatherStation) → Action (Caller Sky) Unit
  | .ok found => say .warn ("station survived deletion: " ++ found.inspect WeatherStation.inspect)
  | .error status =>
    if status.code = .notFound then say .info ("gone: " ++ status.summary) else throw status

/-- Goes through the life of a station: kept, found, forgotten, and found no more. -/
def exercise (stub : Stub Empty Sky) : Action (Caller Sky) Unit := do
  let id : WeatherStationId := ⟨station.stationId⟩
  let updated ← Client.update stub .empty station
  say .info ("updated " ++ updated.inspect WeatherStation.inspect)
  let found ← Client.find stub .empty id
  say .info ("found " ++ found.value.stationKind.label ++ " station for " ++
    found.value.contextData)
  let deleted ← Caller.withoutStore (Client.delete stub .empty id)
  say .info ("deleted " ++ deleted.value.id)
  reportAbsence (← (Client.find stub .empty id).attempt)

/-- One round of the demonstration, with an arena that is released at its end. -/
def round (baseUrl : String) (encoding : Encoding) : Action (Caller Sky) Unit := do
  modify (fun c => { c with store := some .empty })
  exercise (client (gateway baseUrl).send encoding)
  let released := ((← get).store.map Arena.size).getD 0
  say .info (encoding.inspect ++ " round released " ++ toString released ++ " messages")

def tour (baseUrl : String) : Action (Caller Sky) Unit := do
  demoServer.servedPaths.forM (fun route => say .info ("serving " ++ route))
  round baseUrl .json
  round baseUrl .protobuf

/-- What a run of the demonstration comes to: the lines of its log, and the failure that ended it,
if one did. -/
structure Run where
  log : List LogLine
  failure : Option Status

def run (baseUrl : Option String) : Run :=
  let (result, c) := (tour (baseUrl.getD defaultBaseUrl)).outcome { store := none, world := {} }
  match result with
  | .ok () => ⟨c.world.log, none⟩
  | .error status => ⟨c.world.log, some status⟩

def Run.exitCode (r : Run) : UInt32 := if r.failure.isSome then 1 else 0

/-- The last line of a run that failed. -/
def Run.lastWords (r : Run) : Option String :=
  r.failure.map (fun status => "Error: " ++ status.inspect)

end UnaryRpc.Weather.Demo
