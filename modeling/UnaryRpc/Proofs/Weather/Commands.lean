import Mathlib.Logic.Function.Basic
import UnaryRpc.Proofs.Message.Body
import UnaryRpc.Proofs.Server.Gates
import UnaryRpc.Proofs.Weather.Methods

namespace UnaryRpc

/-- Whether bytes are the body of a message. They are read as it if a machine can count them. -/
def Message.Spells {M : Type} [Message M] (e : Encoding) (bytes : List UInt8) (m : M) : Prop :=
  write e m = .ok bytes ∧ (bytes.length < 0x10000000000000000 → decode? e bytes = some m)

theorem Message.exists_spells {M : Type} [Message M] [Lawful M] {m : M}
    (h : refusal? m = none) (e : Encoding) :
    ∃ bytes, write e m = .ok bytes ∧ Spells e bytes m := by
  obtain ⟨bytes, hwrite⟩ := write_willing h e
  exact ⟨bytes, hwrite, hwrite, decode?_written hwrite⟩

namespace Weather

open Http

/-- Stations by identity. -/
abbrev Known := String → Option WeatherStation

/-- What a request asks of the service. -/
inductive Command where
  | find (id : WeatherStationId)
  | delete (id : WeatherStationId)
  | update (station : WeatherStation)

namespace Command

/-- What a command does when it is answered. -/
def apply (known : Known) : Command → Known
  | find _ => known
  | delete id => Function.update known id.id none
  | update station => Function.update known station.stationId (some station)

/-- When a command is answered. -/
def Allowed (known : Known) : Command → Prop
  | find id | delete id => (known id.id).isSome
  | update station => station.stationId ≠ ""

/-- The status of a command that is not answered. -/
def refusal : Command → Status
  | find id | delete id => { code := .notFound, message := "no station " ++ id.id }
  | update _ =>
    { code := .invalidArgument, message := "station id is required"
      metadata := Table.empty.insert "argument" "ws_id" }

/-- The answer to a command: the station as shown to its client, or the identity. -/
def Answered (known : Known) (client : String) (e : Encoding) (bytes : List UInt8) :
    Command → Prop
  | find id => ∃ station, known id.id = some station ∧
      Message.Spells e bytes { station with contextData := client }
  | delete id => Message.Spells e bytes id
  | update station => Message.Spells e bytes { station with contextData := client }

/-- The command that a body spells behind a path. -/
def ofBody? (path : String) (e : Encoding) (bytes : List UInt8) : Option Command :=
  if path = "/twirp/weather.WSProvider/FindWeatherStation" then
    (Message.decode? e bytes).map find
  else if path = "/twirp/weather.WSProvider/DeleteWeatherStation" then
    (Message.decode? e bytes).map delete
  else if path = "/twirp/weather.WSProvider/UpdateWeatherStation" then
    (Message.decode? e bytes).map update
  else none

end Command

/-- The command that a request spells, and its encoding. -/
def commandOf? (request : Request) : Option (Encoding × Command) := do
  let e ← request.headers.contentType?.bind Encoding.ofContentType?
  let bytes ← request.body.bytes?
  let command ← Command.ofBody? request.uri.path e bytes
  return (e, command)

/-- A request that gets to the service with a command. -/
structure Arrives (request : Request) (e : Encoding) (command : Command) (client : String) :
    Prop where
  method : request.method = "POST"
  spelled : commandOf? request = some (e, command)
  client : clientOf? request = some client
  length : request.body.length ≤ 4 * 1024 * 1024

section

variable {ε : Type} [ContextKeys ε] [DecidableEq ε]

variable (ε) in
/-- What is registered for a command. -/
def Command.registration : Command → Registration (Key ε) Sky
  | find _ => { method := "FindWeatherStation", function := Weather.find }
  | delete _ => { method := "DeleteWeatherStation", function := Weather.delete }
  | update _ => { method := "UpdateWeatherStation", function := Weather.update }

variable (ε) in
/-- The input of a command's method. -/
def Command.input : (c : Command) → (c.registration ε).Input
  | find id => id
  | delete id => id
  | update station => station

variable {s : Scope (Key ε) Sky}

/-- A command that is allowed is answered, and the map changes as it says. -/
theorem Command.run_allowed (c : Command) (h : c.Allowed s.world.stations.get?) :
    ∃ output t, ((c.registration ε).function (c.input ε)).outcome (s.holding (c.input ε)) =
        (.ok output, t) ∧
      t.world.stations.get? = c.apply s.world.stations.get? ∧
      ∀ e, ∃ bytes, Message.write e output.value = .ok bytes ∧
        c.Answered s.world.stations.get? (s.context.get .clientName) e bytes := by
  cases c with
  | find id =>
    obtain ⟨station, hstation⟩ := Option.isSome_iff_exists.mp h
    obtain ⟨output, t, hrun, hworld, hvalue⟩ := find_known (s := s.holding id) hstation
    refine ⟨output, t, hrun, by rw [hworld]; rfl, ?_⟩
    intro e
    obtain ⟨bytes, hwrite, hspells⟩ := Message.exists_spells (m := output.value) rfl e
    rw [hvalue] at hspells
    exact ⟨bytes, hwrite, station, hstation, hspells⟩
  | delete id =>
    obtain ⟨station, hstation⟩ := Option.isSome_iff_exists.mp h
    obtain ⟨output, t, hrun, hworld, hvalue⟩ := delete_known (s := s.holding id) hstation
    refine ⟨output, t, hrun, ?_, ?_⟩
    · rw [hworld]
      funext key
      exact (Table.get?_erase _ _ _).trans (Function.update_apply _ _ _ _).symm
    · intro e
      obtain ⟨bytes, hwrite, hspells⟩ := Message.exists_spells (m := output.value) rfl e
      rw [hvalue] at hspells
      exact ⟨bytes, hwrite, hspells⟩
  | update station =>
    obtain ⟨output, t, hrun, hworld, hvalue⟩ := update_identified (s := s.holding station) h
    refine ⟨output, t, hrun, ?_, ?_⟩
    · rw [hworld]
      funext key
      exact (Table.get?_insert _ _ _ _).trans (Function.update_apply _ _ _ _).symm
    · intro e
      obtain ⟨bytes, hwrite, hspells⟩ := Message.exists_spells (m := output.value) rfl e
      rw [hvalue] at hspells
      exact ⟨bytes, hwrite, hspells⟩

/-- A command that is not allowed is refused, and nothing changes. -/
theorem Command.run_refused (c : Command) (h : ¬c.Allowed s.world.stations.get?) :
    ∃ t, ((c.registration ε).function (c.input ε)).outcome (s.holding (c.input ε)) =
        (.error c.refusal, t) ∧ t.world = s.world := by
  cases c with
  | find id =>
    have hnone : s.world.stations.get? id.id = none := by simpa [Allowed] using h
    exact ⟨_, find_unknown hnone, rfl⟩
  | delete id =>
    have hnone : s.world.stations.get? id.id = none := by simpa [Allowed] using h
    exact ⟨_, delete_unknown hnone, rfl⟩
  | update station =>
    have hempty : station.stationId = "" := by simpa [Allowed] using h
    exact ⟨_, update_anonymous hempty, rfl⟩

end

end Weather

end UnaryRpc
