import UnaryRpc.Proofs.Http.HeaderText
import UnaryRpc.Proofs.Server.Handling
import UnaryRpc.Weather.Endpoints

namespace UnaryRpc.Weather

open Http

variable {ε : Type} [ContextKeys ε]

theorem stations_outcome (s : Scope (Key ε) Sky) :
    stations.outcome s = (.ok s.world.stations, s) := rfl

theorem setStations_outcome (known : Table WeatherStation) (s : Scope (Key ε) Sky) :
    (setStations known).outcome s =
      (.ok (), { s with world := { s.world with stations := known } }) := rfl

theorem alloc_outcome {M : Type} [Message M] (m : M) (s : Scope (Key ε) Sky) :
    (Scope.alloc m).outcome s = (.ok (Message.newIn s.store m).1, s.holding m) := rfl

variable [DecidableEq ε]

theorem clientName_outcome (s : Scope (Key ε) Sky) :
    clientName.outcome s = (.ok (s.context.get .clientName), s) := rfl

/-- A station as it is shown to a client. -/
def WeatherStation.shownTo (station : WeatherStation) (client : String) : WeatherStation :=
  { station with contextData := client }

variable {s : Scope (Key ε) Sky} {id : WeatherStationId} {station : WeatherStation}

theorem find_known (h : s.world.stations.get? id.id = some station) :
    ∃ output t, (find id).outcome s = (.ok output, t) ∧ t.world = s.world ∧
      output.value = station.shownTo (s.context.get .clientName) := by
  refine ⟨_, s.holding (station.shownTo (s.context.get .clientName)), ?_, rfl,
    congrArg Owned.value
      (Message.owned_newIn s.store (station.shownTo (s.context.get .clientName)))⟩
  rw [find, Action.outcome_bind_ok (stations_outcome s)]
  simp only [h]
  rw [Action.outcome_bind_ok (clientName_outcome s)]
  exact alloc_outcome _ s

theorem find_unknown (h : s.world.stations.get? id.id = none) :
    (find id).outcome s = (.error (WeatherFault.noStation id.id).status, s) := by
  rw [find, Action.outcome_bind_ok (stations_outcome s)]
  simp only [h]
  rfl

/-- The sky after a client has had a station deleted. -/
def Sky.without (sky : Sky) (id client : String) : Sky where
  stations := sky.stations.erase id
  log := sky.log ++ [⟨.info, client ++ " deleted station " ++ id⟩]

theorem delete_known (h : s.world.stations.get? id.id = some station) :
    ∃ output t, (delete id).outcome s = (.ok output, t) ∧
      t.world = s.world.without id.id (s.context.get .clientName) ∧ output.value = id := by
  refine ⟨_, { s.holding id with world := s.world.without id.id (s.context.get .clientName) }, ?_,
    rfl, congrArg Owned.value (Message.owned_newIn s.store id)⟩
  rw [delete, Action.outcome_bind_ok (stations_outcome s)]
  simp only [h]
  rw [Action.outcome_bind_ok (setStations_outcome _ s), Action.outcome_bind_ok (clientName_outcome _)]
  rfl

theorem delete_unknown (h : s.world.stations.get? id.id = none) :
    (delete id).outcome s = (.error (WeatherFault.noStation id.id).status, s) := by
  rw [delete, Action.outcome_bind_ok (stations_outcome s)]
  simp only [h]
  rfl

/-- The sky after a station has been kept. -/
def Sky.keeping (sky : Sky) (station : WeatherStation) : Sky :=
  { sky with stations := sky.stations.insert station.stationId station }

theorem update_identified (h : station.stationId ≠ "") :
    ∃ output t, (update station).outcome s = (.ok output, t) ∧
      t.world = s.world.keeping station ∧
      output.value = station.shownTo (s.context.get .clientName) := by
  refine ⟨_, { s.holding (station.shownTo (s.context.get .clientName)) with
      world := s.world.keeping station }, ?_, rfl,
    congrArg Owned.value
      (Message.owned_newIn s.store (station.shownTo (s.context.get .clientName)))⟩
  rw [update]
  simp only [h, ↓reduceIte]
  rw [Action.outcome_bind_ok (stations_outcome s), Action.outcome_bind_ok (setStations_outcome _ s),
    Action.outcome_bind_ok (clientName_outcome _)]
  rfl

theorem update_anonymous (h : station.stationId = "") :
    (update station).outcome s = (.error WeatherFault.noIdentity.status, s) := by
  rw [update]
  simp only [h, ↓reduceIte]
  rfl

/-- The name of the client that a request comes from: what its header says, or that of clients
without a name. A header that is not visible text is none. -/
def clientOf? (request : Request) : Option String :=
  match request.headers.get? clientHeader with
  | none => some "anonymous"
  | some value => if value.Visible then some (String.ofList (value.map asciiChar)) else none

theorem nameClient_passes (inbound : Inbound) {client : String} {x : Exchange (Key ε) Sky}
    (h : clientOf? inbound.request = some client) (hx : x.context = .empty) :
    ∃ context, (nameClient inbound).outcome x = (.ok (), { x with context }) ∧
      context.get .clientName = client := by
  unfold clientOf? at h
  cases hvalue : inbound.request.headers.get? clientHeader with
  | none =>
    rw [hvalue] at h
    obtain rfl := Option.some.inj h
    refine ⟨x.context, ?_, ?_⟩
    · rw [nameClient, hvalue]
      rfl
    · rw [hx]
      rfl
  | some value =>
    simp only [hvalue] at h
    split at h
    · rename_i hvisible
      obtain rfl := Option.some.inj h
      refine ⟨x.context.set .clientName (String.ofList (value.map asciiChar)), ?_, ?_⟩
      · rw [nameClient, hvalue]
        simp only [HeaderValue.text?_visible hvisible]
        rfl
      · rw [Context.get, Context.get?_set_self]
        rfl
    · cases h

theorem nameClient_fails (inbound : Inbound) {x : Exchange (Key ε) Sky}
    (h : clientOf? inbound.request = none) :
    (nameClient inbound).outcome x = (.error WeatherFault.clientName.status, x) := by
  unfold clientOf? at h
  cases hvalue : inbound.request.headers.get? clientHeader with
  | none =>
    rw [hvalue] at h
    cases h
  | some value =>
    simp only [hvalue] at h
    split at h
    · cases h
    · rename_i hvisible
      rw [nameClient, hvalue]
      simp only [HeaderValue.text?_invisible hvisible]
      rfl

end UnaryRpc.Weather
