import UnaryRpc.Proofs.Server.Handling
import UnaryRpc.Proofs.Weather.Handling

namespace UnaryRpc.Weather

open Http

/-- Every identity is that of its station, and none is empty. -/
def Consistent (known : Known) : Prop :=
  ∀ key station, known key = some station → key ≠ "" ∧ station.wsId = some ⟨key⟩

theorem wsId_of_stationId {station : WeatherStation} (h : station.stationId ≠ "") :
    station.wsId = some ⟨station.stationId⟩ := by
  obtain ⟨wsId, kind, name, contextData⟩ := station
  cases wsId with
  | none => exact absurd rfl h
  | some id => rfl

theorem Consistent.apply {known : Known} (h : Consistent known) {command : Command}
    (hallowed : command.Allowed known) : Consistent (command.apply known) := by
  intro key station hkey
  cases command with
  | find id => exact h key station hkey
  | delete id =>
    rw [Command.apply, Function.update_apply] at hkey
    split at hkey
    · cases hkey
    · exact h key station hkey
  | update kept =>
    rw [Command.apply, Function.update_apply] at hkey
    split at hkey
    · rename_i he
      obtain rfl := Option.some.inj hkey
      rw [he]
      exact ⟨hallowed, wsId_of_stationId hallowed⟩
    · exact h key station hkey

/-- What an answer makes of the map: the command of its request, if it is a success. -/
def follow (known : Known) (step : Request × Response) : Known :=
  if step.2.status = 200 then
    match commandOf? step.1 with
    | some (_, command) => command.apply known
    | none => known
  else known

theorem refusal_sent (command : Command) : Envelope.sent command.refusal = command.refusal := by
  cases command with
  | find id | delete id =>
    apply Envelope.sent_of_plain
    · simp [Command.refusal]
    · intro h
      have hlist := congrArg String.toList h
      simp [Command.refusal] at hlist
    · rfl
  | update station =>
    have hfault : (Command.update station).refusal = WeatherFault.noIdentity.status := rfl
    rw [hfault]
    exact Envelope.sent_of_plain (by decide) (by decide) (by decide)

theorem status_write (status : Status) (r : Response) : (Envelope.write status r).status ≠ 200 := by
  have hlow := (Envelope.status_write_range status r).1
  omega

section

variable {ε : Type} [ContextKeys ε] [DecidableEq ε]

/-- A request is answered, and its command is done; or it fails, and nothing is done. -/
theorem handle_step (request : Request) (sky : Sky) :
    (∃ e command client, Arrives request e command client ∧
      command.Allowed sky.stations.get? ∧
      ((server : Server (Key ε) Sky).handle request sky).1.status = 200 ∧
      ((server : Server (Key ε) Sky).handle request sky).2.stations.get? =
        command.apply sky.stations.get?) ∨
    (((server : Server (Key ε) Sky).handle request sky).1.status ≠ 200 ∧
      ((server : Server (Key ε) Sky).handle request sky).2 = sky) := by
  by_cases harrives : ∃ e command client, Arrives request e command client
  · obtain ⟨e, command, client, h⟩ := harrives
    by_cases hallowed : command.Allowed sky.stations.get?
    · obtain ⟨bytes, before, sky', hhandle, hstations, _⟩ := handle_allowed (ε := ε) h hallowed
      refine .inl ⟨e, command, client, h, hallowed, ?_, ?_⟩
      · rw [hhandle]
        rfl
      · rw [hhandle]
        exact hstations
    · obtain ⟨before, hhandle⟩ := handle_refused (ε := ε) h hallowed
      rw [hhandle]
      exact .inr ⟨status_write _ _, rfl⟩
  · have hstray : ∀ e command client, ¬Arrives request e command client :=
      fun e command client h => harrives ⟨e, command, client, h⟩
    obtain ⟨status, before, hhandle⟩ := handle_stray (ε := ε) hstray sky
    rw [hhandle]
    exact .inr ⟨status_write _ _, rfl⟩

theorem handle_follows (request : Request) (sky : Sky) :
    ((server : Server (Key ε) Sky).handle request sky).2.stations.get? =
      follow sky.stations.get? (request, ((server : Server (Key ε) Sky).handle request sky).1) := by
  rcases handle_step (ε := ε) request sky with ⟨e, command, client, h, _, hstatus, hstations⟩ |
    ⟨hstatus, hsky⟩
  · rw [hstations, follow, if_pos hstatus, h.spelled]
  · rw [hsky, follow, if_neg hstatus]

theorem handle_consistent (request : Request) {sky : Sky} (hsky : Consistent sky.stations.get?) :
    Consistent ((server : Server (Key ε) Sky).handle request sky).2.stations.get? := by
  rcases handle_step (ε := ε) request sky with ⟨e, command, client, h, hallowed, _, hstations⟩ |
    ⟨_, hkept⟩
  · rw [hstations]
    exact hsky.apply hallowed
  · rw [hkept]
    exact hsky

/-- The weather server is a map from identities to stations: after any run it holds what the answered
commands make of the empty map, and of every further request the map decides what becomes. -/
theorem server_refines_map (earlier : List Request) (request : Request) :
    let server : Server (Key ε) Sky := server
    let steps := (server.run earlier {}).1
    let sky := (server.run earlier {}).2
    let known := sky.stations.get?
    let response := (server.handle request sky).1
    let sky' := (server.handle request sky).2
    known = steps.foldl follow (fun _ => none) ∧
    (∀ key station, known key = some station → key ≠ "" ∧ station.wsId = some ⟨key⟩) ∧
    (response.status ≠ 200 → sky'.stations = sky.stations) ∧
    (response.status = 200 → ∃ e command client, Arrives request e command client ∧
      sky'.stations.get? = command.apply known) ∧
    ∀ e command client, Arrives request e command client →
      (response.status = 200 ↔ command.Allowed known) ∧
      (command.Allowed known → ∃ bytes, response.body = .ofBytes bytes ∧
        command.Answered known client e bytes) ∧
      (¬command.Allowed known → Envelope.decode response = command.refusal) := by
  intro server steps sky known response sky'
  refine ⟨?_, ?_, ?_, ?_, ?_⟩
  · exact Server.run_follows (fun sky : Sky => sky.stations.get?) follow handle_follows earlier {}
  · have hinitial : Consistent (Sky.stations {}).get? := by
      intro key station h
      cases h
    exact Server.run_keeps (P := fun sky : Sky => Consistent sky.stations.get?)
      (fun request sky h => handle_consistent request h) earlier hinitial
  · intro hstatus
    rcases handle_step (ε := ε) request sky with ⟨_, _, _, _, _, hok, _⟩ | ⟨_, hkept⟩
    · exact absurd hok hstatus
    · exact congrArg Sky.stations hkept
  · intro hstatus
    rcases handle_step (ε := ε) request sky with ⟨e, command, client, h, _, _, hstations⟩ |
      ⟨hfail, _⟩
    · exact ⟨e, command, client, h, hstations⟩
    · exact absurd hstatus hfail
  · intro e command client h
    by_cases hallowed : command.Allowed known
    · obtain ⟨bytes, before, after, hhandle, _, hanswered⟩ := handle_allowed (ε := ε) h hallowed
      have hresponse : response = Server.succeed e bytes before := congrArg Prod.fst hhandle
      rw [hresponse]
      exact ⟨⟨fun _ => hallowed, fun _ => rfl⟩, fun _ => ⟨bytes, rfl, hanswered⟩,
        fun hrefused => absurd hallowed hrefused⟩
    · obtain ⟨before, hhandle⟩ := handle_refused (ε := ε) h hallowed
      have hresponse : response = Envelope.write command.refusal before :=
        congrArg Prod.fst hhandle
      rw [hresponse]
      refine ⟨⟨fun hok => absurd hok (status_write _ _), fun h => absurd h hallowed⟩,
        fun h => absurd h hallowed, fun _ => ?_⟩
      rw [Envelope.decode_sent, refusal_sent]

end

end UnaryRpc.Weather
