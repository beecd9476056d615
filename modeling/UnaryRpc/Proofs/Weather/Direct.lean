import UnaryRpc.Proofs.Weather.Handling

namespace UnaryRpc.Weather

open Http

/-- What a method returns: a station, or an identity. -/
inductive Reply where
  | station (station : WeatherStation)
  | identity (id : WeatherStationId)
deriving DecidableEq

/-- The body of a reply. -/
def Reply.write : Reply → Encoding → Except Fault (List UInt8)
  | station m, e => Message.write e m
  | identity m, e => Message.write e m

/-- A reply can be written in each encoding. -/
theorem Reply.write_ok (reply : Reply) (e : Encoding) : ∃ bytes, reply.write e = .ok bytes := by
  cases reply with
  | station m => exact Message.write_willing rfl e
  | identity m => exact Message.write_willing rfl e

namespace Command

/-- The body of a command's input. -/
def write : Command → Encoding → Except Fault (List UInt8)
  | find id, e => Message.write e id
  | delete id, e => Message.write e id
  | update station, e => Message.write e station

theorem write_ok (c : Command) (e : Encoding) : ∃ bytes, c.write e = .ok bytes := by
  cases c with
  | find id => exact Message.write_willing rfl e
  | delete id => exact Message.write_willing rfl e
  | update station => exact Message.write_willing rfl e

section

variable (ε : Type) [ContextKeys ε] [DecidableEq ε]

/-- The output of a command's method as a reply. -/
def reply : (c : Command) → (c.registration ε).Output → Reply
  | find _ => .station
  | delete _ => .identity
  | update _ => .station

theorem write_input (c : Command) (e : Encoding) : Message.write e (c.input ε) = c.write e := by
  cases c with
  | find id => rfl
  | delete id => rfl
  | update station => rfl

theorem write_reply (c : Command) (output : (c.registration ε).Output) (e : Encoding) :
    Message.write e output = (c.reply ε output).write e := by
  cases c with
  | find id => rfl
  | delete id => rfl
  | update station => rfl

instance (c : Command) : Message.Lawful (c.registration ε).Input := by
  cases c with
  | find id => exact inferInstanceAs (Message.Lawful WeatherStationId)
  | delete id => exact inferInstanceAs (Message.Lawful WeatherStationId)
  | update station => exact inferInstanceAs (Message.Lawful WeatherStation)

instance (c : Command) : Message.Lawful (c.registration ε).Output := by
  cases c with
  | find id => exact inferInstanceAs (Message.Lawful WeatherStation)
  | delete id => exact inferInstanceAs (Message.Lawful WeatherStationId)
  | update station => exact inferInstanceAs (Message.Lawful WeatherStation)

/-- What the method of a command returns in a scope, and the sky after it. -/
def run (c : Command) (scope : Scope (Key ε) Sky) : Except Status Reply × Sky :=
  let (result, scope) := ((c.registration ε).function (c.input ε)).outcome scope
  (result.map (fun output => c.reply ε output.value), scope.world)

/-- What the method of a command returns to a client without an arena, and the sky after it. -/
def direct (c : Command) (client : String) (sky : Sky) : Except Status Reply × Sky :=
  c.run ε ⟨none, Context.empty.set .clientName client, sky⟩

end

variable {ε : Type} [ContextKeys ε] [DecidableEq ε] {s : Scope (Key ε) Sky}

theorem run_of_ok {c : Command} {output : Owned (c.registration ε).Output} {t : Scope (Key ε) Sky}
    (h : ((c.registration ε).function (c.input ε)).outcome s = (.ok output, t)) :
    c.run ε s = (.ok (c.reply ε output.value), t.world) := by
  rw [run, h]
  rfl

theorem run_of_error {c : Command} {status : Status} {t : Scope (Key ε) Sky}
    (h : ((c.registration ε).function (c.input ε)).outcome s = (.error status, t)) :
    c.run ε s = (.error status, t.world) := by
  rw [run, h]
  rfl

theorem exists_output {c : Command} {reply : Reply} {sky : Sky}
    (h : c.run ε s = (.ok reply, sky)) : ∃ output, c.reply ε output = reply := by
  rcases hrun : ((c.registration ε).function (c.input ε)).outcome s with ⟨status | output, t⟩
  · rw [run_of_error hrun] at h
    cases h
  · rw [run_of_ok hrun] at h
    exact ⟨output.value, Except.ok.inj (Prod.mk.inj h).1⟩

/-- A method returns the same for the same client under the same sky. -/
theorem run_congr (c : Command) {t : Scope (Key ε) Sky} (hworld : s.world = t.world)
    (hclient : s.context.get .clientName = t.context.get .clientName) : c.run ε s = c.run ε t := by
  cases c with
  | find id =>
    cases hknown : s.world.stations.get? id.id with
    | none =>
      rw [run_of_error (c := .find id) (find_unknown hknown),
        run_of_error (c := .find id) (find_unknown (hworld ▸ hknown)), hworld]
    | some station =>
      obtain ⟨output, s', hs, hsworld, hsvalue⟩ := find_known hknown
      obtain ⟨output', t', ht, htworld, htvalue⟩ := find_known (s := t) (hworld ▸ hknown)
      rw [run_of_ok (c := .find id) hs, run_of_ok (c := .find id) ht, hsworld, htworld, hworld,
        hsvalue, htvalue, hclient]
  | delete id =>
    cases hknown : s.world.stations.get? id.id with
    | none =>
      rw [run_of_error (c := .delete id) (delete_unknown hknown),
        run_of_error (c := .delete id) (delete_unknown (hworld ▸ hknown)), hworld]
    | some station =>
      obtain ⟨output, s', hs, hsworld, hsvalue⟩ := delete_known hknown
      obtain ⟨output', t', ht, htworld, htvalue⟩ := delete_known (s := t) (hworld ▸ hknown)
      rw [run_of_ok (c := .delete id) hs, run_of_ok (c := .delete id) ht, hsworld, htworld, hworld,
        hsvalue, htvalue, hclient]
  | update station =>
    by_cases hempty : station.stationId = ""
    · rw [run_of_error (c := .update station) (update_anonymous hempty),
        run_of_error (c := .update station) (update_anonymous hempty), hworld]
    · obtain ⟨output, s', hs, hsworld, hsvalue⟩ := update_identified (s := s) hempty
      obtain ⟨output', t', ht, htworld, htvalue⟩ := update_identified (s := t) hempty
      rw [run_of_ok (c := .update station) hs, run_of_ok (c := .update station) ht, hsworld,
        htworld, hworld, hsvalue, htvalue, hclient]

theorem run_direct (c : Command) (s : Scope (Key ε) Sky) :
    c.run ε s = c.direct ε (s.context.get .clientName) s.world := by
  apply run_congr
  · rfl
  · rw [Context.get, Context.get, Context.get?_set_self]
    rfl

end Command

section

variable (ε : Type) [ContextKeys ε] [DecidableEq ε]

/-- A weather server with settings of its own. -/
def serverWith (settings : Server.Settings) : Server (Key ε) Sky :=
  (({ settings } : Server (Key ε) Sky).register service).addInterceptor nameClient

theorem serverWith_serving (settings : Server.Settings) :
    serverWith ε settings = .serving settings [(offer ε).service] [nameClient] := rfl

theorem serverWith_route (settings : Server.Settings) (path : String) :
    (serverWith ε settings).routes.get? path =
      ((offer ε).service.methodAt? settings.pathPrefix path).map (⟨(offer ε).service, ·⟩) := by
  rw [serverWith_serving, Server.serving_routes, List.foldl_cons, List.foldl_nil,
    Server.get?_register]
  exact Option.or_none

/-- The interceptor of a weather server lets a request pass whose client has a name that can be read. -/
theorem serverWith_passes (settings : Server.Settings) (sky : Sky) (inbound : Inbound)
    {client : String} (hclient : clientOf? inbound.request = some client) :
    ∃ context, Chain.Passes (fun u => u inbound) (serverWith ε settings).interceptors.units
        ((serverWith ε settings).begin sky) { (serverWith ε settings).begin sky with context } ∧
      context.get .clientName = client := by
  obtain ⟨context, hunit, hname⟩ := nameClient_passes inbound
    (x := (serverWith ε settings).begin sky) hclient rfl
  exact ⟨context, .cons hunit (.nil _), hname⟩

end

section

variable {ε : Type} [ContextKeys ε] [DecidableEq ε] {request : Request} {e : Encoding}
  {c : Command} {body : List UInt8}

theorem invoke_command {body : Body} (hread : Message.read e body = .ok (c.input ε))
    (s : Scope (Key ε) Sky) :
    ((offer ε).service.invoke (c.registration ε).method body e).outcome s =
      ((((c.registration ε).function (c.input ε)).outcome (s.holding (c.input ε))).1.map
          (fun output => output.map Message.erase),
        (((c.registration ε).function (c.input ε)).outcome (s.holding (c.input ε))).2) := by
  rw [Offer.invoke_last (last_command ε c)]
  exact Descriptor.invoker_read hread

theorem invoke_unread {body : Body} {fault : Fault}
    (hread : Message.read (M := (c.registration ε).Input) e body = .error fault)
    (s : Scope (Key ε) Sky) :
    ((offer ε).service.invoke (c.registration ε).method body e).outcome s =
      (.error fault.status, s) := by
  rw [Offer.invoke_last (last_command ε c)]
  exact Descriptor.invoker_unread hread

section

variable (settings : Server.Settings) (sky : Sky) (hmethod : request.method = "POST")
  (hpath : request.uri.path =
    methodPath settings.pathPrefix serviceName (c.registration ε).method)
  (hencoding : request.headers.get? .contentType = some (Text.bytes e.contentType))
include hmethod hpath hencoding

theorem resolve_command :
    (serverWith ε settings).resolve request =
      .ok (⟨(offer ε).service, (c.registration ε).method⟩, e) := by
  apply Server.resolve_ok hmethod _ hencoding
  have hlisted := Offer.mem_of_last? (last_command ε c)
  rw [serverWith_route, hpath]
  have hfound := Service.methodAt?_methodPath hlisted settings.pathPrefix
  rw [Offer.service_name] at hfound
  exact congrArg _ hfound

/-- A request whose client has no name that can be read is refused. -/
theorem handle_nameless (hclient : clientOf? request = none) :
    ∃ before, (serverWith ε settings).handle request sky =
      (Envelope.write WeatherFault.clientName.status before, sky) := by
  have hunits : (serverWith ε settings).interceptors.units = [] ++ nameClient :: [] := rfl
  have hfail := nameClient_fails ⟨e, request⟩ hclient (x := (serverWith ε settings).begin sky)
  exact ⟨_, Server.handle_error (resolve_command settings hmethod hpath hencoding)
    (Server.perform_intercepted hunits (.nil _) hfail)⟩

variable (hbytes : request.body = .ofBytes body) (hlimit : body.length ≤ settings.maxRequestLength)
  {client : String} (hclient : clientOf? request = some client)
include hbytes hlimit hclient

variable (hwrite : Message.write e (c.input ε) = .ok body) (hbound : body.length < Message.lengthBound)
include hwrite hbound

/-- A request with a command is answered as its method answers when it is called directly. -/
theorem handle_command :
    ∃ before, (serverWith ε settings).handle request sky =
      match c.direct ε client sky with
      | (.error status, sky') => (Envelope.write status before, sky')
      | (.ok reply, sky') =>
        match reply.write e with
        | .error fault => (Envelope.write fault.status before, sky')
        | .ok bytes => (Server.succeed e bytes before, sky') := by
  have hresolve := resolve_command settings hmethod hpath hencoding
  obtain ⟨context, hpass, hname⟩ := serverWith_passes ε settings sky ⟨e, request⟩ hclient
  have hfits : request.body.length ≤ (serverWith ε settings).settings.maxRequestLength := by
    rw [hbytes, Body.length_ofBytes]
    exact hlimit
  have hread : Message.read e request.body = .ok (c.input ε) := by
    rw [hbytes, Message.read_written hwrite, if_neg (Nat.not_le.mpr hbound)]
  let scope : Scope (Key ε) Sky := { ((serverWith ε settings).begin sky).toScope with context }
  have hinvoke := invoke_command hread scope
  have hdirect : c.run ε (scope.holding (c.input ε)) = c.direct ε client sky := by
    rw [← hname]
    exact c.run_direct _
  rcases hrun : ((c.registration ε).function (c.input ε)).outcome
    (scope.holding (c.input ε)) with ⟨status | output, t⟩
  · rw [hrun] at hinvoke
    rw [← hdirect, Command.run_of_error hrun]
    exact ⟨_, Server.handle_error hresolve (Server.perform_failed hpass hfits hinvoke)⟩
  · rw [hrun] at hinvoke
    rw [← hdirect, Command.run_of_ok hrun]
    dsimp only
    rw [← c.write_reply ε]
    cases hreply : Message.write e output.value with
    | error fault =>
      exact ⟨_, Server.handle_error hresolve
        (Server.perform_unwritten hpass hfits hinvoke hreply)⟩
    | ok bytes =>
      exact ⟨_, Server.handle_ok hresolve (Server.perform_written hpass hfits hinvoke hreply)⟩

end

end

end UnaryRpc.Weather
