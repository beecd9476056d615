import UnaryRpc.Proofs.Client.Addressing
import UnaryRpc.Proofs.Weather.Direct

namespace UnaryRpc.Weather

open Http UnaryRpc.Client

section

variable {κ : Type} [ContextKeys κ] {σ : Type}

/-- The call of a client that gives a command. -/
def Command.call (stub : Stub κ σ) (context : Context κ) :
    Command → Action (Caller σ) (Owned Reply)
  | find id => do return (← Client.find stub context id).map .station
  | delete id => do return (← Client.delete stub context id).map .identity
  | update station => do return (← Client.update stub context station).map .station

/-- How a client reaches a server, and what it asks of it. -/
structure Errand (κ : Type) [ContextKeys κ] where
  baseUrl : String
  settings : Client.Settings
  headers : List FixedHeader
  context : Context κ
  command : Command

/-- How a call is encoded, and where its reply is allocated. -/
structure Manner where
  encoding : Encoding
  store : Message.Store

/-- Who owns a reply. -/
def Manner.ownership (manner : Manner) : Ownership :=
  if manner.store.isSome then .bound else .independent

end

/-- The name of a client does not depend on how its request is encoded. -/
theorem clientOf?_request (uri : Uri) (headers : Headers) (e : Encoding) (body : List UInt8) :
    clientOf? (Link.request uri headers e body) =
      clientOf? { method := "POST", uri, headers, body := .ofBytes [] } := by
  have hother : clientHeader ≠ HeaderName.contentType := by decide
  have hname : (headers.set .contentType (Text.bytes e.contentType)).get? clientHeader =
      headers.get? clientHeader := by
    rw [Headers.get?, Headers.values_set_other headers hother, Headers.get?]
  simp only [clientOf?, Link.request, hname]

/-- A command's call is the call of its method, with the output as a reply. -/
theorem Command.call_outcome {ε κ : Type} [ContextKeys ε] [DecidableEq ε] [ContextKeys κ]
    {c : Command} {stub : Stub κ Sky} {context : Context κ} {caller caller' : Caller Sky}
    {result : Except Status (Owned (c.registration ε).Output)}
    (h : (stub.call context (c.registration ε).method (c.input ε)).outcome caller =
      (result, caller')) :
    (c.call stub context).outcome caller =
      (result.map (fun output => output.map (c.reply ε)), caller') := by
  cases result with
  | error status =>
    cases c with
    | find id => exact Action.outcome_bind_error h _
    | delete id => exact Action.outcome_bind_error h _
    | update station => exact Action.outcome_bind_error h _
  | ok output =>
    cases c with
    | find id => exact Action.outcome_bind_ok h _
    | delete id => exact Action.outcome_bind_ok h _
    | update station => exact Action.outcome_bind_ok h _

namespace Errand

variable {κ : Type} [ContextKeys κ]

/-- The headers that a client adds. -/
def added (errand : Errand κ) : Headers :=
  errand.headers.foldl (fun hs h => hs.append h.name h.value) .empty

/-- The request of an errand, but for its encoding. -/
def bare (errand : Errand κ) (uri : Uri) : Request where
  method := "POST"
  uri := uri
  headers := errand.added
  body := .ofBytes []

section

variable (ε : Type) [ContextKeys ε] [DecidableEq ε]

/-- What posts the calls of an errand. -/
def gateway (errand : Errand κ) (settings : Server.Settings) : Gateway κ Sky :=
  (errand.headers.map FixedHeader.interceptor).foldl Gateway.addInterceptor
    (.new errand.baseUrl (.loopback (serverWith ε settings)) errand.settings)

/-- What an errand comes to in a manner, and the sky after it. -/
def run (errand : Errand κ) (settings : Server.Settings) (manner : Manner) (sky : Sky) :
    Except Status (Owned Reply) × Sky :=
  let stub := client (errand.gateway ε settings).send manner.encoding
  let (result, caller) := (errand.command.call stub errand.context).outcome ⟨manner.store, sky⟩
  (result, caller.world)

/-- The address that an errand is posted to. -/
def url (errand : Errand κ) : String :=
  trimSlashes errand.baseUrl ++
    methodPath errand.settings.pathPrefix serviceName (errand.command.registration ε).method

/-- Whether the address of an errand leads to no method but its own. -/
def Straight (errand : Errand κ) (pathPrefix : String) : Prop :=
  ∀ uri, ∀ method ∈ (offer ε).service.methods, Uri.parse (errand.url ε) = .ok uri →
    uri.path = methodPath pathPrefix serviceName method →
    method = (errand.command.registration ε).method

/-- What an errand comes to, whatever its manner: without an address it is not sent, without a
method at its address it is refused as a bad route, without a name that can be read it is refused
for its client, and otherwise its method is called. -/
def direct (errand : Errand κ) (pathPrefix : String) (sky : Sky) : Except Status Reply × Sky :=
  match Uri.parse (errand.url ε) with
  | .error fault => (.error (Fault.undelivered (.address fault)).status, sky)
  | .ok uri =>
    if uri.path = methodPath pathPrefix serviceName (errand.command.registration ε).method then
      match clientOf? (errand.bare uri) with
      | none => (.error (Envelope.sent WeatherFault.clientName.status), sky)
      | some client =>
        let (result, sky) := errand.command.direct ε client sky
        (result.mapError Envelope.sent, sky)
    else (.error (Envelope.sent Fault.unknownRoute.status), sky)

end

variable {ε : Type} [ContextKeys ε] [DecidableEq ε] {errand : Errand κ}
  {settings : Server.Settings} {manner : Manner} {sky : Sky} {uri : Uri}

theorem route_other (hstraight : errand.Straight ε settings.pathPrefix)
    (huri : Uri.parse (errand.url ε) = .ok uri)
    (hother : uri.path ≠
      methodPath settings.pathPrefix serviceName (errand.command.registration ε).method) :
    (serverWith ε settings).routes.get? uri.path = none := by
  rw [serverWith_route, Option.map_eq_none_iff]
  cases hfound : (offer ε).service.methodAt? settings.pathPrefix uri.path with
  | none => rfl
  | some m =>
    have hpath : methodPath settings.pathPrefix (offer ε).name m = uri.path := by
      simpa using List.find?_some hfound
    have hown := hstraight uri m (List.mem_of_find?_eq_some hfound) huri hpath.symm
    rw [hown] at hpath
    exact absurd hpath.symm hother

section

variable {body : List UInt8}

theorem gateway_transport :
    (errand.gateway ε settings).transport = .loopback (serverWith ε settings) := by
  rw [gateway, Gateway.foldl_addInterceptor, Gateway.new]

theorem gateway_url :
    (errand.gateway ε settings).url serviceName (errand.command.registration ε).method =
      errand.url ε := by
  rw [gateway, Gateway.foldl_addInterceptor, Gateway.new, Gateway.url, url]

theorem gateway_passes (ε : Type) [ContextKeys ε] [DecidableEq ε] (errand : Errand κ)
    (settings : Server.Settings) (call : Call κ) (caller : Caller Sky) :
    Chain.Passes (fun u => u call) (errand.gateway ε settings).interceptors.units
      ⟨caller, .empty⟩ ⟨caller, errand.added⟩ := by
  have hunits : (errand.gateway ε settings).interceptors.units =
      errand.headers.map FixedHeader.interceptor := by
    rw [gateway, Gateway.foldl_addInterceptor]
    rfl
  rw [hunits]
  exact FixedHeader.passes errand.headers call ⟨caller, .empty⟩

/-- An errand comes to what the call of its method comes to. -/
theorem run_of_call {result : Except Status (Owned (errand.command.registration ε).Output)}
    {caller : Caller Sky}
    (h : (Stub.call ⟨(errand.gateway ε settings).send, serviceName, manner.encoding⟩ errand.context
      (errand.command.registration ε).method (errand.command.input ε)).outcome
        ⟨manner.store, sky⟩ = (result, caller)) :
    errand.run ε settings manner sky =
      (result.map (fun output => output.map (errand.command.reply ε)), caller.world) := by
  have hcall := errand.command.call_outcome h
  rw [run]
  dsimp only [client]
  rw [hcall]

/-- The request of an errand whose address can be read. -/
theorem build_errand (settings : Server.Settings) (manner : Manner) (sky : Sky)
    (body : List UInt8) (huri : Uri.parse (errand.url ε) = .ok uri) :
    ((errand.gateway ε settings).build ⟨errand.context, manner.encoding, serviceName,
      (errand.command.registration ε).method, .ofBytes body⟩).outcome ⟨manner.store, sky⟩ =
      (.ok (Link.request uri errand.added manner.encoding body), ⟨manner.store, sky⟩) := by
  have hpass := errand.gateway_passes ε settings
    ⟨errand.context, manner.encoding, serviceName, (errand.command.registration ε).method,
      .ofBytes body⟩ ⟨manner.store, sky⟩
  exact Gateway.build_passed hpass (by rw [gateway_url]; exact huri)

variable (hwrite : Message.write manner.encoding (errand.command.input ε) = .ok body)
include hwrite

theorem run_unaddressed {fault : UriFault} (huri : Uri.parse (errand.url ε) = .error fault) :
    errand.run ε settings manner sky =
      (.error (Fault.undelivered (.address fault)).status, sky) := by
  have hpass := errand.gateway_passes ε settings
    ⟨errand.context, manner.encoding, serviceName, (errand.command.registration ε).method,
      .ofBytes body⟩ ⟨manner.store, sky⟩
  have hsend := Gateway.send_unaddressed hpass (by rw [gateway_url]; exact huri)
  rw [run_of_call (Stub.call_fails hwrite hsend)]
  rfl

variable {before : Response} {world : Sky} (huri : Uri.parse (errand.url ε) = .ok uri)
include huri

theorem run_of_write {status : Status}
    (hhandle : (serverWith ε settings).handle
      (Link.request uri errand.added manner.encoding body) sky =
        (Envelope.write status before, world)) :
    errand.run ε settings manner sky = (.error (Envelope.sent status), world) := by
  have hbuild := build_errand settings manner sky body huri
  have hcall := Stub.call_of_write (O := (errand.command.registration ε).Output)
    gateway_transport hwrite hbuild hhandle
  rw [run_of_call hcall]
  rfl

theorem run_of_succeed {output : (errand.command.registration ε).Output} {bytes : List UInt8}
    (hreply : Message.write manner.encoding output = .ok bytes)
    (hshort : bytes.length < 0x7fffffff)
    (hhandle : (serverWith ε settings).handle
      (Link.request uri errand.added manner.encoding body) sky =
        (Server.succeed manner.encoding bytes before, world)) :
    errand.run ε settings manner sky =
      (.ok ⟨manner.ownership, errand.command.reply ε output⟩, world) := by
  have hbuild := build_errand settings manner sky body huri
  have hcall := Stub.call_of_succeed (O := (errand.command.registration ε).Output)
    gateway_transport hwrite hbuild hhandle
  have hread : Message.read manner.encoding (.ofBytes bytes) = .ok output := by
    have hunread : ¬Message.lengthBound ≤ bytes.length := Nat.not_le.mpr hshort
    rw [Message.read_written hreply, if_neg hunread]
  rw [hread] at hcall
  dsimp only at hcall
  rw [run_of_call hcall, Message.owned_newIn]
  rfl

theorem run_unrouted (hstraight : errand.Straight ε settings.pathPrefix)
    (hpath : uri.path ≠
      methodPath settings.pathPrefix serviceName (errand.command.registration ε).method) :
    errand.run ε settings manner sky =
      (.error (Envelope.sent Fault.unknownRoute.status), sky) := by
  have hmethod := Link.request_method uri errand.added manner.encoding body
  have hunknown := Server.resolve_unknown hmethod (route_other hstraight huri hpath)
  exact run_of_write hwrite huri (Server.handle_unresolved hunknown)

variable (hpath : uri.path =
  methodPath settings.pathPrefix serviceName (errand.command.registration ε).method)
include hpath

theorem run_nameless (hclient : clientOf? (errand.bare uri) = none) :
    errand.run ε settings manner sky =
      (.error (Envelope.sent WeatherFault.clientName.status), sky) := by
  have hmethod := Link.request_method uri errand.added manner.encoding body
  have hencoding := Link.request_contentType uri errand.added manner.encoding body
  obtain ⟨before, hhandle⟩ := handle_nameless settings sky hmethod hpath hencoding
    ((clientOf?_request uri errand.added manner.encoding body).trans hclient)
  exact run_of_write hwrite huri hhandle

variable {name : String} (hclient : clientOf? (errand.bare uri) = some name)
  (hlimit : body.length ≤ settings.maxRequestLength)
include hclient hlimit

theorem run_named (hbound : body.length < 0x7fffffff)
    (hreply : ∀ reply, (errand.command.direct ε name sky).1 = .ok reply →
      ∀ bytes, reply.write manner.encoding = .ok bytes → bytes.length < 0x7fffffff) :
    errand.run ε settings manner sky =
      (((errand.command.direct ε name sky).1.mapError Envelope.sent).map (⟨manner.ownership, ·⟩),
        (errand.command.direct ε name sky).2) := by
  have hmethod := Link.request_method uri errand.added manner.encoding body
  have hencoding := Link.request_contentType uri errand.added manner.encoding body
  obtain ⟨before, hhandle⟩ := handle_command settings sky hmethod hpath hencoding rfl hlimit
    ((clientOf?_request uri errand.added manner.encoding body).trans hclient) hwrite hbound
  rcases hrun : errand.command.direct ε name sky with ⟨status | reply, world⟩
  · rw [hrun] at hhandle
    exact run_of_write hwrite huri hhandle
  · obtain ⟨output, houtput⟩ := Command.exists_output hrun
    obtain ⟨bytes, hbytes⟩ := reply.write_ok manner.encoding
    have hshort := hreply reply (by rw [hrun]) bytes hbytes
    rw [hrun] at hhandle
    simp only [hbytes] at hhandle
    rw [← houtput, ← Command.write_reply] at hbytes
    rw [run_of_succeed hwrite huri hbytes hshort hhandle, houtput]
    rfl

end

/-- What an errand comes to does not depend on its manner, but for who owns the reply. -/
theorem run_direct (manner : Manner) (hstraight : errand.Straight ε settings.pathPrefix)
    (hinput : ∀ bytes, errand.command.write manner.encoding = .ok bytes →
      bytes.length ≤ settings.maxRequestLength ∧ bytes.length < 0x7fffffff)
    (hreply : ∀ reply, (errand.direct ε settings.pathPrefix sky).1 = .ok reply →
      ∀ bytes, reply.write manner.encoding = .ok bytes → bytes.length < 0x7fffffff) :
    errand.run ε settings manner sky =
      ((errand.direct ε settings.pathPrefix sky).1.map (⟨manner.ownership, ·⟩),
        (errand.direct ε settings.pathPrefix sky).2) := by
  obtain ⟨body, hbody⟩ := errand.command.write_ok manner.encoding
  obtain ⟨hlimit, hbound⟩ := hinput body hbody
  have hwrite : Message.write manner.encoding (errand.command.input ε) = .ok body := by
    rw [errand.command.write_input ε, hbody]
  cases huri : Uri.parse (errand.url ε) with
  | error fault =>
    rw [run_unaddressed hwrite huri, direct, huri]
    rfl
  | ok uri =>
    by_cases hpath : uri.path =
      methodPath settings.pathPrefix serviceName (errand.command.registration ε).method
    · cases hclient : clientOf? (errand.bare uri) with
      | none =>
        rw [run_nameless hwrite huri hpath hclient]
        simp only [direct, huri, hpath, hclient, ↓reduceIte]
        rfl
      | some name =>
        simp only [direct, huri, hpath, hclient, ↓reduceIte] at hreply ⊢
        apply run_named hwrite huri hpath hclient hlimit hbound
        intro reply hdirect
        exact hreply reply (by rw [hdirect]; rfl)
    · rw [run_unrouted hwrite huri hstraight hpath]
      simp only [direct, huri, hpath, ↓reduceIte]
      rfl

end Errand

end UnaryRpc.Weather
