import UnaryRpc.Client.Stub
import UnaryRpc.Proofs.Chain
import UnaryRpc.Proofs.Envelope

namespace UnaryRpc.Client

open Http

theorem isSuccess_succeed (e : Encoding) (body : List UInt8) (r : Response) :
    (Server.succeed e body r).isSuccess = true := rfl

theorem isSuccess_write (status : Status) (r : Response) :
    (Envelope.write status r).isSuccess = false := by
  have hlow := (Envelope.status_write_range status r).1
  rw [Response.isSuccess]
  simp only [Bool.and_eq_false_iff, decide_eq_false_iff_not]
  exact .inr (by omega)

/-- Fixed headers let every call pass and are added in order. -/
theorem FixedHeader.passes {κ σ : Type} [ContextKeys κ] (headers : List FixedHeader)
    (call : Call κ) (o : Outgoing σ) :
    Chain.Passes (fun u => u call) (headers.map FixedHeader.interceptor) o
      { o with headers := headers.foldl (fun hs h => hs.append h.name h.value) o.headers } := by
  induction headers generalizing o with
  | nil => exact .nil o
  | cons h headers ih => exact .cons rfl (ih { o with headers := o.headers.append h.name h.value })

theorem Transport.loopback_handled {κ σ : Type} [ContextKeys κ] {server : Server κ σ}
    {request : Request} {response : Response} {before after : σ}
    (h : server.handle request before = (response, after)) :
    loopback server request before = (.ok response, after) := by
  change ((.ok (server.handle request before).1, (server.handle request before).2) :
    Except DeliveryFault Response × σ) = _
  rw [h]

namespace Gateway

variable {κ σ : Type} [ContextKeys κ] {g : Gateway κ σ} {call : Call κ} {caller : Caller σ}
  {outgoing : Outgoing σ}

theorem foldl_addInterceptor (units : List (Interceptor κ σ)) (g : Gateway κ σ) :
    units.foldl addInterceptor g = { g with interceptors := ⟨g.interceptors.units ++ units⟩ } := by
  induction units generalizing g with
  | nil => simp
  | cons u us ih =>
    rw [List.foldl_cons, ih]
    simp [addInterceptor]

section

variable (hpass : Chain.Passes (fun u => u call) g.interceptors.units ⟨caller, .empty⟩ outgoing)
include hpass

theorem intercept_passed :
    (g.intercept call).outcome caller = (.ok outgoing.headers, outgoing.toCaller) := by
  have hexecute : (g.interceptors.execute (fun unit => unit call)).outcome ⟨caller, .empty⟩ =
      (.ok (), outgoing) :=
    Chain.runUnits_of_passes hpass
  have hintercept : g.intercept call caller = (.ok outgoing.headers, outgoing.toCaller) := by
    simp only [intercept, hexecute]
  exact hintercept

/-- The request of a call, when all interceptors let it pass. -/
theorem build_passed {uri : Uri} (huri : Uri.parse (g.url call.service call.method) = .ok uri) :
    (g.build call).outcome caller =
      (.ok { method := "POST", uri
             headers := outgoing.headers.set .contentType (Text.bytes call.encoding.contentType)
             body := call.body }, outgoing.toCaller) := by
  rw [build, Action.outcome_bind_ok (intercept_passed hpass)]
  simp only [huri]
  rfl

/-- A call without an address is not sent. -/
theorem send_unaddressed {fault : UriFault}
    (huri : Uri.parse (g.url call.service call.method) = .error fault) :
    (g.send call).outcome caller =
      (.error (Fault.undelivered (.address fault)).status, outgoing.toCaller) := by
  apply Action.outcome_bind_error
  rw [build, Action.outcome_bind_ok (intercept_passed hpass)]
  simp only [huri]
  rfl

end

/-- An interceptor that fails ends the call with its status, before anything is sent. -/
theorem send_intercepted {before after : List (Interceptor κ σ)} {u : Interceptor κ σ}
    {stopped : Outgoing σ} {status : Status} (hunits : g.interceptors.units = before ++ u :: after)
    (hpass : Chain.Passes (fun u => u call) before ⟨caller, .empty⟩ outgoing)
    (hfail : (u call).outcome outgoing = (.error status, stopped)) :
    (g.send call).outcome caller = (.error status, stopped.toCaller) := by
  have hexecute : (g.interceptors.execute (fun unit => unit call)).outcome ⟨caller, .empty⟩ =
      (.error status, stopped) := by
    rw [Chain.execute, hunits]
    exact Chain.runUnits_of_fails hpass hfail
  have hintercept : (g.intercept call).outcome caller = (.error status, stopped.toCaller) := by
    change g.intercept call caller = _
    simp only [intercept, hexecute]
  exact Action.outcome_bind_error (Action.outcome_bind_error hintercept _) _

section

variable {request : Request} {response : Response} {between : Caller σ} {world : σ}
  (hbuild : (g.build call).outcome caller = (.ok request, between))
  (hpost : g.transport request between.world = (.ok response, world))
include hbuild hpost

omit hbuild in
theorem post_delivered :
    (g.post request).outcome between = (.ok (.ok response), { between with world }) := by
  change ((_, _) : Except Status _ × Caller σ) = _
  simp only [hpost]

theorem send_succeeds (h : response.isSuccess = true) :
    (g.send call).outcome caller = (.ok response.body, { between with world }) := by
  rw [send, Action.outcome_bind_ok hbuild, Action.outcome_bind_ok (post_delivered hpost)]
  simp only [h, ↓reduceIte]
  rfl

theorem send_fails (h : response.isSuccess = false) :
    (g.send call).outcome caller = (.error (Envelope.decode response), { between with world }) := by
  rw [send, Action.outcome_bind_ok hbuild, Action.outcome_bind_ok (post_delivered hpost)]
  simp only [h, Bool.false_eq_true, ↓reduceIte]
  rfl

end

/-- A request without a response fails its call. -/
theorem send_undelivered {request : Request} {between : Caller σ} {world : σ}
    {fault : DeliveryFault} (hbuild : (g.build call).outcome caller = (.ok request, between))
    (hpost : g.transport request between.world = (.error fault, world)) :
    (g.send call).outcome caller =
      (.error (Fault.undelivered fault).status, { between with world }) := by
  have hanswer : (g.post request).outcome between = (.ok (.error fault), { between with world }) := by
    change ((_, _) : Except Status _ × Caller σ) = _
    simp only [hpost]
  rw [send, Action.outcome_bind_ok hbuild, Action.outcome_bind_ok hanswer]
  rfl

end Gateway

namespace Stub

variable {κ σ : Type} [ContextKeys κ] {I O : Type} [Message I] [Message O] {s : Stub κ σ}
  {context : Context κ} {method : String} {input : I} {caller between : Caller σ}
  {body : List UInt8}

section

variable (hwrite : Message.write s.encoding input = .ok body)
include hwrite

theorem call_fails {status : Status}
    (hsend : (s.sender ⟨context, s.encoding, s.service, method, .ofBytes body⟩).outcome caller =
      (.error status, between)) :
    (s.call (O := O) context method input).outcome caller = (.error status, between) := by
  rw [call, hwrite]
  exact Action.outcome_bind_error hsend _

theorem call_received {reply : Body}
    (hsend : (s.sender ⟨context, s.encoding, s.service, method, .ofBytes body⟩).outcome caller =
      (.ok reply, between)) :
    (s.call (O := O) context method input).outcome caller =
      match Message.read s.encoding reply with
      | .error fault => (.error fault.status, between)
      | .ok output =>
        (.ok (Message.newIn between.store output).1,
          { between with store := (Message.newIn between.store output).2 }) := by
  rw [call, hwrite]
  dsimp only
  rw [Action.outcome_bind_ok hsend, Message.receive]
  cases Message.read (M := O) s.encoding reply with
  | error fault => rfl
  | ok output => rfl

end

section

variable {κ' : Type} [ContextKeys κ'] {g : Gateway κ σ} {server : Server κ' σ} {service : String}
  {e : Encoding} {request : Request} {before : Response} {world : σ}
  (hserver : g.transport = .loopback server) (hwrite : Message.write e input = .ok body)
  (hbuild : (g.build ⟨context, e, service, method, .ofBytes body⟩).outcome caller =
    (.ok request, between))
include hserver hwrite hbuild

/-- A request that fails on the server fails the call, with the status as it is sent. -/
theorem call_of_write {status : Status}
    (hhandle : server.handle request between.world = (Envelope.write status before, world)) :
    (Stub.call (O := O) ⟨g.send, service, e⟩ context method input).outcome caller =
      (.error (Envelope.sent status), ⟨between.store, world⟩) := by
  have hpost : g.transport request between.world = (.ok (Envelope.write status before), world) := by
    rw [hserver, Transport.loopback_handled hhandle]
  have hsend := Gateway.send_fails hbuild hpost (isSuccess_write _ _)
  rw [Envelope.decode_sent] at hsend
  exact call_fails hwrite hsend

/-- A request that succeeds on the server answers the call, if its body can be read. -/
theorem call_of_succeed {reply : List UInt8}
    (hhandle : server.handle request between.world = (Server.succeed e reply before, world)) :
    (Stub.call (O := O) ⟨g.send, service, e⟩ context method input).outcome caller =
      match Message.read e (.ofBytes reply) with
      | .error fault => (.error fault.status, ⟨between.store, world⟩)
      | .ok output => (.ok (Message.newIn between.store output).1,
          ⟨(Message.newIn between.store output).2, world⟩) := by
  have hpost : g.transport request between.world =
      (.ok (Server.succeed e reply before), world) := by
    rw [hserver, Transport.loopback_handled hhandle]
  exact call_received hwrite (Gateway.send_succeeds hbuild hpost (isSuccess_succeed _ _ _))

end

end Stub

end UnaryRpc.Client
