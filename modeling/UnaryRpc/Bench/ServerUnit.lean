import UnaryRpc.Bench.Method

namespace UnaryRpc.Bench

open Http

inductive ServerUnit where
  | observe (label : String)
  | gatekeeper (name : HeaderName)
  | callerFromHeader (name : HeaderName)
  | weatherClient
  | fail (status : Status)
  | setHeader (name : HeaderName) (value : HeaderValue)
  | appendHeader (name : HeaderName) (value : HeaderValue)
  | respond (status : Nat) (body : Body)
  | alloc (count : Nat)
  | attempt

namespace ServerUnit

/-- What interceptors on the bench may change. -/
abbrev Stage := Exchange RequestKey Recording

def record (event : Event) : Action Stage Unit :=
  Exchange.withScope (Scope.withWorld (Recording.record event))

def changeHeaders (change : Headers → Headers) : Action Stage Unit :=
  modify (fun x => { x with response := { x.response with headers := change x.response.headers } })

/-- The header that a gatekeeper leaves. -/
def gatekeeperMark : HeaderName := ⟨"x-gatekeeper"⟩

/-- The status of a request without a ticket. -/
def noTicket : Status :=
  Status.set { code := .unauthenticated, message := "no ticket" } "where" "front door"

/-- An object of no importance. -/
def filler : Outbound := Message.erase ({} : Note)

def interceptor : ServerUnit → Server.Interceptor RequestKey Recording
  | observe label, inbound => do
    let x ← get
    record (.received label inbound (x.store.map Arena.size) x.context.size x.response.status)
  | gatekeeper name, inbound => do
    changeHeaders (fun h => h.set gatekeeperMark (Text.bytes "seen"))
    if (inbound.request.headers.get? name).isNone then throw noTicket
  | callerFromHeader name, inbound =>
    match (inbound.request.headers.get? name).bind HeaderValue.text? with
    | none => pure ()
    | some caller =>
      modify (fun x => { x with context := x.context.set (.other .caller) caller })
  | weatherClient, inbound => Weather.nameClient inbound
  | fail status, _ => do
    record (.failing status.code)
    throw status
  | setHeader name value, _ => changeHeaders (fun h => h.set name value)
  | appendHeader name value, _ => changeHeaders (fun h => h.append name value)
  | respond status body, _ =>
    modify (fun x => { x with response := { x.response with status, body } })
  | alloc count, _ =>
    modify (fun x => { x with
      store := x.store.map (fun arena => (List.replicate count filler).foldl Arena.alloc arena) })
  | attempt, _ => Exchange.withScope (do let _ ← Deed.countAttempt)

end ServerUnit

end UnaryRpc.Bench
