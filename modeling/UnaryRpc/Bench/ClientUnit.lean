import UnaryRpc.Bench.ServerUnit

namespace UnaryRpc.Bench

open Http Client

inductive ClientUnit where
  | observe (label : String)
  | requireCaller (name : HeaderName)
  | fail (status : Status)
  | addHeader (header : FixedHeader)
  | replaceHeader (name : HeaderName) (value : HeaderValue)
  | alloc

namespace ClientUnit

/-- The status of a call without a caller. -/
def noCaller : Status := { code := .unauthenticated, message := "no caller" }

/-- The status of a call whose caller cannot be told in a header. -/
def untellableCaller : Status :=
  { code := .invalidArgument, message := "caller is not a header value" }

def setHeader (name : HeaderName) (value : HeaderValue) : Action (Outgoing Recording) Unit :=
  modify (fun o => { o with headers := o.headers.set name value })

def interceptor : ClientUnit → Client.Interceptor Key Recording
  | observe label, call =>
    modify (fun o =>
      let event := .sending label call (o.store.map Arena.size) o.headers
      { o with world := { o.world with events := o.world.events ++ [event] } })
  | requireCaller name, call =>
    match call.context.get? .caller with
    | none => throw noCaller
    | some caller =>
      match HeaderValue.ofBytes? (Text.bytes caller) with
      | none => throw untellableCaller
      | some value => setHeader name value
  | fail status, _ => throw status
  | addHeader header, call => header.interceptor call
  | replaceHeader name value, _ => setHeader name value
  | alloc, _ =>
    modify (fun o => { o with store := o.store.map (fun arena => arena.alloc ServerUnit.filler) })

end ClientUnit

/-- Gives the answers that are still to be given, one to each request. -/
def scripted : Transport Recording := fun _ r =>
  match r.answers with
  | [] => (.error (.connection "no answer left"), r)
  | answer :: rest => (answer, { r with answers := rest })

/-- Records each request before it is posted. -/
def recorded (transport : Transport Recording) : Transport Recording := fun request r =>
  transport request { r with events := r.events ++ [.posted request] }

end UnaryRpc.Bench
