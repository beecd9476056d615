import UnaryRpc.Server

namespace UnaryRpc.Client

open Http

/-- Where a client posts. -/
structure Settings where
  pathPrefix : String := Http.defaultPrefix
deriving DecidableEq, Inhabited

namespace Settings

/-- Sets the prefix of all paths; slashes at its end do not count. -/
def withPathPrefix (_ : Settings) (pathPrefix : String) : Settings :=
  ⟨Http.trimSlashes pathPrefix⟩

def inspect (c : Settings) : String :=
  Inspect.record "Configuration" [("path_prefix", Inspect.quoted c.pathPrefix)]

end Settings

/-- Posts requests in a world. Any response is a delivery; only having none is a fault. -/
abbrev Transport (σ : Type) := Http.Request → StateM σ (Except DeliveryFault Http.Response)

/-- Hands requests to a server of the same world. -/
def Transport.loopback {κ σ : Type} [ContextKeys κ] (server : Server κ σ) : Transport σ :=
  fun request => do return .ok (← server.handle request)

structure Call (κ : Type) [ContextKeys κ] where
  context : Context κ
  encoding : Encoding
  service : String
  method : String
  body : Body

/-- What a caller brings: where replies are allocated, and the world. -/
structure Caller (σ : Type) where
  store : Message.Store
  world : σ

namespace Caller

variable {σ α : Type}

/-- Does something to the store of a caller. -/
def withStore (action : Action Message.Store α) : Action (Caller σ) α := fun c =>
  let (result, store) := action.outcome c.store
  (result, { c with store })

/-- Does something to the world of a caller. -/
def withWorld (action : Action σ α) : Action (Caller σ) α := fun c =>
  let (result, world) := action.outcome c.world
  (result, { c with world })

/-- Does something without a store; the caller's store stays as it was. -/
def withoutStore (action : Action (Caller σ) α) : Action (Caller σ) α := fun c =>
  let (result, c') := action.outcome { c with store := none }
  (result, { c' with store := c.store })

end Caller

/-- What an interceptor may change: the caller's part, and the headers to be sent. -/
structure Outgoing (σ : Type) extends Caller σ where
  headers : Headers

abbrev Interceptor (κ σ : Type) [ContextKeys κ] := Call κ → Action (Outgoing σ) Unit

/-- What sends a call; the answer is the encoded reply. -/
abbrev Sender (κ σ : Type) [ContextKeys κ] := Call κ → Action (Caller σ) Body

structure FixedHeader where
  name : HeaderName
  value : HeaderValue

/-- The header with a name and a value, if both are legal. The name is judged first. -/
def FixedHeader.ofText (name value : String) : Except Fault FixedHeader :=
  match HeaderName.ofText? name with
  | none => .error .headerName
  | some name =>
    match HeaderValue.ofBytes? (Text.bytes value) with
    | none => .error .headerValue
    | some value => .ok ⟨name, value⟩

/-- Adds a fixed header to every call. -/
def FixedHeader.interceptor {κ σ : Type} [ContextKeys κ] (h : FixedHeader) : Interceptor κ σ :=
  fun _ => modify (fun o => { o with headers := o.headers.append h.name h.value })

/-- What posts calls over a transport. -/
structure Gateway (κ σ : Type) [ContextKeys κ] where
  baseUrl : String
  settings : Settings
  transport : Transport σ
  interceptors : Chain (Interceptor κ σ)

namespace Gateway

variable {κ σ : Type} [ContextKeys κ]

/-- A gateway for a base address; slashes at its end do not count. -/
def new (baseUrl : String) (transport : Transport σ) (settings : Settings) :
    Gateway κ σ :=
  ⟨trimSlashes baseUrl, settings, transport, .empty⟩

def addInterceptor (g : Gateway κ σ) (unit : Interceptor κ σ) : Gateway κ σ :=
  { g with interceptors := g.interceptors.push unit }

def url (g : Gateway κ σ) (service method : String) : String :=
  g.baseUrl ++ methodPath g.settings.pathPrefix service method

/-- Runs the interceptors; the answer is the headers they leave. -/
def intercept (g : Gateway κ σ) (call : Call κ) : Action (Caller σ) Headers := fun c =>
  match (g.interceptors.execute (fun unit => unit call)).outcome ⟨c, .empty⟩ with
  | (.ok (), o) => (.ok o.headers, o.toCaller)
  | (.error status, o) => (.error status, o.toCaller)

/-- The request of a call. Its content type is that of the call, whatever the interceptors set. -/
def build (g : Gateway κ σ) (call : Call κ) : Action (Caller σ) Request := do
  let headers ← g.intercept call
  match Uri.parse (g.url call.service call.method) with
  | .error fault => throw (Fault.undelivered (.address fault)).status
  | .ok uri =>
    return {
      method := "POST"
      uri
      headers := headers.set .contentType (Text.bytes call.encoding.contentType)
      body := call.body }

def post (g : Gateway κ σ) (request : Request) :
    Action (Caller σ) (Except DeliveryFault Response) := fun c =>
  let (answer, world) := g.transport request c.world
  (.ok answer, { c with world })

def send (g : Gateway κ σ) : Sender κ σ := fun call => do
  let request ← g.build call
  match ← g.post request with
  | .error fault => throw (Fault.undelivered fault).status
  | .ok response =>
    if response.isSuccess then return response.body else throw (Envelope.decode response)

def inspect (g : Gateway κ σ) : String :=
  Inspect.record "HttpRequester"
    [("base_url", Inspect.quoted g.baseUrl),
     ("configuration", g.settings.inspect),
     ("middleware", g.interceptors.inspect)]

end Gateway

end UnaryRpc.Client
