import UnaryRpc.Chain
import UnaryRpc.Envelope
import UnaryRpc.Http.Message
import UnaryRpc.Service

namespace UnaryRpc

open Http

/-- Where a server serves, how it allocates, and how long a request body it takes. -/
structure Server.Settings where
  pathPrefix : String := Http.defaultPrefix
  requestArena : Bool := true
  maxRequestLength : Nat := 4 * 1024 * 1024
deriving DecidableEq, Inhabited

namespace Server.Settings

/-- Sets the prefix of all paths; slashes at its end do not count. -/
def withPathPrefix (c : Settings) (pathPrefix : String) : Settings :=
  { c with pathPrefix := Http.trimSlashes pathPrefix }

def inspect (c : Settings) : String :=
  Inspect.record "Configuration"
    [("path_prefix", Inspect.quoted c.pathPrefix),
     ("request_arena", Inspect.bool c.requestArena),
     ("max_request_length", toString c.maxRequestLength)]

end Server.Settings

/-- Where a path leads. -/
structure Route (κ σ : Type) [ContextKeys κ] where
  service : Service κ σ
  method : String

/-- What an interceptor sees of a request. Its body is not decoded yet. -/
structure Inbound where
  encoding : Encoding
  request : Request

/-- What an interceptor may change: what the method will work with, and the response so far. -/
structure Exchange (κ σ : Type) [ContextKeys κ] extends Scope κ σ where
  response : Response

namespace Exchange

variable {κ σ : Type} [ContextKeys κ]

/-- Does something to the scope of an exchange. -/
def withScope {α : Type} (action : Action (Scope κ σ) α) : Action (Exchange κ σ) α := fun x =>
  let (result, scope) := action.outcome x.toScope
  (result, { x with toScope := scope })

end Exchange

abbrev Server.Interceptor (κ σ : Type) [ContextKeys κ] := Inbound → Action (Exchange κ σ) Unit

/-- Routes to the methods of services, and interceptors that run before them. -/
structure Server (κ σ : Type) [ContextKeys κ] where
  settings : Server.Settings := {}
  routes : Table (Route κ σ) := .empty
  interceptors : Chain (Server.Interceptor κ σ) := .empty

namespace Server

variable {κ σ : Type} [ContextKeys κ]

/-- Adds a route for each method of a service. -/
def addRoutes (pathPrefix : String) (service : Service κ σ) (routes : Table (Route κ σ)) :
    Table (Route κ σ) :=
  service.methods.foldl (fun routes method =>
    routes.insert (methodPath pathPrefix service.name method) ⟨service, method⟩) routes

/-- Serves the methods of a service, in place of a service of its name. -/
def register (s : Server κ σ) (service : Service κ σ) : Server κ σ :=
  { s with
    routes := addRoutes s.settings.pathPrefix service
      (s.routes.filter (fun _ route => route.service.name != service.name)) }

/-- The paths that are served, in ascending order. -/
def servedPaths (s : Server κ σ) : List String := s.routes.keys

def addInterceptor (s : Server κ σ) (unit : Interceptor κ σ) : Server κ σ :=
  { s with interceptors := s.interceptors.push unit }

/-- The route and the encoding of a request. -/
def resolve (s : Server κ σ) (request : Request) : Except Fault (Route κ σ × Encoding) :=
  if request.method ≠ "POST" then .error (.unsupportedMethod request.method)
  else
    match s.routes.get? request.uri.path with
    | none => .error .unknownRoute
    | some route =>
      match request.headers.contentType?.bind Encoding.ofContentType? with
      | none => .error .unknownEncoding
      | some encoding => .ok (route, encoding)

/-- Runs the interceptors and then the method; the answer is the encoded output. -/
def perform (s : Server κ σ) (route : Route κ σ) (inbound : Inbound) :
    Action (Exchange κ σ) (List UInt8) := do
  s.interceptors.execute (fun unit => unit inbound)
  let body := inbound.request.body
  let limit := s.settings.maxRequestLength
  if limit < body.length then throw (Fault.oversizedBody body.length limit).status
  let output ← Exchange.withScope (route.service.invoke route.method body inbound.encoding)
  match output.value.write inbound.encoding with
  | .ok bytes => return bytes
  | .error fault => throw fault.status

/-- The exchange that a request starts with. -/
def begin (s : Server κ σ) (world : σ) : Exchange κ σ where
  store := if s.settings.requestArena then some .empty else none
  context := .empty
  world := world
  response := {}

/-- The response of a request that succeeded. Headers that interceptors set stay. -/
def succeed (encoding : Encoding) (body : List UInt8) (response : Response) : Response where
  status := 200
  headers := response.headers.set .contentType (Text.bytes encoding.contentType)
  body := .ofBytes body

def handle (s : Server κ σ) (request : Request) : StateM σ Response := fun world =>
  match s.resolve request with
  | .error fault => (Envelope.write fault.status {}, world)
  | .ok (route, encoding) =>
    match (s.perform route ⟨encoding, request⟩).outcome (s.begin world) with
    | (.ok body, x) => (succeed encoding body x.response, x.world)
    | (.error status, x) => (Envelope.write status x.response, x.world)

def inspect (s : Server κ σ) : String :=
  Inspect.record "TwirpServer"
    [("configuration", s.settings.inspect),
     ("routes", Inspect.list (s.servedPaths.map Inspect.quoted)),
     ("middleware", s.interceptors.inspect)]

end Server

end UnaryRpc
