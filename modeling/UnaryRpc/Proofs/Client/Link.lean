import UnaryRpc.Proofs.Client.Call
import UnaryRpc.Proofs.Http.Address
import UnaryRpc.Proofs.Message.Body
import UnaryRpc.Proofs.Server.Blueprint
import UnaryRpc.Proofs.Server.Handling

namespace UnaryRpc.Client

open Http

/-- Where a server is: a scheme and an authority. -/
structure Site where
  scheme : String
  authority : String
  scheme_chars : scheme.toList.all Uri.isSchemeChar = true
  authority_chars : authority.toList.any Uri.endsAuthority = false
  authority_nonempty : authority ≠ ""

namespace Site

/-- The address of a site. -/
def baseUrl (site : Site) : String := site.scheme ++ "://" ++ site.authority

theorem trimSlashes_baseUrl (site : Site) : trimSlashes site.baseUrl = site.baseUrl := by
  apply trimSlashes_of_getLast
  have hlist : site.authority.toList ≠ [] := by
    intro he
    exact site.authority_nonempty (String.toList_inj.mp he)
  have hlast : site.baseUrl.toList.getLast? = some (site.authority.toList.getLast hlist) := by
    rw [baseUrl, String.toList_append, List.getLast?_append,
      List.getLast?_eq_some_getLast hlist, Option.some_or]
  rw [hlast]
  intro he
  have hslash := List.any_eq_false.mp site.authority_chars _ (List.getLast_mem hlist)
  rw [Option.some.inj he] at hslash
  revert hslash
  decide

end Site

/-- A text that does not end a path. -/
def PathText (s : String) : Prop := ∀ c ∈ s.toList, c ≠ '?' ∧ c ≠ '#'

instance (s : String) : Decidable (PathText s) :=
  decidable_of_iff (s.toList.all (fun c => c != '?' && c != '#') = true) (by simp [PathText])

theorem pathText_methodPath {pathPrefix service method : String} (hplain : PathText pathPrefix)
    (hservice : PathText service) (hmethod : PathText method) :
    PathText (methodPath pathPrefix service method) := by
  intro c hc
  simp only [methodPath, String.toList_append, List.mem_append] at hc
  rcases hc with (((hc | hc) | hc) | hc) | hc
  · exact hplain c hc
  · obtain rfl : c = '/' := by simpa using hc
    decide
  · exact hservice c hc
  · obtain rfl : c = '/' := by simpa using hc
    decide
  · exact hmethod c hc

theorem methodPath_start {pathPrefix : String}
    (h : pathPrefix = "" ∨ pathPrefix.toList.head? = some '/') (service method : String) :
    (methodPath pathPrefix service method).toList.head? = some '/' := by
  rcases h with hempty | hslash
  · simp [methodPath, hempty]
  · simp [methodPath, hslash]

/-- The path of an address at a site is what is written behind the site. -/
theorem Site.path_uri (site : Site) {path : String} {uri : Uri}
    (hstart : path.toList.head? = some '/') (hplain : PathText path)
    (h : Uri.parse (site.baseUrl ++ path) = .ok uri) : uri.path = path := by
  have hscheme := List.all_eq_true.mp site.scheme_chars
  have hauthority : ∀ c ∈ site.authority.toList, Uri.endsAuthority c = false := by
    intro c hc
    simpa using List.any_eq_false.mp site.authority_chars c hc
  exact Uri.parse_absolute hscheme site.authority_nonempty hauthority hstart hplain h

/-- A client and a server that belong together: the server has an offered service, which no later
one replaces, and the client has its address. -/
structure Link (κ κ' σ : Type) [ContextKeys κ] [ContextKeys κ'] where
  site : Site
  settings : Server.Settings
  earlier : List (Service κ σ)
  offer : Offer κ σ
  later : List (Service κ σ)
  serverUnits : List (Server.Interceptor κ σ)
  clientUnits : List (Interceptor κ' σ)
  prefix_start : settings.pathPrefix = "" ∨ settings.pathPrefix.toList.head? = some '/'
  prefix_text : PathText settings.pathPrefix
  name_text : PathText offer.name
  name_slash : '/' ∉ offer.name.toList
  others : ∀ other ∈ later, other.name ≠ offer.name ∧ '/' ∉ other.name.toList

namespace Link

variable {κ κ' σ : Type} [ContextKeys κ] [ContextKeys κ']

/-- The server. -/
def server (l : Link κ κ' σ) : Server κ σ :=
  .serving l.settings (l.earlier ++ l.offer.service :: l.later) l.serverUnits

/-- What posts the client's calls. -/
def gateway (l : Link κ κ' σ) : Gateway κ' σ :=
  l.clientUnits.foldl Gateway.addInterceptor
    (.new l.site.baseUrl (.loopback l.server) ⟨l.settings.pathPrefix⟩)

/-- The client, in an encoding. -/
def stub (l : Link κ κ' σ) (e : Encoding) : Stub κ' σ := ⟨l.gateway.send, l.offer.name, e⟩

/-- The request that a call comes to. -/
def request (uri : Uri) (headers : Headers) (e : Encoding) (body : List UInt8) : Request where
  method := "POST"
  uri := uri
  headers := headers.set .contentType (Text.bytes e.contentType)
  body := .ofBytes body

@[simp] theorem request_method (uri : Uri) (headers : Headers) (e : Encoding) (body : List UInt8) :
    (request uri headers e body).method = "POST" := rfl

@[simp] theorem request_contentType (uri : Uri) (headers : Headers) (e : Encoding)
    (body : List UInt8) :
    (request uri headers e body).headers.get? .contentType = some (Text.bytes e.contentType) :=
  Headers.get?_set_self headers .contentType _

section

variable {l : Link κ κ' σ} {method : String} {uri : Uri}

theorem path_uri (hmethod : PathText method)
    (huri : Uri.parse (l.site.baseUrl ++
      methodPath l.settings.pathPrefix l.offer.name method) = .ok uri) :
    uri.path = methodPath l.settings.pathPrefix l.offer.name method :=
  l.site.path_uri (methodPath_start l.prefix_start _ _)
    (pathText_methodPath l.prefix_text l.name_text hmethod) huri

/-- The request of a call finds the method that is called. -/
theorem resolve_request {headers : Headers} {e : Encoding} {body : List UInt8}
    (hlisted : method ∈ l.offer.service.methods) (hmethod : PathText method)
    (huri : Uri.parse (l.site.baseUrl ++
      methodPath l.settings.pathPrefix l.offer.name method) = .ok uri) :
    l.server.resolve (request uri headers e body) = .ok (⟨l.offer.service, method⟩, e) := by
  apply Server.resolve_ok (request_method uri headers e body)
  · have hpath : (request uri headers e body).uri.path =
        methodPath l.settings.pathPrefix l.offer.name method := path_uri hmethod huri
    have hname := l.offer.service_name
    have hserved : l.server.routes.get?
        (methodPath l.settings.pathPrefix l.offer.service.name method) =
          some ⟨l.offer.service, method⟩ := by
      apply Server.serving_last _ hlisted
      · rw [hname]
        exact l.others
      · rw [hname]
        exact l.name_slash
    rw [hpath, ← hname]
    exact hserved
  · exact request_contentType uri headers e body

/-- What the server makes of the request of a call whose input can be read. -/
theorem invoke_request {I O : Type} [Message I] [Message O] [Message.Lawful I]
    {function : I → Action (Scope κ σ) (Owned O)} {e : Encoding} {input : I} {body : List UInt8}
    (hlast : l.offer.last? method = some { method, function })
    (hwrite : Message.write e input = .ok body) (hbound : body.length < Message.lengthBound)
    (s : Scope κ σ) :
    (l.offer.service.invoke method (.ofBytes body) e).outcome s =
      (((function input).outcome (s.holding input)).1.map (fun output => output.map Message.erase),
        ((function input).outcome (s.holding input)).2) := by
  rw [Offer.invoke_last hlast]
  apply Descriptor.invoker_read
  rw [Message.read_written hwrite, if_neg (Nat.not_le.mpr hbound)]

section

variable {e : Encoding} {context : Context κ'} {body : List UInt8} {caller : Caller σ}
  {outgoing : Outgoing σ}

theorem transport_gateway (l : Link κ κ' σ) : l.gateway.transport = .loopback l.server := by
  rw [gateway, Gateway.foldl_addInterceptor, Gateway.new]

/-- The request that a call comes to when the client's interceptors let it pass. -/
theorem build_request
    (huri : Uri.parse (l.site.baseUrl ++
      methodPath l.settings.pathPrefix l.offer.name method) = .ok uri)
    (hclient : Chain.Passes (fun u => u ⟨context, e, l.offer.name, method, .ofBytes body⟩)
      l.clientUnits ⟨caller, .empty⟩ outgoing) :
    (l.gateway.build ⟨context, e, l.offer.name, method, .ofBytes body⟩).outcome caller =
      (.ok (request uri outgoing.headers e body), outgoing.toCaller) := by
  rw [gateway, Gateway.foldl_addInterceptor, Gateway.new, Site.trimSlashes_baseUrl]
  exact Gateway.build_passed hclient huri

end

end

/-- On a link whose parts fit together, a call runs the function of its method once, and the reply or
the failure of that run is what the caller gets. -/
theorem call_runs_method {I O : Type} [Message I] [Message O] [Message.Lawful I]
    [Message.Lawful O] (l : Link κ κ' σ) (method : String)
    (function : I → Action (Scope κ σ) (Owned O)) (e : Encoding) (context : Context κ') (input : I)
    (caller : Caller σ) {uri : Uri} {body : List UInt8} {outgoing : Outgoing σ}
    {exchange : Exchange κ σ}
    (hlast : l.offer.last? method = some { method, function }) (hmethod : PathText method)
    (huri : Uri.parse (l.site.baseUrl ++
      methodPath l.settings.pathPrefix l.offer.name method) = .ok uri)
    (hwrite : Message.write e input = .ok body)
    (hlimit : body.length ≤ l.settings.maxRequestLength) (hbound : body.length < 0x7fffffff)
    (hclient : Chain.Passes (fun u => u ⟨context, e, l.offer.name, method, .ofBytes body⟩)
      l.clientUnits ⟨caller, .empty⟩ outgoing)
    (hserver : Chain.Passes (fun u => u ⟨e, request uri outgoing.headers e body⟩) l.serverUnits
      ⟨⟨if l.settings.requestArena then some .empty else none, .empty, outgoing.world⟩, {}⟩
      exchange) :
    ((l.stub e).call (O := O) context method input).outcome caller =
      match (function input).outcome (exchange.toScope.holding input) with
      | (.error status, s) => (.error (Envelope.sent status), ⟨outgoing.store, s.world⟩)
      | (.ok output, s) =>
        match Message.write e output.value with
        | .error fault => (.error (Envelope.sent fault.status), ⟨outgoing.store, s.world⟩)
        | .ok reply =>
          if reply.length < 0x7fffffff then
            (.ok ⟨if outgoing.store.isSome then .bound else .independent, output.value⟩,
              ⟨(Message.newIn outgoing.store output.value).2, s.world⟩)
          else (.error Fault.oversizedMessage.status, ⟨outgoing.store, s.world⟩) := by
  have hresolve : l.server.resolve (request uri outgoing.headers e body) =
      .ok (⟨l.offer.service, method⟩, e) :=
    resolve_request (Offer.mem_of_last? hlast) hmethod huri
  have hbuild := build_request huri hclient
  have hpass : Chain.Passes (fun u => u ⟨e, request uri outgoing.headers e body⟩)
      l.server.interceptors.units (l.server.begin outgoing.world) exchange := by
    rw [server, Server.serving_units, Server.begin, Server.serving_settings]
    exact hserver
  have hfits : (request uri outgoing.headers e body).body.length ≤
      l.server.settings.maxRequestLength := by
    rw [server, Server.serving_settings]
    exact hlimit
  have hinvoke := invoke_request hlast hwrite hbound exchange.toScope
  rcases hrun : (function input).outcome (exchange.toScope.holding input) with ⟨status | output, s⟩
  · rw [hrun] at hinvoke
    have hhandle := Server.handle_error hresolve (Server.perform_failed hpass hfits hinvoke)
    exact Stub.call_of_write l.transport_gateway hwrite hbuild hhandle
  · have hreturn : (l.offer.service.invoke method (.ofBytes body) e).outcome exchange.toScope =
        (.ok (output.map Message.erase), s) := by
      rw [hinvoke, hrun]
      rfl
    dsimp only
    cases hreply : Message.write e output.value with
    | error fault =>
      have hhandle := Server.handle_error hresolve
        (Server.perform_unwritten hpass hfits hreturn hreply)
      exact Stub.call_of_write (O := O) l.transport_gateway hwrite hbuild hhandle
    | ok reply =>
      have hhandle := Server.handle_ok hresolve
        (Server.perform_written hpass hfits hreturn hreply)
      rw [stub, Stub.call_of_succeed l.transport_gateway hwrite hbuild hhandle,
        Message.read_written hreply]
      rcases Nat.lt_or_ge reply.length 0x7fffffff with hshort | hlong
      · have hread : ¬Message.lengthBound ≤ reply.length := Nat.not_le.mpr hshort
        simp only [hread, hshort, ↓reduceIte, Message.owned_newIn]
      · have hread : Message.lengthBound ≤ reply.length := hlong
        simp only [hread, Nat.not_lt.mpr hlong, ↓reduceIte]

/-- A method that counts its calls and returns its input. -/
def echo (input : Bench.SensorId) : Action (Scope Empty Nat) (Owned Bench.SensorId) := do
  Scope.withWorld (modify (· + 1))
  Scope.alloc input

/-- A client and a server of that method, with an interceptor on either side. -/
def echoLink : Link Empty Empty Nat where
  site := ⟨"http", "localhost:8080", by decide, by decide, by decide⟩
  settings := {}
  earlier := []
  offer := ⟨"test.Echo", [{ method := "Echo", function := echo }]⟩
  later := []
  serverUnits := [fun _ => pure ()]
  clientUnits := [fun _ => pure ()]
  prefix_start := .inr (by decide)
  prefix_text := by decide
  name_text := by decide
  name_slash := by decide
  others := by simp

theorem call_echo :
    ((echoLink.stub .json).call (O := Bench.SensorId) .empty "Echo"
      (⟨"s1"⟩ : Bench.SensorId)).outcome ⟨none, 0⟩ =
      (.ok ⟨.independent, ⟨"s1"⟩⟩, ⟨none, 1⟩) := by
  have hmethod : PathText "Echo" := by decide
  have huri : Uri.parse (echoLink.site.baseUrl ++
      methodPath echoLink.settings.pathPrefix echoLink.offer.name "Echo") =
      .ok ⟨some "http", "localhost:8080", "/twirp/test.Echo/Echo", none⟩ := by
    decide
  have hwrite : Message.write .json (⟨"s1"⟩ : Bench.SensorId) =
      .ok (Text.bytes "\x7b\"id\":\"s1\"\x7d") := by
    decide
  rw [call_runs_method echoLink "Echo" echo .json .empty ⟨"s1"⟩ ⟨none, 0⟩ rfl hmethod huri hwrite
    (by decide) (by decide) (.cons rfl (.nil _)) (.cons rfl (.nil _))]
  rfl

end Link

end UnaryRpc.Client
