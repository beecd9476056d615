import UnaryRpc.Proofs.Server.Blueprint
import UnaryRpc.Proofs.Server.Handling

namespace UnaryRpc

open Http

variable {κ σ : Type} [ContextKeys κ]

/-- Something that ran: the interceptor with a number, or a method with its input. -/
inductive Deed where
  | unit (number : Nat)
  | call (service method : String) (input : Outbound)

namespace Blueprint

/-- A request for a route, with an encoding that its content type names exactly. -/
structure Admits (b : Blueprint κ σ) (request : Request) (o : Offer κ σ) (r : Registration κ σ)
    (e : Encoding) : Prop where
  method : request.method = "POST"
  route : b.leadsTo? request.uri.path = some (o, r.method)
  registered : o.last? r.method = some r
  contentType : request.headers.get? .contentType = some (Text.bytes e.contentType)

/-- An admitted request that all interceptors let pass. They leave an exchange behind. -/
structure Reaches (b : Blueprint κ σ) (request : Request) (world : σ) (o : Offer κ σ)
    (r : Registration κ σ) (e : Encoding) (x : Exchange κ σ) : Prop extends
    b.Admits request o r e where
  units : Chain.Passes (fun u => u ⟨e, request⟩) b.units (b.server.begin world) x

/-- A request that reaches its method, with a body that is short enough. -/
structure Fits (b : Blueprint κ σ) (request : Request) (world : σ) (o : Offer κ σ)
    (r : Registration κ σ) (e : Encoding) (x : Exchange κ σ) : Prop extends
    b.Reaches request world o r e x where
  limit : request.body.length ≤ b.settings.maxRequestLength
  bound : request.body.length < Message.lengthBound

/-- A request whose body spells an input of its method. -/
structure Calls (b : Blueprint κ σ) (request : Request) (world : σ) (o : Offer κ σ)
    (r : Registration κ σ) (e : Encoding) (x : Exchange κ σ) (input : r.Input) : Prop extends
    b.Fits request world o r e x where
  decoded : request.body.bytes?.bind (Message.decode? e) = some input

/-- The first interceptors, each once and in order. -/
def deedsOf (n : Nat) : List Deed :=
  (List.range n).map .unit

/-- What is said of a body that spells no input. -/
def unreadable : Encoding → String
  | .protobuf => "Can't deserialize binary request"
  | .json => "Can't deserialize JSON request"

/-- The response, the world and the deeds that a request comes to: one case for each gate that can
be the first to fail, and one for success. -/
inductive Fares (b : Blueprint κ σ) (request : Request) (world : σ) :
    Response → σ → List Deed → Prop
  | notPost (hmethod : request.method ≠ "POST") :
    Fares b request world
      (Envelope.write (.badRoute ("Unsupported method " ++ request.method)) {}) world []
  | noRoute (hmethod : request.method = "POST")
      (hroute : b.leadsTo? request.uri.path = none) :
    Fares b request world (Envelope.write (.badRoute "Method not found") {}) world []
  | noEncoding (hmethod : request.method = "POST")
      (hroute : (b.leadsTo? request.uri.path).isSome)
      (htype : ∀ e : Encoding,
        request.headers.get? .contentType ≠ some (Text.bytes e.contentType)) :
    Fares b request world (Envelope.write (.malformed "Unknown message encoding") {}) world []
  | intercepted {o r e} (hopen : b.Admits request o r e) {before u after x status y}
      (hunits : b.units = before ++ u :: after)
      (hpass : Chain.Passes (fun u => u ⟨e, request⟩) before (b.server.begin world) x)
      (hfail : (u ⟨e, request⟩).outcome x = (.error status, y)) :
    Fares b request world (Envelope.write status y.response) y.world (deedsOf (before.length + 1))
  | overLimit {o r e x} (hreach : b.Reaches request world o r e x)
      (hlong : b.settings.maxRequestLength < request.body.length) :
    Fares b request world
      (Envelope.write ⟨.outOfRange, "Request body of " ++ toString request.body.length ++
        " bytes is larger than " ++ toString b.settings.maxRequestLength, .empty⟩ x.response)
      x.world (deedsOf b.units.length)
  | overBound {o r e x} (hreach : b.Reaches request world o r e x)
      (hlimit : request.body.length ≤ b.settings.maxRequestLength)
      (hlong : Message.lengthBound ≤ request.body.length) :
    Fares b request world
      (Envelope.write ⟨.outOfRange, "Argument size is too large", .empty⟩ x.response) x.world
      (deedsOf b.units.length)
  | undecoded {o r e x} (hfit : b.Fits request world o r e x)
      (hbody : request.body.bytes?.bind (Message.decode? (M := r.Input) e) = none) :
    Fares b request world
      (Envelope.write (.malformed (unreadable e)) x.response) x.world (deedsOf b.units.length)
  | failed {o r e x input} (hcall : b.Calls request world o r e x input) {status s}
      (hrun : (r.function input).outcome (x.toScope.holding input) = (.error status, s)) :
    Fares b request world (Envelope.write status x.response) s.world
      (deedsOf b.units.length ++ [.call o.name r.method (Message.erase input)])
  | unwritten {o r e x input} (hcall : b.Calls request world o r e x input) {output s fault}
      (hrun : (r.function input).outcome (x.toScope.holding input) = (.ok output, s))
      (hwrite : Message.write e output.value = .error fault) :
    Fares b request world (Envelope.write fault.status x.response) s.world
      (deedsOf b.units.length ++ [.call o.name r.method (Message.erase input)])
  | answered {o r e x input} (hcall : b.Calls request world o r e x input) {output s body}
      (hrun : (r.function input).outcome (x.toScope.holding input) = (.ok output, s))
      (hwrite : Message.write e output.value = .ok body) :
    Fares b request world (Server.succeed e body x.response) s.world
      (deedsOf b.units.length ++ [.call o.name r.method (Message.erase input)])

section

variable {b : Blueprint κ σ} {request : Request} {world : σ} {o : Offer κ σ}
  {r : Registration κ σ} {e : Encoding} {x : Exchange κ σ}

@[simp] theorem server_units (b : Blueprint κ σ) : b.server.interceptors.units = b.units :=
  Server.serving_units _ _ _

@[simp] theorem server_settings (b : Blueprint κ σ) : b.server.settings = b.settings :=
  Server.serving_settings _ _ _

theorem Admits.resolve (h : b.Admits request o r e) :
    b.server.resolve request = .ok (⟨o.service, r.method⟩, e) := by
  apply Server.resolve_ok h.method _ h.contentType
  rw [server_routes, h.route, Option.map_some]

theorem Reaches.passes (h : b.Reaches request world o r e x) :
    Chain.Passes (fun u => u ⟨e, request⟩) b.server.interceptors.units (b.server.begin world) x := by
  rw [server_units]
  exact h.units

theorem Fits.within (h : b.Fits request world o r e x) :
    request.body.length ≤ b.server.settings.maxRequestLength := by
  rw [server_settings]
  exact h.limit

/-- What the service of a request that reaches its method does is what is registered last. -/
theorem Admits.invoke (h : b.Admits request o r e) :
    o.service.invoke r.method = Descriptor.invoker r.function :=
  Offer.invoke_last h.registered

theorem read_oversized {M : Type} [Message M] {body : Body}
    (h : Message.lengthBound ≤ body.length) :
    Message.read (M := M) e body = .error .oversizedMessage := by
  rw [Message.read, if_pos h]

theorem Fits.read (h : b.Fits request world o r e x) {M : Type} [Message M] :
    Message.read (M := M) e request.body =
      match request.body.bytes?.bind (Message.decode? e) with
      | some m => .ok m
      | none => .error (.undecodable e) :=
  Message.read_short h.bound

/-- A body that cannot be read ends a request behind its interceptors. -/
theorem Reaches.unread (h : b.Reaches request world o r e x)
    (hlimit : request.body.length ≤ b.settings.maxRequestLength) {fault : Fault}
    (hread : Message.read (M := r.Input) e request.body = .error fault) :
    b.server.handle request world = (Envelope.write fault.status x.response, x.world) := by
  have hwithin : request.body.length ≤ b.server.settings.maxRequestLength := by
    rw [server_settings]
    exact hlimit
  have hinvoke : (o.service.invoke r.method request.body e).outcome x.toScope =
      (.error fault.status, x.toScope) := by
    rw [h.invoke]
    exact Descriptor.invoker_unread hread
  exact Server.handle_error h.resolve (Server.perform_failed h.passes hwithin hinvoke)

theorem Calls.invoked {input : r.Input} (h : b.Calls request world o r e x input) :
    (o.service.invoke r.method request.body e).outcome x.toScope =
      (((r.function input).outcome (x.toScope.holding input)).1.map
          (fun output => output.map Message.erase),
        ((r.function input).outcome (x.toScope.holding input)).2) := by
  have hread : Message.read e request.body = .ok input := by
    rw [h.read, h.decoded]
  rw [h.invoke]
  exact Descriptor.invoker_read hread

theorem Calls.failed {input : r.Input} (h : b.Calls request world o r e x input)
    {status : Status} {s : Scope κ σ}
    (hrun : (r.function input).outcome (x.toScope.holding input) = (.error status, s)) :
    b.server.handle request world = (Envelope.write status x.response, s.world) := by
  have hinvoke := h.invoked
  rw [hrun] at hinvoke
  exact Server.handle_error h.resolve (Server.perform_failed h.passes h.within hinvoke)

theorem Calls.returned {input : r.Input} (h : b.Calls request world o r e x input)
    {output : Owned r.Output} {s : Scope κ σ}
    (hrun : (r.function input).outcome (x.toScope.holding input) = (.ok output, s)) :
    (o.service.invoke r.method request.body e).outcome x.toScope =
      (.ok (output.map Message.erase), s) := by
  rw [h.invoked, hrun]
  rfl

/-- A server handles a request as the gates say. -/
theorem handle_of_fares {response : Response} {world' : σ} {deeds : List Deed}
    (h : b.Fares request world response world' deeds) :
    b.server.handle request world = (response, world') := by
  cases h with
  | notPost hmethod =>
    have hresolve : b.server.resolve request = .error (.unsupportedMethod request.method) := by
      rw [Server.resolve, if_pos hmethod]
    exact Server.handle_unresolved hresolve
  | noRoute hmethod hroute =>
    have hresolve : b.server.resolve request = .error .unknownRoute := by
      rw [Server.resolve, if_neg (not_not.mpr hmethod), server_routes, hroute]
      rfl
    exact Server.handle_unresolved hresolve
  | noEncoding hmethod hroute htype =>
    obtain ⟨l, hl⟩ := Option.isSome_iff_exists.mp hroute
    have hnone : request.headers.contentType?.bind Encoding.ofContentType? = none := by
      apply Option.eq_none_iff_forall_ne_some.mpr
      intro e he
      exact htype e ((request.headers.encoding_iff e).mp he)
    have hresolve : b.server.resolve request = .error .unknownEncoding := by
      rw [Server.resolve, if_neg (not_not.mpr hmethod), server_routes, hl, Option.map_some, hnone]
    exact Server.handle_unresolved hresolve
  | intercepted hopen hunits hpass hfail =>
    rw [← server_units] at hunits
    exact Server.handle_error hopen.resolve (Server.perform_intercepted hunits hpass hfail)
  | overLimit hreach hlong =>
    rw [← server_settings] at hlong
    apply Server.handle_error hreach.resolve
    rw [Server.perform_oversized hreach.passes hlong, server_settings]
    rfl
  | overBound hreach hlimit hlong => exact hreach.unread hlimit (read_oversized hlong)
  | @undecoded o r e x hfit hbody =>
    have hread : Message.read (M := r.Input) e request.body = .error (.undecodable e) := by
      rw [hfit.read, hbody]
    rw [hfit.unread hfit.limit hread]
    cases e <;> rfl
  | failed hcall hrun => exact hcall.failed hrun
  | unwritten hcall hrun hwrite =>
    have hperform := Server.perform_unwritten hcall.passes hcall.within (hcall.returned hrun) hwrite
    exact Server.handle_error hcall.resolve hperform
  | answered hcall hrun hwrite =>
    have hperform := Server.perform_written hcall.passes hcall.within (hcall.returned hrun) hwrite
    exact Server.handle_ok hcall.resolve hperform

theorem exists_fares_of_calls {input : r.Input} (h : b.Calls request world o r e x input) :
    ∃ response world' deeds, b.Fares request world response world' deeds := by
  rcases hrun : (r.function input).outcome (x.toScope.holding input) with ⟨status | output, s⟩
  · exact ⟨_, _, _, .failed h hrun⟩
  · cases hwrite : Message.write e output.value with
    | error fault => exact ⟨_, _, _, .unwritten h hrun hwrite⟩
    | ok body => exact ⟨_, _, _, .answered h hrun hwrite⟩

theorem exists_fares_of_reaches (h : b.Reaches request world o r e x) :
    ∃ response world' deeds, b.Fares request world response world' deeds := by
  rcases Nat.lt_or_ge b.settings.maxRequestLength request.body.length with hlong | hlimit
  · exact ⟨_, _, _, .overLimit h hlong⟩
  rcases Nat.lt_or_ge request.body.length Message.lengthBound with hbound | hlong
  · cases hbody : request.body.bytes?.bind (Message.decode? (M := r.Input) e) with
    | none => exact ⟨_, _, _, .undecoded ⟨h, hlimit, hbound⟩ hbody⟩
    | some input => exact exists_fares_of_calls ⟨⟨h, hlimit, hbound⟩, hbody⟩
  · exact ⟨_, _, _, .overBound h hlimit hlong⟩

theorem exists_fares_of_admits (h : b.Admits request o r e) :
    ∃ response world' deeds, b.Fares request world response world' deeds := by
  rcases Chain.passes_or_fails (fun u : Server.Interceptor κ σ => u ⟨e, request⟩) b.units
    (b.server.begin world) with ⟨x, hx⟩ | ⟨before, u, after, x, status, y, hunits, hpass, hfail⟩
  · exact exists_fares_of_reaches ⟨h, hx⟩
  · exact ⟨_, _, _, .intercepted h hunits hpass hfail⟩

/-- Every request comes to something. -/
theorem exists_fares (b : Blueprint κ σ) (request : Request) (world : σ) :
    ∃ response world' deeds, b.Fares request world response world' deeds := by
  by_cases hmethod : request.method = "POST"
  · cases hroute : b.leadsTo? request.uri.path with
    | none => exact ⟨_, _, _, .noRoute hmethod hroute⟩
    | some l =>
      obtain ⟨o, m⟩ := l
      obtain ⟨r, hr⟩ := leadsTo?_last hroute
      obtain rfl := Offer.last?_method hr
      by_cases htype : ∃ e : Encoding,
          request.headers.get? .contentType = some (Text.bytes e.contentType)
      · obtain ⟨e, he⟩ := htype
        exact exists_fares_of_admits ⟨hmethod, hroute, hr, he⟩
      · have hsome : (b.leadsTo? request.uri.path).isSome := by rw [hroute, Option.isSome_some]
        exact ⟨_, _, _, .noEncoding hmethod hsome (fun e he => htype ⟨e, he⟩)⟩
  · exact ⟨_, _, _, .notPost hmethod⟩

end

end Blueprint

end UnaryRpc
