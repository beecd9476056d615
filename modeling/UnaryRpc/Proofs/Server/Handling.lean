import UnaryRpc.Proofs.Chain
import UnaryRpc.Proofs.Envelope
import UnaryRpc.Server

namespace UnaryRpc

namespace Http

theorem Headers.encoding_iff (h : Headers) (e : Encoding) :
    h.contentType?.bind Encoding.ofContentType? = some e ↔
      h.get? .contentType = some (Text.bytes e.contentType) := by
  rw [← h.contentType?_eq_some_iff]
  constructor
  · intro hbind
    obtain ⟨text, htext, hencoding⟩ := Option.bind_eq_some_iff.mp hbind
    have hname : text = e.contentType := by
      unfold Encoding.ofContentType? at hencoding
      split at hencoding
      · rename_i hp
        cases hencoding
        exact hp
      · split at hencoding
        · rename_i hj
          cases hencoding
          exact hj
        · cases hencoding
    rw [htext, hname]
  · intro htype
    rw [htype, Option.bind_some, Encoding.ofContentType?_contentType]

end Http

variable {κ σ : Type} [ContextKeys κ]

/-- The scope after a message is allocated in it. -/
def Scope.holding {M : Type} [Message M] (s : Scope κ σ) (m : M) : Scope κ σ :=
  { s with store := (Message.newIn s.store m).2 }

/-- A new message is bound to the arena if there is one. -/
theorem Message.owned_newIn {M : Type} [Message M] (store : Message.Store) (m : M) :
    (Message.newIn store m).1 = ⟨if store.isSome then .bound else .independent, m⟩ := by
  cases store <;> rfl

/-- A new message stands behind what the arena had. -/
theorem Message.store_newIn {M : Type} [Message M] (store : Message.Store) (m : M) :
    (Message.newIn store m).2 = store.map (fun arena => arena.alloc (Message.erase m)) := by
  cases store <;> rfl

/-- A body that is short enough is read as what its bytes spell. -/
theorem Message.read_short {M : Type} [Message M] {e : Encoding} {body : Http.Body}
    (h : body.length < lengthBound) :
    read (M := M) e body =
      match body.bytes?.bind (decode? e) with
      | some m => .ok m
      | none => .error (.undecodable e) := by
  rw [read]
  exact if_neg (Nat.not_le.mpr h)

namespace Descriptor

variable {I O : Type} [Message I] [Message O] {function : I → Action (Scope κ σ) (Owned O)}
  {encoding : Encoding} {body : Http.Body} {s : Scope κ σ}

/-- A body that cannot be read never gets to the function. -/
theorem invoker_unread {fault : Fault} (h : Message.read (M := I) encoding body = .error fault) :
    (invoker function body encoding).outcome s = (.error fault.status, s) := by
  apply Action.outcome_bind_error
  have hreceive : Message.receive (M := I) encoding body = throw fault.status := by
    rw [Message.receive, h]
  rw [hreceive]
  rfl

/-- A body that is read is handed to the function, in a scope that holds its message. -/
theorem invoker_read {input : I} (h : Message.read encoding body = .ok input) :
    (invoker function body encoding).outcome s =
      (((function input).outcome (s.holding input)).1.map (fun output => output.map Message.erase),
        ((function input).outcome (s.holding input)).2) := by
  have hreceive : (Scope.withStore (κ := κ) (σ := σ)
      (Message.receive (M := I) encoding body)).outcome s =
      (.ok (Message.newIn s.store input).1, s.holding input) := by
    rw [Message.receive, h]
    rfl
  rw [invoker, Action.outcome_bind_ok hreceive, Message.owned_newIn]
  rcases hrun : (function input).outcome (s.holding input) with ⟨status | output, t⟩
  · rw [Action.outcome_bind_error hrun]
    rfl
  · rw [Action.outcome_bind_ok hrun]
    rfl

end Descriptor

theorem Exchange.withScope_outcome {α : Type} {action : Action (Scope κ σ) α} {x : Exchange κ σ}
    {result : Except Status α} {t : Scope κ σ} (h : action.outcome x.toScope = (result, t)) :
    (withScope action).outcome x = (result, { x with toScope := t }) := by
  change ((action.outcome x.toScope).1, { x with toScope := (action.outcome x.toScope).2 }) = _
  rw [h]

namespace Server

open Http

variable {s : Server κ σ} {request : Request} {world : σ} {route : Route κ σ}
  {encoding : Encoding} {inbound : Inbound} {x y : Exchange κ σ}

theorem resolve_ok (hmethod : request.method = "POST")
    (hroute : s.routes.get? request.uri.path = some route)
    (hencoding : request.headers.get? .contentType = some (Text.bytes encoding.contentType)) :
    s.resolve request = .ok (route, encoding) := by
  have hbind := (request.headers.encoding_iff encoding).mpr hencoding
  simp only [resolve, hmethod, hroute, hbind, ne_eq, not_true_eq_false, ↓reduceIte]

theorem handle_unresolved {fault : Fault} (h : s.resolve request = .error fault) :
    s.handle request world = (Envelope.write fault.status {}, world) := by
  simp only [handle, h]

theorem handle_ok {body : List UInt8} (h : s.resolve request = .ok (route, encoding))
    (hrun : (s.perform route ⟨encoding, request⟩).outcome (s.begin world) = (.ok body, x)) :
    s.handle request world = (succeed encoding body x.response, x.world) := by
  simp only [handle, h, hrun]

theorem handle_error {status : Status} (h : s.resolve request = .ok (route, encoding))
    (hrun : (s.perform route ⟨encoding, request⟩).outcome (s.begin world) = (.error status, x)) :
    s.handle request world = (Envelope.write status x.response, x.world) := by
  simp only [handle, h, hrun]

theorem perform_intercepted {before after : List (Interceptor κ σ)} {u : Interceptor κ σ}
    {status : Status} {z : Exchange κ σ} (hunits : s.interceptors.units = before ++ u :: after)
    (hpass : Chain.Passes (fun u => u inbound) before x y)
    (hu : (u inbound).outcome y = (.error status, z)) :
    (s.perform route inbound).outcome x = (.error status, z) := by
  apply Action.outcome_bind_error
  rw [Chain.execute, hunits]
  exact Chain.runUnits_of_fails hpass hu

section

variable (hpass : Chain.Passes (fun u => u inbound) s.interceptors.units x y)
include hpass

theorem execute_passed :
    (s.interceptors.execute (fun u => u inbound)).outcome x = (.ok (), y) :=
  Chain.runUnits_of_passes hpass

theorem perform_oversized
    (hlimit : s.settings.maxRequestLength < inbound.request.body.length) :
    (s.perform route inbound).outcome x =
      (.error (Fault.oversizedBody inbound.request.body.length
        s.settings.maxRequestLength).status, y) := by
  rw [perform, Action.outcome_bind_ok (execute_passed hpass)]
  simp only [hlimit, ↓reduceIte]
  exact Action.outcome_bind_error rfl _

variable {service : Service κ σ} {method : String} {t : Scope κ σ}
  (hlimit : inbound.request.body.length ≤ s.settings.maxRequestLength)
include hlimit

theorem perform_failed {status : Status}
    (hrun : (service.invoke method inbound.request.body inbound.encoding).outcome
      y.toScope = (.error status, t)) :
    (s.perform ⟨service, method⟩ inbound).outcome x = (.error status, { y with toScope := t }) := by
  rw [perform, Action.outcome_bind_ok (execute_passed hpass)]
  simp only [Nat.not_lt.mpr hlimit, ↓reduceIte]
  exact Action.outcome_bind_error (Exchange.withScope_outcome hrun) _

variable {output : Owned Outbound}
  (hrun : (service.invoke method inbound.request.body inbound.encoding).outcome
    y.toScope = (.ok output, t))
include hrun

theorem perform_returned :
    (s.perform ⟨service, method⟩ inbound).outcome x =
      ((output.value.write inbound.encoding).mapError Fault.status, { y with toScope := t }) := by
  rw [perform, Action.outcome_bind_ok (execute_passed hpass)]
  simp only [Nat.not_lt.mpr hlimit, ↓reduceIte]
  rw [Action.outcome_bind_ok (Exchange.withScope_outcome hrun)]
  cases output.value.write inbound.encoding with
  | ok bytes => rfl
  | error fault => rfl

theorem perform_unwritten {fault : Fault}
    (hwrite : output.value.write inbound.encoding = .error fault) :
    (s.perform ⟨service, method⟩ inbound).outcome x =
      (.error fault.status, { y with toScope := t }) := by
  rw [perform_returned hpass hlimit hrun, hwrite]
  rfl

theorem perform_written {body : List UInt8}
    (hwrite : output.value.write inbound.encoding = .ok body) :
    (s.perform ⟨service, method⟩ inbound).outcome x = (.ok body, { y with toScope := t }) := by
  rw [perform_returned hpass hlimit hrun, hwrite]
  rfl

end

/-- Handles requests in order. The answer has each with its response, and the world after them. -/
def run (s : Server κ σ) : List Request → σ → List (Request × Response) × σ
  | [], world => ([], world)
  | request :: requests, world =>
    let (response, world) := s.handle request world
    let (steps, world) := s.run requests world
    ((request, response) :: steps, world)

theorem run_cons (s : Server κ σ) (request : Request) (requests : List Request) (world : σ) :
    s.run (request :: requests) world =
      ((request, (s.handle request world).1) :: (s.run requests (s.handle request world).2).1,
        (s.run requests (s.handle request world).2).2) := rfl

/-- What every request keeps, a run keeps. -/
theorem run_keeps {s : Server κ σ} {P : σ → Prop}
    (hstep : ∀ request world, P world → P (s.handle request world).2) (requests : List Request)
    {world : σ} (h : P world) : P (s.run requests world).2 := by
  induction requests generalizing world with
  | nil => exact h
  | cons request requests ih =>
    rw [run_cons]
    exact ih (hstep request world h)

/-- If each response tells what becomes of a view of the world, the responses of a run do. -/
theorem run_follows {α : Type} {s : Server κ σ} (view : σ → α) (next : α → Request × Response → α)
    (hstep : ∀ request world, view (s.handle request world).2 =
      next (view world) (request, (s.handle request world).1))
    (requests : List Request) (world : σ) :
    view (s.run requests world).2 = (s.run requests world).1.foldl next (view world) := by
  induction requests generalizing world with
  | nil => rfl
  | cons request requests ih =>
    rw [run_cons, List.foldl_cons, ← hstep]
    exact ih (s.handle request world).2

end Server

end UnaryRpc
