import UnaryRpc.Proofs.Server.Handling

namespace UnaryRpc

open Http

variable {κ σ : Type} [ContextKeys κ]

namespace Exchange

/-- The exchange with another response. -/
def withResponse (x : Exchange κ σ) (r : Response) : Exchange κ σ :=
  { x with response := r }

/-- An action that neither sees nor changes the response. -/
def Blind {α : Type} (action : Action (Exchange κ σ) α) : Prop :=
  ∀ x r, action.outcome (x.withResponse r) =
    ((action.outcome x).1, (action.outcome x).2.withResponse r)

section

variable {α β : Type} {action : Action (Exchange κ σ) α}

theorem Blind.response (h : Blind action) (x : Exchange κ σ) :
    (action.outcome x).2.response = x.response :=
  congrArg (fun outcome => outcome.2.response) (h x x.response)

theorem blind_throw (status : Status) : Blind (throw status : Action (Exchange κ σ) α) :=
  fun _ _ => rfl

theorem blind_throw_bind (status : Status) (next : α → Action (Exchange κ σ) β) :
    Blind ((throw status : Action (Exchange κ σ) α) >>= next) :=
  fun _ _ => rfl

theorem blind_pure (a : α) : Blind (pure a : Action (Exchange κ σ) α) :=
  fun _ _ => rfl

theorem blind_withScope (inner : Action (Scope κ σ) α) : Blind (withScope inner) :=
  fun _ _ => rfl

theorem Blind.bind {next : α → Action (Exchange κ σ) β} (h : Blind action)
    (hnext : ∀ a, Blind (next a)) : Blind (action >>= next) := by
  intro x r
  have hr := h x r
  rcases hrun : action.outcome x with ⟨status | a, y⟩
  · rw [hrun] at hr
    rw [Action.outcome_bind_error hrun, Action.outcome_bind_error hr]
  · rw [hrun] at hr
    rw [Action.outcome_bind_ok hrun, Action.outcome_bind_ok hr]
    exact hnext a y r

end

end Exchange

namespace Server

open Exchange

/-- The server without interceptors. -/
def bare (s : Server κ σ) : Server κ σ :=
  { s with interceptors := .empty }

/-- Behind its interceptors a request is performed as if there were none. -/
theorem perform_behind (s : Server κ σ) (route : Route κ σ) (inbound : Inbound) :
    s.perform route inbound = (do
      s.interceptors.execute (fun unit => unit inbound)
      s.bare.perform route inbound) := rfl

/-- Without interceptors a request has nothing to do with the response. -/
theorem blind_bare (s : Server κ σ) (route : Route κ σ) (inbound : Inbound) :
    Blind (s.bare.perform route inbound) := by
  rw [perform]
  apply (blind_pure ()).bind
  intro _
  dsimp only
  split
  · exact blind_throw_bind _ _
  · apply (blind_withScope _).bind
    intro output
    cases output.value.write inbound.encoding with
    | ok bytes => exact blind_pure bytes
    | error fault => exact blind_throw fault.status

/-- Interceptors that stand in for others in a run that starts in an exchange: each has the outcome
of the one in its place, and its effect on the scope, and leaves the response as it is. -/
inductive Muted (inbound : Inbound) (r : Response) :
    List (Interceptor κ σ) → List (Interceptor κ σ) → Exchange κ σ → Prop
  | none (x : Exchange κ σ) : Muted inbound r [] [] x
  | passed {u v : Interceptor κ σ} {us vs : List (Interceptor κ σ)} {x y : Exchange κ σ}
      (loud : (u inbound).outcome x = (.ok (), y))
      (quiet : (v inbound).outcome (x.withResponse r) = (.ok (), y.withResponse r))
      (others : Muted inbound r us vs y) : Muted inbound r (u :: us) (v :: vs) x
  | failed {u v : Interceptor κ σ} {us vs : List (Interceptor κ σ)} {x y : Exchange κ σ}
      {status : Status} (loud : (u inbound).outcome x = (.error status, y))
      (quiet : (v inbound).outcome (x.withResponse r) = (.error status, y.withResponse r)) :
      Muted inbound r (u :: us) (v :: vs) x

/-- Any interceptors have stand-ins: those that repeat what was done to the scope. -/
theorem exists_muted (inbound : Inbound) (r : Response) (us : List (Interceptor κ σ))
    (x : Exchange κ σ) : ∃ vs, Muted inbound r us vs x := by
  induction us generalizing x with
  | nil => exact ⟨[], .none x⟩
  | cons u us ih =>
    rcases hu : (u inbound).outcome x with ⟨status | ⟨⟩, y⟩
    · exact ⟨[fun _ z => (.error status, y.withResponse z.response)], .failed hu rfl⟩
    · obtain ⟨vs, hvs⟩ := ih y
      exact ⟨(fun _ z => (.ok (), y.withResponse z.response)) :: vs, .passed hu rfl hvs⟩

/-- A run of stand-ins is the run without the changes of the response. -/
theorem Muted.runUnits {inbound : Inbound} {r : Response} {us vs : List (Interceptor κ σ)}
    {x : Exchange κ σ} (h : Muted inbound r us vs x) :
    (Chain.runUnits (fun v => v inbound) vs).outcome (x.withResponse r) =
      (((Chain.runUnits (fun u => u inbound) us).outcome x).1,
        ((Chain.runUnits (fun u => u inbound) us).outcome x).2.withResponse r) := by
  induction h with
  | none x => rfl
  | passed loud quiet _ ih =>
    rw [Chain.runUnits, Chain.runUnits, Action.outcome_bind_ok loud, Action.outcome_bind_ok quiet]
    exact ih
  | failed loud quiet =>
    rw [Chain.runUnits, Chain.runUnits, Action.outcome_bind_error loud,
      Action.outcome_bind_error quiet]

section

variable {s : Server κ σ} {request : Request} {world : σ}

/-- The response as the interceptors leave it. Those of a request that is not resolved never run. -/
def draft (s : Server κ σ) (request : Request) (world : σ) : Response :=
  match s.resolve request with
  | .error _ => {}
  | .ok (_, encoding) =>
    ((s.interceptors.execute (fun unit => unit ⟨encoding, request⟩)).outcome
      (s.begin world)).2.response

theorem perform_response (s : Server κ σ) (route : Route κ σ) (inbound : Inbound)
    (x : Exchange κ σ) :
    ((s.perform route inbound).outcome x).2.response =
      ((s.interceptors.execute (fun unit => unit inbound)).outcome x).2.response := by
  rw [perform_behind]
  rcases hrun : (s.interceptors.execute (fun unit => unit inbound)).outcome x with ⟨status | ⟨⟩, y⟩
  · rw [Action.outcome_bind_error hrun]
  · rw [Action.outcome_bind_ok hrun]
    exact (s.blind_bare route inbound).response y

/-- With stand-ins a resolved request fares as it does without, apart from the response. -/
theorem perform_muted (route : Route κ σ) {inbound : Inbound} {r : Response}
    {quiet : List (Interceptor κ σ)} {x : Exchange κ σ}
    (h : Muted inbound r s.interceptors.units quiet x) :
    (({ s with interceptors := ⟨quiet⟩ } : Server κ σ).perform route inbound).outcome
        (x.withResponse r) =
      (((s.perform route inbound).outcome x).1,
        ((s.perform route inbound).outcome x).2.withResponse r) := by
  have hquiet := h.runUnits
  rw [perform_behind, perform_behind s, Chain.execute, Chain.execute]
  rcases hrun : (Chain.runUnits (fun unit => unit inbound) s.interceptors.units).outcome x with
    ⟨status | ⟨⟩, y⟩
  · rw [hrun] at hquiet
    rw [Action.outcome_bind_error hrun, Action.outcome_bind_error hquiet]
  · rw [hrun] at hquiet
    rw [Action.outcome_bind_ok hrun, Action.outcome_bind_ok hquiet]
    exact s.blind_bare route inbound y r

/-- A request whose method answers with a body: it is resolved, all interceptors let it pass, it is
short enough, and the output of its method is written in its encoding. -/
inductive Answers (s : Server κ σ) (request : Request) (world : σ) (e : Encoding)
    (body : List UInt8) : Prop
  | intro {route : Route κ σ} {x : Exchange κ σ} {output : Owned Outbound} {t : Scope κ σ}
      (resolved : s.resolve request = .ok (route, e))
      (passed : Chain.Passes (fun u => u ⟨e, request⟩) s.interceptors.units (s.begin world) x)
      (within : request.body.length ≤ s.settings.maxRequestLength)
      (returned : (route.service.invoke route.method request.body e).outcome x.toScope =
        (.ok output, t))
      (written : output.value.write e = .ok body) : Answers s request world e body

/-- A request that is performed with a body is one that its method answers. -/
theorem answers_of_perform {route : Route κ σ} {e : Encoding} {body : List UInt8}
    {y : Exchange κ σ} (hresolve : s.resolve request = .ok (route, e))
    (hrun : (s.perform route ⟨e, request⟩).outcome (s.begin world) = (.ok body, y)) :
    s.Answers request world e body := by
  rcases Chain.passes_or_fails (fun u : Interceptor κ σ => u ⟨e, request⟩) s.interceptors.units
    (s.begin world) with ⟨x, hpass⟩ | ⟨before, u, after, x, status, z, hunits, hpass, hfail⟩
  · rcases Nat.lt_or_ge s.settings.maxRequestLength request.body.length with hlong | hlimit
    · rw [perform_oversized hpass hlong] at hrun
      cases hrun
    · rcases hinvoke : (route.service.invoke route.method request.body e).outcome x.toScope with
        ⟨status | output, t⟩
      · rw [perform_failed hpass hlimit hinvoke] at hrun
        cases hrun
      · cases hwrite : output.value.write e with
        | error fault =>
          rw [perform_unwritten hpass hlimit hinvoke hwrite] at hrun
          cases hrun
        | ok bytes =>
          rw [perform_written hpass hlimit hinvoke hwrite] at hrun
          obtain rfl : bytes = body := Except.ok.inj (Prod.mk.inj hrun).1
          exact ⟨hresolve, hpass, hlimit, hinvoke, hwrite⟩
  · rw [perform_intercepted hunits hpass hfail] at hrun
    cases hrun

theorem draft_resolved {route : Route κ σ} {e : Encoding}
    (h : s.resolve request = .ok (route, e)) :
    s.draft request world = ((s.perform route ⟨e, request⟩).outcome (s.begin world)).2.response := by
  rw [perform_response]
  simp only [draft, h]

theorem handle_answered {e : Encoding} {body : List UInt8} (h : s.Answers request world e body) :
    (s.handle request world).1 = succeed e body (s.draft request world) := by
  obtain ⟨hresolve, hpass, hlimit, hinvoke, hwrite⟩ := h
  have hrun := perform_written hpass hlimit hinvoke hwrite
  rw [handle_ok hresolve hrun, draft_resolved hresolve, hrun]

theorem handle_unanswered (h : ∀ e body, ¬s.Answers request world e body) :
    ∃ status, (s.handle request world).1 = Envelope.write status (s.draft request world) := by
  rcases hresolve : s.resolve request with fault | ⟨route, e⟩
  · refine ⟨fault.status, ?_⟩
    rw [handle_unresolved hresolve]
    simp only [draft, hresolve]
  · rcases hrun : (s.perform route ⟨e, request⟩).outcome (s.begin world) with ⟨status | body, x⟩
    · refine ⟨status, ?_⟩
      rw [handle_error hresolve hrun, draft_resolved hresolve, hrun]
    · exact absurd (answers_of_perform hresolve hrun) (h e body)

/-- Stand-ins for the interceptors of a server in the handling of a request. -/
def MutedFor (s : Server κ σ) (request : Request) (world : σ)
    (quiet : List (Interceptor κ σ)) : Prop :=
  ∀ route e, s.resolve request = .ok (route, e) →
    Muted ⟨e, request⟩ {} s.interceptors.units quiet (s.begin world)

theorem exists_mutedFor (s : Server κ σ) (request : Request) (world : σ) :
    ∃ quiet, s.MutedFor request world quiet := by
  rcases hresolve : s.resolve request with fault | ⟨route, e⟩
  · refine ⟨[], ?_⟩
    intro route e h
    rw [hresolve] at h
    cases h
  · obtain ⟨quiet, hquiet⟩ := exists_muted ⟨e, request⟩ {} s.interceptors.units (s.begin world)
    refine ⟨quiet, ?_⟩
    intro route' e' h
    rw [hresolve] at h
    cases h
    exact hquiet

/-- With stand-ins for the interceptors the same status and body are sent, and the world is left
the same. -/
theorem handle_muted {quiet : List (Interceptor κ σ)} (h : s.MutedFor request world quiet) :
    let still := ({ s with interceptors := ⟨quiet⟩ } : Server κ σ).handle request world
    still.1.status = (s.handle request world).1.status ∧
    still.1.body = (s.handle request world).1.body ∧ still.2 = (s.handle request world).2 := by
  rcases hresolve : s.resolve request with fault | ⟨route, e⟩
  · have hstill : ({ s with interceptors := ⟨quiet⟩ } : Server κ σ).resolve request =
        .error fault := hresolve
    rw [handle_unresolved hresolve, handle_unresolved hstill]
    exact ⟨rfl, rfl, rfl⟩
  · have hstill : ({ s with interceptors := ⟨quiet⟩ } : Server κ σ).resolve request =
        .ok (route, e) := hresolve
    have hmuted := perform_muted route (h route e hresolve)
    rcases hrun : (s.perform route ⟨e, request⟩).outcome (s.begin world) with ⟨status | body, x⟩
    · rw [hrun] at hmuted
      rw [handle_error hresolve hrun, handle_error hstill hmuted]
      exact ⟨rfl, rfl, rfl⟩
    · rw [hrun] at hmuted
      rw [handle_ok hresolve hrun, handle_ok hstill hmuted]
      exact ⟨rfl, rfl, rfl⟩

end

/-- Interceptors can change the headers of a response and nothing else, whatever they put into the
response on the way. -/
theorem handle_shields_outcome (s : Server κ σ) (request : Request) (world : σ) :
    let response := (s.handle request world).1
    (∀ quiet, s.MutedFor request world quiet →
      let still := ({ s with interceptors := ⟨quiet⟩ } : Server κ σ).handle request world
      still.1.status = response.status ∧ still.1.body = response.body ∧
        still.2 = (s.handle request world).2) ∧
    (∃ quiet, s.MutedFor request world quiet) ∧
    response.headers.pairs.filter (fun p => p.1 != .contentType) =
      (s.draft request world).headers.pairs.filter (fun p => p.1 != .contentType) ∧
    (∃ value, response.headers.values .contentType = [value]) ∧
    (∀ e body, s.Answers request world e body →
      response.status = 200 ∧ response.body = .ofBytes body ∧
        response.headers.values .contentType = [Text.bytes e.contentType]) ∧
    ((∀ e body, ¬s.Answers request world e body) →
      400 ≤ response.status ∧ response.status ≤ 599 ∧
        response.headers.values .contentType = [Text.bytes "application/json"] ∧
        ∃ bytes code, response.body = .ofBytes bytes ∧ Envelope.Spells bytes code ∧
          WireCode.httpStatusOf code = response.status) := by
  intro response
  have hanswered : ∀ e body, s.Answers request world e body →
      response = succeed e body (s.draft request world) := fun _ _ h => handle_answered h
  have hunanswered : (∀ e body, ¬s.Answers request world e body) →
      ∃ status, response = Envelope.write status (s.draft request world) := handle_unanswered
  have hset : ∃ value, response.headers = (s.draft request world).headers.set .contentType value := by
    by_cases h : ∃ e body, s.Answers request world e body
    · obtain ⟨e, body, h⟩ := h
      rw [hanswered e body h]
      exact ⟨_, rfl⟩
    · obtain ⟨status, hstatus⟩ := hunanswered (fun e body ha => h ⟨e, body, ha⟩)
      rw [hstatus]
      exact ⟨_, rfl⟩
  obtain ⟨value, hvalue⟩ := hset
  refine ⟨fun _ => handle_muted, s.exists_mutedFor request world, ?_, ⟨value, ?_⟩, ?_, ?_⟩
  · rw [hvalue, Headers.others_set]
  · rw [hvalue, Headers.values_set_self]
  · intro e body h
    rw [hanswered e body h]
    exact ⟨rfl, rfl, Headers.values_set_self _ _ _⟩
  · intro h
    obtain ⟨status, hstatus⟩ := hunanswered h
    obtain ⟨hlow, hhigh⟩ := Envelope.status_write_range status (s.draft request world)
    rw [hstatus]
    exact ⟨hlow, hhigh, Headers.values_set_self _ _ _, _, _, rfl, Envelope.spells_ofStatus status,
      (Envelope.status_write status _).symm⟩

end Server

end UnaryRpc
