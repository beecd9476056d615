import UnaryRpc.Proofs.Server.Gates

namespace UnaryRpc

open Http

variable {κ σ : Type} [ContextKeys κ]

/-- A scope with a diary beside its world. -/
def Scope.noting (s : Scope κ σ) (diary : List Deed) : Scope κ (σ × List Deed) :=
  ⟨s.store, s.context, (s.world, diary)⟩

/-- An exchange with a diary beside its world. -/
def Exchange.noting (x : Exchange κ σ) (diary : List Deed) : Exchange κ (σ × List Deed) :=
  ⟨x.toScope.noting diary, x.response⟩

/-- An interceptor that also notes its number each time it runs. -/
def noteUnit (number : Nat) (u : Server.Interceptor κ σ) :
    Server.Interceptor κ (σ × List Deed) := fun inbound x =>
  let (result, y) := (u inbound).outcome ⟨⟨x.store, x.context, x.world.1⟩, x.response⟩
  (result, y.noting (x.world.2 ++ [.unit number]))

/-- A registration that also notes the method and its input each time its function runs. -/
def Registration.noting (service : String) (r : Registration κ σ) :
    Registration κ (σ × List Deed) where
  method := r.method
  function input := fun s =>
    let (result, t) := (r.function input).outcome ⟨s.store, s.context, s.world.1⟩
    (result, t.noting (s.world.2 ++ [.call service r.method (Message.erase input)]))

def Offer.noting (o : Offer κ σ) : Offer κ (σ × List Deed) :=
  ⟨o.name, o.registrations.map (Registration.noting o.name)⟩

/-- The blueprint of a server that keeps a diary. -/
def Blueprint.noting (b : Blueprint κ σ) : Blueprint κ (σ × List Deed) where
  settings := b.settings
  offers := b.offers.map Offer.noting
  units := b.units.zipIdx.map (fun p => noteUnit p.2 p.1)

theorem noteUnit_outcome {u : Server.Interceptor κ σ} {inbound : Inbound} {x y : Exchange κ σ}
    {result : Except Status Unit} (h : (u inbound).outcome x = (result, y)) (number : Nat)
    (diary : List Deed) :
    (noteUnit number u inbound).outcome (x.noting diary) =
      (result, y.noting (diary ++ [.unit number])) := by
  change (((u inbound).outcome x).1, ((u inbound).outcome x).2.noting _) = _
  rw [h]
  rfl

theorem Registration.noting_outcome {r : Registration κ σ} {input : r.Input} {s t : Scope κ σ}
    {result : Except Status (Owned r.Output)} (h : (r.function input).outcome s = (result, t))
    (service : String) (diary : List Deed) :
    ((r.noting service).function input).outcome (s.noting diary) =
      (result, t.noting (diary ++ [.call service r.method (Message.erase input)])) := by
  change (((r.function input).outcome s).1, ((r.function input).outcome s).2.noting _) = _
  rw [h]
  rfl

/-- Units that pass still do when they note it. -/
theorem passes_noting {inbound : Inbound} {us : List (Server.Interceptor κ σ)}
    {x y : Exchange κ σ} (h : Chain.Passes (fun u => u inbound) us x y) :
    Chain.Passes (fun u => u inbound) (us.zipIdx.map (fun p => noteUnit p.2 p.1)) (x.noting [])
      (y.noting (Blueprint.deedsOf us.length)) :=
  Chain.Passes.noting noteUnit_outcome h

namespace Offer

/-- Descriptors that look the same from outside. -/
structure Alike (d : Descriptor κ σ) (d' : Descriptor κ (σ × List Deed)) : Prop where
  methods : d'.methods = d.methods
  known : ∀ m, (d'.invokers.get? m).isSome = (d.invokers.get? m).isSome

theorem Alike.unary {d : Descriptor κ σ} {d' : Descriptor κ (σ × List Deed)} (h : Alike d d')
    (service : String) (r : Registration κ σ) :
    Alike (d.unary r.method r.function) (d'.unary r.method (r.noting service).function) := by
  constructor
  · simp only [Descriptor.unary, h.methods, h.known]
  · intro m
    simp only [Descriptor.unary, Table.get?_insert]
    split
    · rfl
    · exact h.known m

theorem Alike.foldl {d : Descriptor κ σ} {d' : Descriptor κ (σ × List Deed)} (h : Alike d d')
    (service : String) (rs : List (Registration κ σ)) :
    Alike (rs.foldl (fun d r => d.unary r.method r.function) d)
      ((rs.map (Registration.noting service)).foldl
        (fun d r => d.unary r.method r.function) d') := by
  induction rs generalizing d d' with
  | nil => exact h
  | cons r rs ih => exact ih (h.unary service r)

theorem noting_methods (o : Offer κ σ) : o.noting.service.methods = o.service.methods := by
  have hnew : Alike (.new o.name : Descriptor κ σ) (.new o.name) := ⟨rfl, fun _ => rfl⟩
  exact (hnew.foldl o.name o.registrations).methods

theorem noting_methodAt? (o : Offer κ σ) (pathPrefix path : String) :
    o.noting.service.methodAt? pathPrefix path = o.service.methodAt? pathPrefix path := by
  have hname : o.noting.service.name = o.service.name := by
    rw [service_name, service_name]
    rfl
  rw [Service.methodAt?, Service.methodAt?, noting_methods, hname]

theorem noting_last? (o : Offer κ σ) (m : String) :
    o.noting.last? m = (o.last? m).map (Registration.noting o.name) := by
  rw [last?, noting, ← List.map_reverse, List.find?_map]
  rfl

end Offer

namespace Blueprint

theorem listing?_noting (pathPrefix path : String) (offers : List (Offer κ σ)) :
    listing? pathPrefix path (offers.map Offer.noting) =
      (listing? pathPrefix path offers).map (fun l => (l.1.noting, l.2)) := by
  induction offers with
  | nil => rfl
  | cons o earlier ih =>
    rw [List.map_cons, listing?, ih, Offer.noting_methodAt?, listing?]
    cases o.service.methodAt? pathPrefix path with
    | some m => rfl
    | none =>
      cases listing? pathPrefix path earlier with
      | none => rfl
      | some l =>
        simp only [Option.map_none, Option.none_or, Option.map_some, Option.filter]
        by_cases hname : l.1.name = o.name
        · simp [hname, Offer.noting]
        · simp [hname, Offer.noting]

theorem noting_leadsTo? (b : Blueprint κ σ) (path : String) :
    b.noting.leadsTo? path = (b.leadsTo? path).map (fun l => (l.1.noting, l.2)) := by
  rw [leadsTo?, noting, ← List.map_reverse, listing?_noting]
  rfl

section

variable {b : Blueprint κ σ} {request : Request} {world : σ} {o : Offer κ σ}
  {r : Registration κ σ} {e : Encoding} {x : Exchange κ σ}

theorem begin_noting (b : Blueprint κ σ) (world : σ) :
    b.noting.server.begin (world, []) = (b.server.begin world).noting [] := by
  rw [Server.begin, Server.begin, server_settings, server_settings]
  rfl

theorem Admits.noting (h : b.Admits request o r e) :
    b.noting.Admits request o.noting (r.noting o.name) e := by
  refine ⟨h.method, ?_, ?_, h.contentType⟩
  · rw [noting_leadsTo?, h.route]
    rfl
  · rw [Offer.noting_last?]
    exact congrArg _ h.registered

theorem Reaches.noting (h : b.Reaches request world o r e x) :
    b.noting.Reaches request (world, []) o.noting (r.noting o.name) e
      (x.noting (deedsOf b.units.length)) := by
  have hpass := passes_noting h.units
  rw [← begin_noting] at hpass
  exact ⟨h.toAdmits.noting, hpass⟩

theorem Fits.noting (h : b.Fits request world o r e x) :
    b.noting.Fits request (world, []) o.noting (r.noting o.name) e
      (x.noting (deedsOf b.units.length)) :=
  ⟨h.toReaches.noting, h.limit, h.bound⟩

theorem Calls.noting {input : r.Input} (h : b.Calls request world o r e x input) :
    b.noting.Calls (r := r.noting o.name) request (world, []) o.noting e
      (x.noting (deedsOf b.units.length)) input :=
  ⟨h.toFits.noting, h.decoded⟩

/-- The server that keeps a diary fares as before, and its diary has the deeds. -/
theorem Fares.noting {response : Response} {world' : σ} {deeds : List Deed}
    (h : b.Fares request world response world' deeds) :
    b.noting.Fares request (world, []) response (world', deeds) deeds := by
  have hsize : b.noting.units.length = b.units.length := by
    rw [Blueprint.noting, List.length_map, List.length_zipIdx]
  cases h with
  | notPost hmethod => exact .notPost hmethod
  | noRoute hmethod hroute =>
    refine .noRoute hmethod ?_
    rw [noting_leadsTo?, hroute, Option.map_none]
  | noEncoding hmethod hroute htype =>
    refine .noEncoding hmethod ?_ htype
    rw [noting_leadsTo?, Option.isSome_map, hroute]
  | @intercepted o r e hopen before u after x status y hunits hpass hfail =>
    have hnoted := passes_noting hpass
    rw [← begin_noting] at hnoted
    have hfailed := noteUnit_outcome hfail before.length (deedsOf before.length)
    have hdeeds : deedsOf (before.length + 1) = deedsOf before.length ++ [.unit before.length] :=
      Chain.map_range_succ Deed.unit before.length
    rw [← hdeeds] at hfailed
    have hunits' : b.noting.units =
        (before.zipIdx.map fun p => noteUnit p.2 p.1) ++ noteUnit before.length u ::
          (after.zipIdx (before.length + 1)).map fun p => noteUnit p.2 p.1 := by
      rw [Blueprint.noting, hunits]
      exact Chain.zipIdx_around noteUnit before after u
    have hfare := Fares.intercepted hopen.noting hunits' hnoted hfailed
    rw [List.length_map, List.length_zipIdx] at hfare
    exact hfare
  | overLimit hreach hlong =>
    have hfare := Fares.overLimit hreach.noting hlong
    rw [hsize] at hfare
    exact hfare
  | overBound hreach hlimit hlong =>
    have hfare := Fares.overBound hreach.noting hlimit hlong
    rw [hsize] at hfare
    exact hfare
  | undecoded hfit hbody =>
    have hfare := Fares.undecoded hfit.noting hbody
    rw [hsize] at hfare
    exact hfare
  | failed hcall hrun =>
    have hfare := Fares.failed hcall.noting (Registration.noting_outcome hrun _ _)
    rw [hsize] at hfare
    exact hfare
  | unwritten hcall hrun hwrite =>
    have hfare := Fares.unwritten hcall.noting (Registration.noting_outcome hrun _ _) hwrite
    rw [hsize] at hfare
    exact hfare
  | answered hcall hrun hwrite =>
    have hfare := Fares.answered hcall.noting (Registration.noting_outcome hrun _ _) hwrite
    rw [hsize] at hfare
    exact hfare

end

/-- The first gate that a request fails alone decides what becomes of it, and a diary of the same
server says what runs on the way. -/
theorem handle_gates (b : Blueprint κ σ) (request : Request) (world : σ) :
    (∀ path, b.server.routes.get? path = (b.leadsTo? path).map (fun l => ⟨l.1.service, l.2⟩)) ∧
    (∃ response world' deeds, b.Fares request world response world' deeds) ∧
    ∀ response world' deeds, b.Fares request world response world' deeds →
      b.server.handle request world = (response, world') ∧
      b.noting.server.handle request (world, []) = (response, (world', deeds)) := by
  refine ⟨b.server_routes, b.exists_fares request world, ?_⟩
  intro response world' deeds h
  exact ⟨handle_of_fares h, handle_of_fares h.noting⟩

end Blueprint

end UnaryRpc
