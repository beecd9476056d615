import UnaryRpc.Proofs.Server.Declared
import UnaryRpc.Proofs.Server.Gates

namespace UnaryRpc

open Http

variable {κ σ : Type} [ContextKeys κ]

/-- A turn of a registered function: its number among the registrations, and the input. -/
structure Turn where
  number : Nat
  input : Outbound

/-- A scope with a list of turns beside its world. -/
def Scope.logging (s : Scope κ σ) (turns : List Turn) : Scope κ (σ × List Turn) :=
  ⟨s.store, s.context, (s.world, turns)⟩

/-- A registration that also logs its number and the input each time its function runs. -/
def Registration.logging (number : Nat) (r : Registration κ σ) :
    Registration κ (σ × List Turn) where
  method := r.method
  function input := fun s =>
    let (result, t) := (r.function input).outcome ⟨s.store, s.context, s.world.1⟩
    (result, t.logging (s.world.2 ++ [⟨number, Message.erase input⟩]))

theorem Registration.logging_outcome {r : Registration κ σ} {input : r.Input} {s t : Scope κ σ}
    {result : Except Status (Owned r.Output)}
    (h : (r.function input).outcome (s.holding input) = (result, t)) (number : Nat) :
    ((r.logging number).function input).outcome ((s.logging []).holding input) =
      (result, t.logging [⟨number, Message.erase input⟩]) := by
  change (((r.function input).outcome (s.holding input)).1,
    ((r.function input).outcome (s.holding input)).2.logging _) = _
  rw [h]
  rfl

namespace Offer

/-- The methods that are listed for registered names: each once, in the order in which the names
were registered first. -/
structure Lists (names methods : List String) : Prop where
  nodup : methods.Nodup
  mem : ∀ m, m ∈ methods ↔ m ∈ names
  order : methods.Pairwise (fun m m' => names.idxOf m < names.idxOf m')

/-- The registration of a method that stands, between those before it and those after it. -/
structure Last (o : Offer κ σ) (m : String) (before : List (Registration κ σ))
    (r : Registration κ σ) (after : List (Registration κ σ)) : Prop where
  registered : o.registrations = before ++ r :: after
  method : r.method = m
  others : ∀ r' ∈ after, r'.method ≠ m

/-- A body that spells an input of the function that stands for a method. -/
structure Takes (o : Offer κ σ) (m : String) (body : Body) (e : Encoding)
    (before : List (Registration κ σ)) (r : Registration κ σ) (after : List (Registration κ σ))
    (input : r.Input) : Prop extends o.Last m before r after where
  short : body.length < Message.lengthBound
  decoded : body.bytes?.bind (Message.decode? e) = some input

/-- What it comes to when a service invokes a method in a scope, the scope after it, and the turns
that functions took: one case for each way to fail and one for success. -/
inductive Invokes (o : Offer κ σ) (m : String) (body : Body) (e : Encoding) (scope : Scope κ σ) :
    Except Status (Owned Outbound) → Scope κ σ → List Turn → Prop
  | undeclared (hnone : ∀ r ∈ o.registrations, r.method ≠ m) :
    Invokes o m body e scope (.error (.badRoute (o.name ++ " has no method " ++ m))) scope []
  | tooLarge {before r after} (hlast : o.Last m before r after)
      (hlong : Message.lengthBound ≤ body.length) :
    Invokes o m body e scope (.error ⟨.outOfRange, "Argument size is too large", .empty⟩) scope []
  | undecoded {before r after} (hlast : o.Last m before r after)
      (hshort : body.length < Message.lengthBound)
      (hbody : body.bytes?.bind (Message.decode? (M := r.Input) e) = none) :
    Invokes o m body e scope (.error (.malformed (Blueprint.unreadable e))) scope []
  | failed {before r after input} (htakes : o.Takes m body e before r after input) {status s}
      (hrun : (r.function input).outcome (scope.holding input) = (.error status, s)) :
    Invokes o m body e scope (.error status) s [⟨before.length, Message.erase input⟩]
  | returned {before r after input} (htakes : o.Takes m body e before r after input) {output s}
      (hrun : (r.function input).outcome (scope.holding input) = (.ok output, s)) :
    Invokes o m body e scope (.ok (output.map Message.erase)) s
      [⟨before.length, Message.erase input⟩]

/-- The service with all of its functions logged. -/
def logging (o : Offer κ σ) : Offer κ (σ × List Turn) :=
  ⟨o.name, o.registrations.zipIdx.map (fun p => p.1.logging p.2)⟩

theorem Lists.of_order {names methods : List String} (hmem : ∀ m, m ∈ methods ↔ m ∈ names)
    (horder : methods.Pairwise (fun m m' => names.idxOf m < names.idxOf m')) :
    Lists names methods := by
  refine ⟨horder.imp ?_, hmem, horder⟩
  rintro m _ hlt rfl
  exact Nat.lt_irrefl _ hlt

theorem Lists.register {names methods : List String} (h : Lists names methods) (m : String) :
    Lists (names ++ [m]) (if m ∈ methods then methods else methods ++ [m]) := by
  have hidx : ∀ a ∈ methods, (names ++ [m]).idxOf a = names.idxOf a := by
    intro a ha
    exact List.idxOf_append_of_mem ((h.mem a).mp ha)
  have horder : methods.Pairwise
      (fun a b => (names ++ [m]).idxOf a < (names ++ [m]).idxOf b) := by
    refine h.order.imp_of_mem ?_
    intro a b ha hb hlt
    rw [hidx a ha, hidx b hb]
    exact hlt
  by_cases hm : m ∈ methods
  · rw [if_pos hm]
    refine .of_order ?_ horder
    intro a
    rw [h.mem, List.mem_append, List.mem_singleton]
    constructor
    · exact .inl
    · rintro (ha | rfl)
      · exact ha
      · exact (h.mem a).mp hm
  · rw [if_neg hm]
    have hnew : m ∉ names := fun hmem => hm ((h.mem m).mpr hmem)
    refine .of_order ?_ ?_
    · intro a
      rw [List.mem_append, List.mem_append, h.mem]
    · refine List.pairwise_append.mpr ⟨horder, List.pairwise_singleton _ m, ?_⟩
      intro a ha b hb
      obtain rfl := List.mem_singleton.mp hb
      rw [hidx a ha, List.idxOf_append_of_notMem hnew, List.idxOf_cons_self, Nat.add_zero]
      exact List.idxOf_lt_length_of_mem ((h.mem a).mp ha)

theorem lists_foldl (rs : List (Registration κ σ)) {d : Descriptor κ σ} {names : List String}
    (hcomplete : Complete d) (h : Lists names d.methods) :
    Lists (names ++ rs.map Registration.method)
      (rs.foldl (fun d r => d.unary r.method r.function) d).methods := by
  induction rs generalizing d names with
  | nil =>
    rw [List.map_nil, List.append_nil]
    exact h
  | cons r rs ih =>
    have hstep : Lists (names ++ [r.method]) (d.unary r.method r.function).methods := by
      simp only [Descriptor.unary, ← hcomplete r.method]
      exact h.register r.method
    have hothers := ih (hcomplete.unary r) hstep
    rw [List.append_assoc] at hothers
    exact hothers

theorem lists_methods (o : Offer κ σ) :
    Lists (o.registrations.map Registration.method) o.service.methods := by
  have hnew : Lists [] (Descriptor.new o.name : Descriptor κ σ).methods :=
    ⟨.nil, fun _ => Iff.rfl, .nil⟩
  have hcomplete : Complete (Descriptor.new o.name : Descriptor κ σ) := by
    intro m
    simp [Descriptor.new]
  exact lists_foldl o.registrations hcomplete hnew

section

variable {o : Offer κ σ} {m : String} {before after : List (Registration κ σ)}
  {r : Registration κ σ}

theorem Last.last? (h : o.Last m before r after) : o.last? m = some r := by
  apply List.find?_eq_some_iff_append.mpr
  refine ⟨by simpa using h.method, after.reverse, before.reverse, ?_, ?_⟩
  · rw [h.registered, List.reverse_append, List.reverse_cons, List.append_assoc,
      List.singleton_append]
  · intro r' hr'
    simpa using h.others r' (List.mem_reverse.mp hr')

/-- A method has a registration that stands, or none at all. -/
theorem last_or_none (o : Offer κ σ) (m : String) :
    (∃ before r after, o.Last m before r after) ∨ ∀ r ∈ o.registrations, r.method ≠ m := by
  cases hlast : o.last? m with
  | none =>
    have hnone := List.find?_eq_none.mp hlast
    exact .inr (fun r hr => by simpa using hnone r (List.mem_reverse.mpr hr))
  | some r =>
    obtain ⟨hmethod, after, before, hsplit, hothers⟩ := List.find?_eq_some_iff_append.mp hlast
    refine .inl ⟨before.reverse, r, after.reverse, ?_, by simpa using hmethod, ?_⟩
    · have hreverse := congrArg List.reverse hsplit
      simpa using hreverse
    · intro r' hr'
      simpa using hothers r' (List.mem_reverse.mp hr')

variable {body : Body} {e : Encoding} {scope : Scope κ σ}

theorem invoke_undeclared (h : ∀ r ∈ o.registrations, r.method ≠ m) :
    (o.service.invoke m body e).outcome scope =
      (.error (.badRoute (o.name ++ " has no method " ++ m)), scope) := by
  have hlast : o.last? m = none := by
    apply List.find?_eq_none.mpr
    intro r hr
    simpa using h r (List.mem_reverse.mp hr)
  have hnone : o.descriptor.invokers.get? m = none := by
    rw [invoker_last, hlast]
    rfl
  have hname : o.descriptor.name = o.name := o.service_name
  simp only [service, Descriptor.toService, Descriptor.invoke, hnone, hname]
  rfl

/-- A body that cannot be read calls no function. -/
theorem Last.invoke_unread (h : o.Last m before r after) {fault : Fault}
    (hread : Message.read (M := r.Input) e body = .error fault) :
    (o.service.invoke m body e).outcome scope = (.error fault.status, scope) := by
  rw [invoke_last h.last?]
  exact Descriptor.invoker_unread hread

theorem Takes.invoke {input : r.Input} (h : o.Takes m body e before r after input) :
    (o.service.invoke m body e).outcome scope =
      (((r.function input).outcome (scope.holding input)).1.map
          (fun output => output.map Message.erase),
        ((r.function input).outcome (scope.holding input)).2) := by
  rw [invoke_last h.last?]
  apply Descriptor.invoker_read
  rw [Message.read_short h.short, h.decoded]

/-- A service invokes a method as the cases say. -/
theorem invoke_of_invokes {outcome : Except Status (Owned Outbound)} {scope' : Scope κ σ}
    {turns : List Turn} (h : o.Invokes m body e scope outcome scope' turns) :
    (o.service.invoke m body e).outcome scope = (outcome, scope') := by
  cases h with
  | undeclared hnone => exact invoke_undeclared hnone
  | tooLarge hlast hlong => exact hlast.invoke_unread (Blueprint.read_oversized hlong)
  | @undecoded _ r _ hlast hshort hbody =>
    have hread : Message.read (M := r.Input) e body = .error (.undecodable e) := by
      rw [Message.read_short hshort, hbody]
    rw [hlast.invoke_unread hread]
    cases e <;> rfl
  | failed htakes hrun =>
    rw [htakes.invoke, hrun]
    rfl
  | returned htakes hrun =>
    rw [htakes.invoke, hrun]
    rfl

theorem exists_invokes (o : Offer κ σ) (m : String) (body : Body) (e : Encoding)
    (scope : Scope κ σ) : ∃ outcome scope' turns, o.Invokes m body e scope outcome scope' turns := by
  rcases o.last_or_none m with ⟨before, r, after, hlast⟩ | hnone
  · by_cases hlong : Message.lengthBound ≤ body.length
    · exact ⟨_, _, _, .tooLarge hlast hlong⟩
    · have hshort := Nat.lt_of_not_le hlong
      cases hbody : body.bytes?.bind (Message.decode? (M := r.Input) e) with
      | none => exact ⟨_, _, _, .undecoded hlast hshort hbody⟩
      | some input =>
        have htakes : o.Takes m body e before r after input := ⟨hlast, hshort, hbody⟩
        rcases hrun : (r.function input).outcome (scope.holding input) with ⟨status | output, s⟩
        · exact ⟨_, _, _, .failed htakes hrun⟩
        · exact ⟨_, _, _, .returned htakes hrun⟩
  · exact ⟨_, _, _, .undeclared hnone⟩

theorem Last.logging (h : o.Last m before r after) :
    o.logging.Last m (before.zipIdx.map (fun p => p.1.logging p.2)) (r.logging before.length)
      ((after.zipIdx (before.length + 1)).map (fun p => p.1.logging p.2)) where
  registered := by
    rw [Offer.logging, h.registered]
    exact Chain.zipIdx_around Registration.logging before after r
  method := h.method
  others := by
    intro r' hr'
    obtain ⟨p, hp, rfl⟩ := List.mem_map.mp hr'
    exact h.others p.1 (List.fst_mem_of_mem_zipIdx hp)

theorem Takes.logging {input : r.Input} (h : o.Takes m body e before r after input) :
    o.logging.Takes (r := r.logging before.length) m body e
      (before.zipIdx.map (fun p => p.1.logging p.2))
      ((after.zipIdx (before.length + 1)).map (fun p => p.1.logging p.2)) input :=
  ⟨h.toLast.logging, h.short, h.decoded⟩

/-- The logged service invokes a method as before, and its log has the turns. -/
theorem Invokes.logging {outcome : Except Status (Owned Outbound)} {scope' : Scope κ σ}
    {turns : List Turn} (h : o.Invokes m body e scope outcome scope' turns) :
    o.logging.Invokes m body e (scope.logging []) outcome (scope'.logging turns) turns := by
  cases h with
  | undeclared hnone =>
    refine .undeclared ?_
    intro r' hr'
    obtain ⟨p, hp, rfl⟩ := List.mem_map.mp hr'
    exact hnone p.1 (List.fst_mem_of_mem_zipIdx hp)
  | tooLarge hlast hlong => exact .tooLarge hlast.logging hlong
  | undecoded hlast hshort hbody => exact .undecoded hlast.logging hshort hbody
  | failed htakes hrun =>
    have hinvokes := Invokes.failed htakes.logging (Registration.logging_outcome hrun _)
    rw [List.length_map, List.length_zipIdx] at hinvokes
    exact hinvokes
  | returned htakes hrun =>
    have hinvokes := Invokes.returned htakes.logging (Registration.logging_outcome hrun _)
    rw [List.length_map, List.length_zipIdx] at hinvokes
    exact hinvokes

end

/-- The methods that a described service lists are those that it can invoke, each once and by the
function registered last, and a server never asks it for another. -/
theorem service_in_step (o : Offer κ σ) :
    o.service.name = o.name ∧
    Lists (o.registrations.map Registration.method) o.service.methods ∧
    (∀ m body e scope, ∃ outcome scope' turns, o.Invokes m body e scope outcome scope' turns) ∧
    (∀ m body e scope outcome scope' turns, o.Invokes m body e scope outcome scope' turns →
      (o.service.invoke m body e).outcome scope = (outcome, scope') ∧
      (o.logging.service.invoke m body e).outcome (scope.logging []) =
        (outcome, scope'.logging turns)) ∧
    (∀ (M : Type) [Message M] (output : Owned M),
      let erased := output.map Message.erase
      erased.ownership = output.ownership ∧ erased.value.name = Message.name M ∧
      erased.value.schema = Message.schema M ∧
      Message.ofValue (M := M) erased.value.value = output.value ∧
      ∀ e, erased.value.write e = Message.write e output.value) ∧
    ∀ (s : Server κ σ) (others : List (Service κ σ)) (units : List (Server.Interceptor κ σ)),
      (∀ request route e,
        ((s.register o.service).adding others units).resolve request = .ok (route, e) →
        route.service = o.service → ∃ r ∈ o.registrations, r.method = route.method) ∧
      ∀ invoke : String → Invoker κ σ,
        (∀ r ∈ o.registrations, invoke r.method = o.service.invoke r.method) →
        ((s.register { o.service with invoke }).adding others units).handle =
          ((s.register o.service).adding others units).handle := by
  have hlists := o.lists_methods
  refine ⟨o.service_name, hlists, o.exists_invokes, ?_, ?_, ?_⟩
  · intro m body e scope outcome scope' turns h
    exact ⟨invoke_of_invokes h, invoke_of_invokes h.logging⟩
  · intro M _ output erased
    exact ⟨rfl, rfl, rfl, Message.ofValue_toValue output.value, fun _ => rfl⟩
  · intro s others units
    refine ⟨?_, ?_⟩
    · intro request route e hresolve hservice
      have hdeclares := (s.declares_register o.service).adding others units
      have hm := hdeclares _ _ (Server.route_of_resolve hresolve) (by rw [hservice])
      rw [hservice, hlists.mem] at hm
      exact List.mem_map.mp hm
    · intro invoke hinvoke
      have halike : o.service.Alike { o.service with invoke } := by
        refine ⟨rfl, rfl, ?_⟩
        intro m hm
        obtain ⟨r, hr, rfl⟩ := List.mem_map.mp ((hlists.mem m).mp hm)
        exact hinvoke r hr
      exact (((Server.Alike.refl s).register halike).adding others units).handle

end Offer

end UnaryRpc
