import Mathlib.Data.List.Induction
import UnaryRpc.Proofs.Server.Routes

namespace UnaryRpc

open Http

/-- A function registered for a method. -/
structure Registration (κ σ : Type) [ContextKeys κ] where
  method : String
  {Input : Type}
  {Output : Type}
  [input : Message Input]
  [output : Message Output]
  function : Input → Action (Scope κ σ) (Owned Output)

attribute [instance] Registration.input Registration.output

/-- A service to be described: its name and its registrations in order. -/
structure Offer (κ σ : Type) [ContextKeys κ] where
  name : String
  registrations : List (Registration κ σ)

namespace Offer

variable {κ σ : Type} [ContextKeys κ]

/-- The descriptor of the service. -/
def descriptor (o : Offer κ σ) : Descriptor κ σ :=
  o.registrations.foldl (fun d r => d.unary r.method r.function) (.new o.name)

/-- The service. -/
def service (o : Offer κ σ) : Service κ σ := o.descriptor.toService

/-- What is registered for a method last. -/
def last? (o : Offer κ σ) (method : String) : Option (Registration κ σ) :=
  o.registrations.reverse.find? (fun r => r.method == method)

theorem foldl_unary_name (rs : List (Registration κ σ)) (d : Descriptor κ σ) :
    (rs.foldl (fun d r => d.unary r.method r.function) d).name = d.name := by
  induction rs generalizing d with
  | nil => rfl
  | cons r rs ih => rw [List.foldl_cons, ih, Descriptor.unary]

@[simp] theorem service_name (o : Offer κ σ) : o.service.name = o.name :=
  foldl_unary_name o.registrations (.new o.name)

theorem foldl_unary_invokers (rs : List (Registration κ σ)) (d : Descriptor κ σ) (m : String) :
    (rs.foldl (fun d r => d.unary r.method r.function) d).invokers.get? m =
      ((rs.reverse.find? (fun r => r.method == m)).map
        (fun r => Descriptor.invoker r.function)).or (d.invokers.get? m) := by
  induction rs generalizing d with
  | nil => rfl
  | cons r rs ih =>
    rw [List.foldl_cons, ih, List.reverse_cons, List.find?_append, Descriptor.unary,
      Table.get?_insert]
    cases rs.reverse.find? (fun r => r.method == m) with
    | some last => simp
    | none =>
      by_cases hm : r.method = m
      · simp [hm]
      · simp [hm, Ne.symm hm]

/-- A method is invoked by what is registered for it last. -/
theorem invoker_last (o : Offer κ σ) (m : String) :
    o.descriptor.invokers.get? m = (o.last? m).map (fun r => Descriptor.invoker r.function) := by
  rw [descriptor, foldl_unary_invokers]
  simp [last?, Descriptor.new]

/-- The methods that a descriptor lists are those that it can invoke. -/
def Complete (d : Descriptor κ σ) : Prop :=
  ∀ m, m ∈ d.methods ↔ (d.invokers.get? m).isSome

theorem Complete.unary {d : Descriptor κ σ} (h : Complete d) (r : Registration κ σ) :
    Complete (d.unary r.method r.function) := by
  intro m
  simp only [Descriptor.unary, Table.get?_insert]
  by_cases hm : m = r.method
  · subst hm
    by_cases hknown : (d.invokers.get? r.method).isSome
    · simp [hknown, (h r.method).mpr hknown]
    · simp [hknown]
  · by_cases hknown : (d.invokers.get? r.method).isSome
    · simp [hknown, hm, h m]
    · simp [hknown, hm, h m]

theorem complete_foldl (rs : List (Registration κ σ)) {d : Descriptor κ σ} (h : Complete d) :
    Complete (rs.foldl (fun d r => d.unary r.method r.function) d) := by
  induction rs generalizing d with
  | nil => exact h
  | cons r rs ih => exact ih (h.unary r)

theorem complete_descriptor (o : Offer κ σ) : Complete o.descriptor := by
  apply complete_foldl
  intro m
  simp [Descriptor.new]

/-- A listed method has a registration. -/
theorem last?_of_mem {o : Offer κ σ} {m : String} (h : m ∈ o.service.methods) :
    ∃ r, o.last? m = some r := by
  have hsome := (o.complete_descriptor m).mp h
  rw [invoker_last, Option.isSome_map] at hsome
  exact Option.isSome_iff_exists.mp hsome

theorem last?_method {o : Offer κ σ} {m : String} {r : Registration κ σ}
    (h : o.last? m = some r) : r.method = m := by
  simpa using List.find?_some h

theorem mem_of_last? {o : Offer κ σ} {m : String} {r : Registration κ σ}
    (h : o.last? m = some r) : m ∈ o.service.methods := by
  apply (o.complete_descriptor m).mpr
  rw [invoker_last, h]
  rfl

theorem invoke_last {o : Offer κ σ} {m : String} {r : Registration κ σ}
    (h : o.last? m = some r) : o.service.invoke m = Descriptor.invoker r.function := by
  have hrun : o.descriptor.invokers.get? m = some (Descriptor.invoker r.function) := by
    rw [invoker_last, h]
    rfl
  funext body encoding
  simp only [service, Descriptor.toService, Descriptor.invoke, hrun]

end Offer

/-- A server to be built: its settings, its services and its interceptors in order. -/
structure Blueprint (κ σ : Type) [ContextKeys κ] where
  settings : Server.Settings
  offers : List (Offer κ σ)
  units : List (Server.Interceptor κ σ)

namespace Blueprint

variable {κ σ : Type} [ContextKeys κ]

/-- The server. -/
def server (b : Blueprint κ σ) : Server κ σ :=
  .serving b.settings (b.offers.map Offer.service) b.units

/-- What has a path among services, the last one first: the last service with such a method, if no
other service took its name since. -/
def listing? (pathPrefix path : String) : List (Offer κ σ) → Option (Offer κ σ × String)
  | [] => none
  | o :: earlier =>
    ((o.service.methodAt? pathPrefix path).map (fun m => (o, m))).or
      ((listing? pathPrefix path earlier).filter (fun l => l.1.name != o.name))

/-- The service and the method that a path leads to. -/
def leadsTo? (b : Blueprint κ σ) (path : String) : Option (Offer κ σ × String) :=
  listing? b.settings.pathPrefix path b.offers.reverse

theorem get?_foldl_register (settings : Server.Settings) (offers : List (Offer κ σ))
    (path : String) :
    ((offers.map Offer.service).foldl Server.register { settings }).routes.get? path =
      (listing? settings.pathPrefix path offers.reverse).map
        (fun l => ⟨l.1.service, l.2⟩) := by
  -- the last offer stands first in the listing, so the induction is from the end
  induction offers using List.reverseRecOn with
  | nil => rfl
  | append_singleton offers o ih =>
    rw [List.map_append, List.foldl_append, List.reverse_append]
    simp only [List.map_cons, List.map_nil, List.foldl_cons, List.foldl_nil, List.reverse_cons,
      List.reverse_nil, List.nil_append, List.singleton_append, listing?]
    rw [Server.get?_register, ih, Server.foldl_register_settings]
    cases (o.service.methodAt? settings.pathPrefix path) with
    | some m => rfl
    | none =>
      cases listing? settings.pathPrefix path offers.reverse with
      | none => rfl
      | some l =>
        by_cases hname : l.1.name = o.name
        · simp [Option.filter, hname]
        · simp [Option.filter, hname]

/-- The routes of the server are what the blueprint says. -/
theorem server_routes (b : Blueprint κ σ) (path : String) :
    b.server.routes.get? path = (b.leadsTo? path).map (fun l => ⟨l.1.service, l.2⟩) := by
  rw [server, Server.serving_routes]
  exact get?_foldl_register b.settings b.offers path

theorem listing?_method {pathPrefix path : String} {offers : List (Offer κ σ)} {o : Offer κ σ}
    {m : String} (h : listing? pathPrefix path offers = some (o, m)) :
    m ∈ o.service.methods := by
  induction offers with
  | nil => simp [listing?] at h
  | cons o' earlier ih =>
    rw [listing?, Option.or_eq_some_iff] at h
    rcases h with h | ⟨_, h⟩
    · obtain ⟨m', hm', he⟩ := Option.map_eq_some_iff.mp h
      obtain ⟨rfl, rfl⟩ := Prod.mk.inj he
      exact List.mem_of_find?_eq_some hm'
    · exact ih (Option.filter_eq_some_iff.mp h).1

/-- A path that leads anywhere leads to a registered function. -/
theorem leadsTo?_last {b : Blueprint κ σ} {path : String} {o : Offer κ σ} {m : String}
    (h : b.leadsTo? path = some (o, m)) : ∃ r, o.last? m = some r :=
  Offer.last?_of_mem (listing?_method h)

end Blueprint

end UnaryRpc
