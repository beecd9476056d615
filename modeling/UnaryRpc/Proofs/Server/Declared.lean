import UnaryRpc.Proofs.Server.Routes

namespace UnaryRpc

open Http

variable {κ σ : Type} [ContextKeys κ]

/-- Services of one name and with the same methods, which they invoke the same way. -/
structure Service.Alike (service service' : Service κ σ) : Prop where
  name : service'.name = service.name
  methods : service'.methods = service.methods
  invoke : ∀ m ∈ service.methods, service'.invoke m = service.invoke m

/-- Routes to methods of services of one name, which are invoked the same way. -/
structure Route.Alike (route route' : Route κ σ) : Prop where
  name : route'.service.name = route.service.name
  invoke : route'.service.invoke route'.method = route.service.invoke route.method

namespace Server

/-- Servers whose paths lead to the same. -/
structure Alike (s s' : Server κ σ) : Prop where
  settings : s'.settings = s.settings
  interceptors : s'.interceptors = s.interceptors
  routes : ∀ path, Option.Rel Route.Alike (s.routes.get? path) (s'.routes.get? path)

/-- A server after services are registered and interceptors added. -/
def adding (s : Server κ σ) (services : List (Service κ σ)) (units : List (Interceptor κ σ)) :
    Server κ σ :=
  units.foldl addInterceptor (services.foldl register s)

theorem Alike.refl (s : Server κ σ) : s.Alike s where
  settings := rfl
  interceptors := rfl
  routes path := by
    cases s.routes.get? path with
    | none => exact .none
    | some route => exact .some ⟨rfl, rfl⟩

section

variable {s s' : Server κ σ} (h : s.Alike s')
include h

/-- Only the listed methods of a service get routes. -/
theorem Alike.register {service service' : Service κ σ} (hs : service.Alike service') :
    (s.register service).Alike (s'.register service') where
  settings := h.settings
  interceptors := h.interceptors
  routes path := by
    have hsame : service'.methodAt? s'.settings.pathPrefix path =
        service.methodAt? s.settings.pathPrefix path := by
      rw [Service.methodAt?, Service.methodAt?, hs.name, hs.methods, h.settings]
    have hroutes := h.routes path
    rw [get?_register, get?_register, hsame]
    cases hm : service.methodAt? s.settings.pathPrefix path with
    | some m => exact .some ⟨hs.name, hs.invoke m (List.mem_of_find?_eq_some hm)⟩
    | none =>
      generalize s.routes.get? path = found, s'.routes.get? path = found' at hroutes
      cases hroutes with
      | none => exact .none
      | @some route route' hroute =>
        by_cases hname : route.service.name = service.name
        · simp only [Option.filter, hroute.name, hs.name, hname, bne_self_eq_false,
            Bool.false_eq_true, ↓reduceIte, Option.map_none, Option.none_or]
          exact .none
        · simp only [Option.filter, hroute.name, hs.name, bne_iff_ne, ne_eq, hname,
            not_false_eq_true, ↓reduceIte, Option.map_none, Option.none_or]
          exact .some hroute

theorem Alike.adding (services : List (Service κ σ)) (units : List (Interceptor κ σ)) :
    (s.adding services units).Alike (s'.adding services units) := by
  have hservices : (services.foldl Server.register s).Alike
      (services.foldl Server.register s') := by
    induction services generalizing s s' with
    | nil => exact h
    | cons service services ih => exact ih (h.register ⟨rfl, rfl, fun _ _ => rfl⟩)
  rw [Server.adding, Server.adding, foldl_addInterceptor, foldl_addInterceptor]
  exact ⟨hservices.settings, by rw [hservices.interceptors], hservices.routes⟩

theorem Alike.perform {route route' : Route κ σ} (hroute : route.Alike route')
    (inbound : Inbound) : s'.perform route' inbound = s.perform route inbound := by
  rw [Server.perform, Server.perform, h.settings, h.interceptors, hroute.invoke]

/-- A request fails to resolve on both servers, or resolves to routes that are invoked the same
way. -/
theorem Alike.resolve (request : Request) :
    (∃ fault, s.resolve request = .error fault ∧ s'.resolve request = .error fault) ∨
      ∃ route route' e, s.resolve request = .ok (route, e) ∧
        s'.resolve request = .ok (route', e) ∧ route.Alike route' := by
  have hroutes := h.routes request.uri.path
  unfold Server.resolve
  generalize s.routes.get? request.uri.path = found,
    s'.routes.get? request.uri.path = found' at hroutes
  by_cases hmethod : request.method ≠ "POST"
  · exact .inl ⟨_, if_pos hmethod, if_pos hmethod⟩
  · rw [if_neg hmethod, if_neg hmethod]
    cases hroutes with
    | none => exact .inl ⟨_, rfl, rfl⟩
    | some hroute =>
      cases request.headers.contentType?.bind Encoding.ofContentType? with
      | none => exact .inl ⟨_, rfl, rfl⟩
      | some e => exact .inr ⟨_, _, e, rfl, rfl, hroute⟩

/-- Servers whose paths lead to the same handle every request the same. -/
theorem Alike.handle : s'.handle = s.handle := by
  funext request world
  rcases h.resolve request with ⟨fault, hfault, hfault'⟩ | ⟨route, route', e, hok, hok', hroute⟩
  · simp only [Server.handle, hfault, hfault']
  · have hbegin : s'.begin world = s.begin world := by
      rw [Server.begin, Server.begin, h.settings]
    simp only [Server.handle, hok, hok', h.perform hroute, hbegin]

end

/-- A server whose routes to services of a name are to methods that they list. -/
def Declares (s : Server κ σ) (name : String) : Prop :=
  ∀ path route, s.routes.get? path = some route → route.service.name = name →
    route.method ∈ route.service.methods

/-- A path leads to a listed method of the new service, or to a service of another name as
before. -/
theorem route_register {s : Server κ σ} {service : Service κ σ} {path : String} {route : Route κ σ}
    (h : (s.register service).routes.get? path = some route) :
    (route.service = service ∧ route.method ∈ service.methods) ∨
      s.routes.get? path = some route ∧ route.service.name ≠ service.name := by
  rw [get?_register, Option.or_eq_some_iff] at h
  rcases h with h | ⟨-, h⟩
  · obtain ⟨m, hm, rfl⟩ := Option.map_eq_some_iff.mp h
    exact .inl ⟨rfl, List.mem_of_find?_eq_some hm⟩
  · obtain ⟨hold, hname⟩ := Option.filter_eq_some_iff.mp h
    exact .inr ⟨hold, by simpa using hname⟩

theorem declares_register (s : Server κ σ) (service : Service κ σ) :
    (s.register service).Declares service.name := by
  intro path route hroute hname
  rcases route_register hroute with ⟨hservice, hm⟩ | ⟨-, hne⟩
  · rw [hservice]
    exact hm
  · exact absurd hname hne

theorem Declares.register {s : Server κ σ} {name : String} (h : s.Declares name)
    (service : Service κ σ) : (s.register service).Declares name := by
  intro path route hroute hname
  rcases route_register hroute with ⟨hservice, hm⟩ | ⟨hold, -⟩
  · rw [hservice]
    exact hm
  · exact h path route hold hname

theorem Declares.adding {s : Server κ σ} {name : String} (h : s.Declares name)
    (services : List (Service κ σ)) (units : List (Interceptor κ σ)) :
    (s.adding services units).Declares name := by
  rw [Server.adding, foldl_addInterceptor]
  change (services.foldl Server.register s).Declares name
  induction services generalizing s with
  | nil => exact h
  | cons service services ih => exact ih (h.register service)

theorem route_of_resolve {s : Server κ σ} {request : Request} {route : Route κ σ} {e : Encoding}
    (h : s.resolve request = .ok (route, e)) :
    s.routes.get? request.uri.path = some route := by
  unfold resolve at h
  split at h
  · cases h
  · split at h
    · cases h
    · rename_i hroute
      split at h
      · cases h
      · rw [hroute, (Prod.mk.inj (Except.ok.inj h)).1]

end Server

end UnaryRpc
