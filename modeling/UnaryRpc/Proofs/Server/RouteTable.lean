import Mathlib.Data.List.Induction
import UnaryRpc.Proofs.Server.Routes
import UnaryRpc.Proofs.Table

namespace UnaryRpc

open Http

variable {κ σ : Type} [ContextKeys κ]

theorem Service.methodAt?_eq_some_iff {service : Service κ σ} {pathPrefix path m : String} :
    service.methodAt? pathPrefix path = some m ↔
      m ∈ service.methods ∧ path = methodPath pathPrefix service.name m := by
  constructor
  · intro h
    have hpath := List.find?_some h
    exact ⟨List.mem_of_find?_eq_some h, (beq_iff_eq.mp hpath).symm⟩
  · rintro ⟨hm, rfl⟩
    exact methodAt?_methodPath hm pathPrefix

namespace Server

/-- The service that took a name last. -/
def current? (services : List (Service κ σ)) (name : String) : Option (Service κ σ) :=
  services.reverse.find? (fun service => service.name == name)

/-- A route that services have under a path: to a method that the last service of its name lists. -/
structure Serves (pathPrefix : String) (services : List (Service κ σ)) (path : String)
    (route : Route κ σ) : Prop where
  current : current? services route.service.name = some route.service
  listed : route.method ∈ route.service.methods
  address : path = methodPath pathPrefix route.service.name route.method

theorem current?_append (services : List (Service κ σ)) (service : Service κ σ) (name : String) :
    current? (services ++ [service]) name =
      if service.name = name then some service else current? services name := by
  rw [current?, List.reverse_append, List.reverse_singleton, List.singleton_append,
    List.find?_cons, current?]
  by_cases hname : service.name = name
  · rw [beq_iff_eq.mpr hname, if_pos hname]
  · rw [beq_false_of_ne hname, if_neg hname]

theorem current?_name {services : List (Service κ σ)} {service : Service κ σ} {name : String}
    (h : current? services name = some service) : service.name = name := by
  simpa using List.find?_some h

theorem current?_mem {services : List (Service κ σ)} {service : Service κ σ} {name : String}
    (h : current? services name = some service) : service ∈ services :=
  List.mem_reverse.mp (List.mem_of_find?_eq_some h)

/-- What one more service makes of the routes that services have. -/
theorem serves_append {pathPrefix path : String} {services : List (Service κ σ)}
    {service : Service κ σ} {route : Route κ σ} :
    Serves pathPrefix (services ++ [service]) path route ↔
      (route.service = service ∧ route.method ∈ service.methods ∧
        path = methodPath pathPrefix service.name route.method) ∨
      (route.service.name ≠ service.name ∧ Serves pathPrefix services path route) := by
  constructor
  · rintro ⟨hcurrent, hlisted, haddress⟩
    rw [current?_append] at hcurrent
    split at hcurrent
    · obtain rfl := Option.some.inj hcurrent
      exact .inl ⟨rfl, hlisted, haddress⟩
    · rename_i hne
      exact .inr ⟨Ne.symm hne, hcurrent, hlisted, haddress⟩
  · rintro (⟨rfl, hlisted, haddress⟩ | ⟨hne, hserves⟩)
    · refine ⟨?_, hlisted, haddress⟩
      rw [current?_append, if_pos rfl]
    · refine ⟨?_, hserves.listed, hserves.address⟩
      rw [current?_append, if_neg (Ne.symm hne)]
      exact hserves.current

/-- A server whose routes stand under their own paths, for services without slashes in their
names. -/
structure Tidy (s : Server κ σ) : Prop where
  address : ∀ path route, s.routes.get? path = some route →
    path = methodPath s.settings.pathPrefix route.service.name route.method
  names : ∀ path route, s.routes.get? path = some route → '/' ∉ route.service.name.toList

section

variable {s : Server κ σ} {service : Service κ σ}

/-- A service that is registered takes its own routes, and those of other services stay. -/
theorem get?_register_iff (hs : s.Tidy) (hname : '/' ∉ service.name.toList) {path : String}
    {route : Route κ σ} :
    (s.register service).routes.get? path = some route ↔
      (route.service = service ∧ route.method ∈ service.methods ∧
        path = methodPath s.settings.pathPrefix service.name route.method) ∨
      (route.service.name ≠ service.name ∧ s.routes.get? path = some route) := by
  rw [get?_register, Option.or_eq_some_iff]
  constructor
  · rintro (hnew | ⟨_, hold⟩)
    · obtain ⟨m, hm, rfl⟩ := Option.map_eq_some_iff.mp hnew
      exact .inl ⟨rfl, Service.methodAt?_eq_some_iff.mp hm⟩
    · obtain ⟨hroute, hkept⟩ := Option.filter_eq_some_iff.mp hold
      exact .inr ⟨by simpa using hkept, hroute⟩
  · rintro (⟨rfl, hlisted, haddress⟩ | ⟨hne, hroute⟩)
    · left
      rw [Service.methodAt?_eq_some_iff.mpr ⟨hlisted, haddress⟩]
      rfl
    · right
      constructor
      · -- a method of the new service with this path would give both services one name
        rw [Option.map_eq_none_iff, Option.eq_none_iff_forall_ne_some]
        intro m hm
        obtain ⟨_, hpath⟩ := Service.methodAt?_eq_some_iff.mp hm
        rw [hs.address path route hroute] at hpath
        exact hne (methodPath_injective (hs.names path route hroute) hname hpath).1
      · exact Option.filter_eq_some_iff.mpr ⟨hroute, by simpa using hne⟩

theorem Tidy.register (hs : s.Tidy) (hname : '/' ∉ service.name.toList) :
    (s.register service).Tidy := by
  constructor
  · intro path route h
    rcases (get?_register_iff hs hname).mp h with ⟨hservice, _, haddress⟩ | ⟨_, hroute⟩
    · rw [haddress, hservice]
      rfl
    · exact hs.address path route hroute
  · intro path route h
    rcases (get?_register_iff hs hname).mp h with ⟨hservice, _, _⟩ | ⟨_, hroute⟩
    · rw [hservice]
      exact hname
    · exact hs.names path route hroute

theorem tidy_foldl (hs : s.Tidy) {services : List (Service κ σ)}
    (hnames : ∀ service ∈ services, '/' ∉ service.name.toList) :
    (services.foldl Server.register s).Tidy := by
  induction services generalizing s with
  | nil => exact hs
  | cons service services ih =>
    have hname := hnames service (by simp)
    exact ih (hs.register hname) (fun other hm => hnames other (List.mem_cons_of_mem _ hm))

/-- Services of different names can be registered in either order. -/
theorem register_comm (hs : s.Tidy) {a b : Service κ σ} (ha : '/' ∉ a.name.toList)
    (hb : '/' ∉ b.name.toList) (hne : a.name ≠ b.name) :
    (s.register a).register b = (s.register b).register a := by
  have hroutes : ((s.register a).register b).routes = ((s.register b).register a).routes := by
    apply Table.ext
    intro path
    apply Option.ext
    intro route
    rw [get?_register_iff (hs.register ha) hb, get?_register_iff (hs.register hb) ha,
      get?_register_iff hs ha, get?_register_iff hs hb]
    constructor
    · rintro (⟨rfl, hnew⟩ | ⟨hb', ⟨rfl, hnew⟩ | ⟨ha', hold⟩⟩)
      · exact .inr ⟨Ne.symm hne, .inl ⟨rfl, hnew⟩⟩
      · exact .inl ⟨rfl, hnew⟩
      · exact .inr ⟨ha', .inr ⟨hb', hold⟩⟩
    · rintro (⟨rfl, hnew⟩ | ⟨ha', ⟨rfl, hnew⟩ | ⟨hb', hold⟩⟩)
      · exact .inr ⟨hne, .inl ⟨rfl, hnew⟩⟩
      · exact .inl ⟨rfl, hnew⟩
      · exact .inr ⟨hb', .inr ⟨ha', hold⟩⟩
  exact congrArg (fun routes => ({ s with routes } : Server κ σ)) hroutes

end

theorem tidy_new (settings : Settings) : ({ settings } : Server κ σ).Tidy where
  address := by
    intro path route h
    cases h
  names := by
    intro path route h
    cases h

section

variable {settings : Settings} {services : List (Service κ σ)} {units : List (Interceptor κ σ)}
  (hnames : ∀ service ∈ services, '/' ∉ service.name.toList)
include hnames

theorem tidy_serving : (serving settings services units).Tidy := by
  rw [serving, foldl_addInterceptor]
  have htidy := tidy_foldl (tidy_new settings) hnames
  exact ⟨htidy.address, htidy.names⟩

/-- The routes of a server are those that its services have. -/
theorem get?_serving_iff {path : String} {route : Route κ σ} :
    (serving settings services units).routes.get? path = some route ↔
      Serves settings.pathPrefix services path route := by
  rw [serving_routes]
  -- the last service decides, so the induction is from the end
  induction services using List.reverseRecOn with
  | nil =>
    constructor
    · intro h
      cases h
    · rintro ⟨hcurrent, _, _⟩
      cases hcurrent
  | append_singleton services service ih =>
    have hearlier : ∀ other ∈ services, '/' ∉ other.name.toList := by
      intro other hm
      exact hnames other (List.mem_append_left _ hm)
    have hname := hnames service (by simp)
    rw [List.foldl_append, List.foldl_cons, List.foldl_nil,
      get?_register_iff (tidy_foldl (tidy_new settings) hearlier) hname,
      foldl_register_settings, ih hearlier, serves_append]

/-- A method that the last service of a name does not list is not served. -/
theorem get?_serving_unlisted {name method : String} {service : Service κ σ}
    (hname : '/' ∉ name.toList) (hcurrent : current? services name = some service)
    (hgone : method ∉ service.methods) :
    (serving settings services units).routes.get?
      (methodPath settings.pathPrefix name method) = none := by
  rw [Option.eq_none_iff_forall_ne_some]
  intro route h
  obtain ⟨hlast, hlisted, haddress⟩ := (get?_serving_iff hnames).mp h
  have hslash := hnames route.service (current?_mem hlast)
  obtain ⟨rfl, rfl⟩ := methodPath_injective hname hslash haddress
  rw [hcurrent] at hlast
  obtain rfl := Option.some.inj hlast
  exact hgone hlisted

end

/-- Neighbours of different names may change places. -/
theorem serving_swap {settings : Settings} {before after : List (Service κ σ)}
    {a b : Service κ σ} {units : List (Interceptor κ σ)}
    (hnames : ∀ service ∈ before ++ a :: b :: after, '/' ∉ service.name.toList)
    (hne : a.name ≠ b.name) :
    serving settings (before ++ a :: b :: after) units =
      serving settings (before ++ b :: a :: after) units := by
  have hbefore : ∀ service ∈ before, '/' ∉ service.name.toList := by
    intro service hm
    exact hnames service (List.mem_append_left _ hm)
  have htidy := tidy_foldl (tidy_new settings) hbefore
  have hswap := register_comm htidy (hnames a (by simp)) (hnames b (by simp)) hne
  rw [serving, serving, List.foldl_append, List.foldl_append]
  simp only [List.foldl_cons, hswap]

/-- After any registrations, a server has a route for each method of the last service of each name,
and no other. -/
theorem serving_refines (settings : Settings) (services : List (Service κ σ))
    (units : List (Interceptor κ σ))
    (hnames : ∀ service ∈ services, '/' ∉ service.name.toList) :
    let server := serving settings services units
    (∀ path route, server.routes.get? path = some route ↔
      current? services route.service.name = some route.service ∧
      route.method ∈ route.service.methods ∧
      path = settings.pathPrefix ++ "/" ++ route.service.name ++ "/" ++ route.method) ∧
    (∀ replaced ∈ services, ∀ service, current? services replaced.name = some service →
      ∀ method ∈ replaced.methods, method ∉ service.methods →
      server.routes.get? (settings.pathPrefix ++ "/" ++ replaced.name ++ "/" ++ method) = none) ∧
    (∀ service, '/' ∉ service.name.toList → ∀ path route, route.service.name ≠ service.name →
      ((server.register service).routes.get? path = some route ↔
        server.routes.get? path = some route)) ∧
    (∀ before a b after, services = before ++ a :: b :: after → a.name ≠ b.name →
      serving settings (before ++ b :: a :: after) units = server) ∧
    (∀ path, path ∈ server.servedPaths ↔ ∃ route, server.routes.get? path = some route) ∧
    server.servedPaths.Nodup ∧ server.servedPaths.Pairwise Text.Before := by
  intro server
  have htidy : server.Tidy := tidy_serving hnames
  refine ⟨?_, ?_, ?_, ?_, server.routes.mem_keys, server.routes.keys_nodup,
    server.routes.keys_ascending⟩
  · intro path route
    constructor
    · intro h
      obtain ⟨hcurrent, hlisted, haddress⟩ := (get?_serving_iff hnames).mp h
      exact ⟨hcurrent, hlisted, haddress⟩
    · rintro ⟨hcurrent, hlisted, haddress⟩
      exact (get?_serving_iff hnames).mpr ⟨hcurrent, hlisted, haddress⟩
  · intro replaced hmem service hcurrent method _ hgone
    exact get?_serving_unlisted hnames (hnames replaced hmem) hcurrent hgone
  · intro service hname path route hne
    rw [get?_register_iff htidy hname]
    constructor
    · rintro (⟨hservice, _⟩ | ⟨_, hroute⟩)
      · rw [hservice] at hne
        exact absurd rfl hne
      · exact hroute
    · intro hroute
      exact .inr ⟨hne, hroute⟩
  · rintro before a b after rfl hne
    exact (serving_swap hnames hne).symm

/-- A service that lists methods and answers none of them. -/
def closed (name : String) (methods : List String) : Service Empty Unit :=
  ⟨name, methods, fun _ _ _ => throw ⟨.unavailable, "closed", .empty⟩⟩

theorem serving_hats :
    let services := [closed "Hats" ["Make", "Mend"], closed "Boots" ["Lace"],
      closed "Hats" ["Make"]]
    let server := serving {} services ([] : List (Interceptor Empty Unit))
    (∀ service ∈ services, '/' ∉ service.name.toList) ∧
    server.routes.get? "/twirp/Hats/Make" = some ⟨closed "Hats" ["Make"], "Make"⟩ ∧
    server.routes.get? "/twirp/Hats/Mend" = none ∧
    "/twirp/Boots/Lace" ∈ server.servedPaths ∧ server.servedPaths.Nodup := by
  intro services server
  have hnames : ∀ service ∈ services, '/' ∉ service.name.toList := by decide
  obtain ⟨hroutes, hstale, _, _, hkeys, hnodup, _⟩ := serving_refines {} services [] hnames
  have hboots := (hroutes "/twirp/Boots/Lace" ⟨closed "Boots" ["Lace"], "Lace"⟩).mpr
    ⟨rfl, by decide, by decide⟩
  refine ⟨hnames, (hroutes _ _).mpr ⟨rfl, by decide, by decide⟩, ?_, (hkeys _).mpr ⟨_, hboots⟩,
    hnodup⟩
  exact hstale (closed "Hats" ["Make", "Mend"]) (by simp [services]) (closed "Hats" ["Make"]) rfl
    "Mend" (by decide) (by decide)

end Server

end UnaryRpc
