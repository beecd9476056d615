import UnaryRpc.Server

namespace UnaryRpc

namespace Http

theorem methodPath_cancel {pathPrefix service m m' : String}
    (h : methodPath pathPrefix service m = methodPath pathPrefix service m') : m = m' := by
  simpa [methodPath, ← String.toList_inj] using h

theorem split_at_slash {as as' bs bs' : List Char} (has : '/' ∉ as) (has' : '/' ∉ as')
    (h : as ++ '/' :: bs = as' ++ '/' :: bs') : as = as' ∧ bs = bs' := by
  induction as generalizing as' with
  | nil =>
    cases as' with
    | nil => exact ⟨rfl, (List.cons.inj h).2⟩
    | cons c cs =>
      have hc : '/' = c := (List.cons.inj h).1
      subst hc
      simp at has'
  | cons c cs ih =>
    cases as' with
    | nil =>
      have hc : c = '/' := (List.cons.inj h).1
      subst hc
      simp at has
    | cons c' cs' =>
      obtain ⟨hc, hrest⟩ := List.cons.inj h
      obtain ⟨hcs, hbs⟩ := ih (fun hm => has (List.mem_cons_of_mem _ hm))
        (fun hm => has' (List.mem_cons_of_mem _ hm)) hrest
      exact ⟨by rw [hc, hcs], hbs⟩

/-- Names of services without slashes can be read off a path. -/
theorem methodPath_injective {pathPrefix s s' m m' : String} (hs : '/' ∉ s.toList)
    (hs' : '/' ∉ s'.toList) (h : methodPath pathPrefix s m = methodPath pathPrefix s' m') :
    s = s' ∧ m = m' := by
  have hlist : s.toList ++ '/' :: m.toList = s'.toList ++ '/' :: m'.toList := by
    simpa [methodPath, ← String.toList_inj] using h
  obtain ⟨hname, hmethod⟩ := split_at_slash hs hs' hlist
  exact ⟨String.toList_inj.mp hname, String.toList_inj.mp hmethod⟩

end Http

open Http

variable {κ σ : Type} [ContextKeys κ]

/-- The method of a service that has a path. -/
def Service.methodAt? (service : Service κ σ) (pathPrefix path : String) : Option String :=
  service.methods.find? (fun m => methodPath pathPrefix service.name m == path)

theorem Service.methodAt?_methodPath {service : Service κ σ} {m : String}
    (hm : m ∈ service.methods) (pathPrefix : String) :
    service.methodAt? pathPrefix (methodPath pathPrefix service.name m) = some m := by
  cases hf : service.methodAt? pathPrefix (methodPath pathPrefix service.name m) with
  | none => simpa using List.find?_eq_none.mp hf m hm
  | some m' =>
    have hpath := List.find?_some hf
    have hsame : m' = m := methodPath_cancel (by simpa using hpath)
    rw [hsame]

namespace Server

theorem get?_addRoutes (pathPrefix : String) (service : Service κ σ) (routes : Table (Route κ σ))
    (path : String) :
    (addRoutes pathPrefix service routes).get? path =
      ((service.methodAt? pathPrefix path).map (fun m => ⟨service, m⟩)).or (routes.get? path) := by
  unfold addRoutes Service.methodAt?
  induction service.methods generalizing routes with
  | nil => rfl
  | cons m ms ih =>
    rw [List.foldl_cons, ih, List.find?_cons, Table.get?_insert]
    by_cases hm : methodPath pathPrefix service.name m = path
    · -- a later method of this path is the same method
      subst hm
      cases hf : ms.find? (fun m' => methodPath pathPrefix service.name m' ==
          methodPath pathPrefix service.name m) with
      | none => simp
      | some m' =>
        have hpath := List.find?_some hf
        have hsame : m' = m := methodPath_cancel (by simpa using hpath)
        simp [hsame]
    · have hother : (methodPath pathPrefix service.name m == path) = false := by simpa using hm
      rw [hother, if_neg (Ne.symm hm)]

/-- A path leads to a method of the new service or, if no such method has it, where it led before
unless a service of that name is replaced. -/
theorem get?_register (s : Server κ σ) (service : Service κ σ) (path : String) :
    (s.register service).routes.get? path =
      ((service.methodAt? s.settings.pathPrefix path).map (fun m => ⟨service, m⟩)).or
        ((s.routes.get? path).filter (fun route => route.service.name != service.name)) := by
  rw [register, get?_addRoutes, Table.get?_filter]

/-- A server with services registered and interceptors added one after another. -/
def serving (settings : Settings) (services : List (Service κ σ))
    (units : List (Interceptor κ σ)) : Server κ σ :=
  units.foldl addInterceptor (services.foldl register { settings })

theorem foldl_addInterceptor (units : List (Interceptor κ σ)) (s : Server κ σ) :
    units.foldl addInterceptor s =
      { s with interceptors := ⟨s.interceptors.units ++ units⟩ } := by
  induction units generalizing s with
  | nil => simp
  | cons u us ih =>
    rw [List.foldl_cons, ih]
    simp [addInterceptor]

theorem foldl_register_settings (services : List (Service κ σ)) (s : Server κ σ) :
    (services.foldl register s).settings = s.settings := by
  induction services generalizing s with
  | nil => rfl
  | cons service services ih => rw [List.foldl_cons, ih, register]

theorem foldl_register_interceptors (services : List (Service κ σ)) (s : Server κ σ) :
    (services.foldl register s).interceptors = s.interceptors := by
  induction services generalizing s with
  | nil => rfl
  | cons service services ih => rw [List.foldl_cons, ih, register]

section

variable (settings : Settings) (services : List (Service κ σ)) (units : List (Interceptor κ σ))

@[simp] theorem serving_settings : (serving settings services units).settings = settings := by
  rw [serving, foldl_addInterceptor, foldl_register_settings]

@[simp] theorem serving_units : (serving settings services units).interceptors.units = units := by
  rw [serving, foldl_addInterceptor, foldl_register_interceptors]
  rfl

theorem serving_routes :
    (serving settings services units).routes = (services.foldl register { settings }).routes := by
  rw [serving, foldl_addInterceptor]

end

/-- Services of other names leave a path where it leads. -/
theorem get?_register_others {services : List (Service κ σ)} {s : Server κ σ} {name method : String}
    {route : Route κ σ} (hname : '/' ∉ name.toList) (hroute : route.service.name = name)
    (hothers : ∀ service ∈ services, service.name ≠ name ∧ '/' ∉ service.name.toList)
    (h : s.routes.get? (methodPath s.settings.pathPrefix name method) = some route) :
    (services.foldl register s).routes.get? (methodPath s.settings.pathPrefix name method) =
      some route := by
  induction services generalizing s with
  | nil => exact h
  | cons service services ih =>
    obtain ⟨hne, hslash⟩ := hothers service (by simp)
    have hnone : service.methodAt? s.settings.pathPrefix
        (methodPath s.settings.pathPrefix name method) = none := by
      apply List.find?_eq_none.mpr
      intro m _
      simp only [beq_iff_eq]
      intro hpath
      exact hne (methodPath_injective hslash hname hpath).1
    have hstep : (s.register service).routes.get?
        (methodPath s.settings.pathPrefix name method) = some route := by
      have hkept : route.service.name ≠ service.name := by
        rw [hroute]
        exact Ne.symm hne
      rw [get?_register, hnone, h]
      simp [hkept]
    exact ih (fun service' hm => hothers service' (List.mem_cons_of_mem _ hm)) hstep

/-- The last service of a name serves its methods. -/
theorem serving_last {settings : Settings} {units : List (Interceptor κ σ)}
    {before after : List (Service κ σ)} {service : Service κ σ} {method : String}
    (hname : '/' ∉ service.name.toList) (hmethod : method ∈ service.methods)
    (hafter : ∀ other ∈ after, other.name ≠ service.name ∧ '/' ∉ other.name.toList) :
    (serving settings (before ++ service :: after) units).routes.get?
        (methodPath settings.pathPrefix service.name method) = some ⟨service, method⟩ := by
  have hsettings := foldl_register_settings before ({ settings } : Server κ σ)
  rw [serving_routes, List.foldl_append, List.foldl_cons]
  have hnew : ((before.foldl register { settings }).register service).routes.get?
      (methodPath settings.pathPrefix service.name method) = some ⟨service, method⟩ := by
    rw [get?_register, hsettings, Service.methodAt?_methodPath hmethod]
    rfl
  have hkept : (before.foldl register { settings } |>.register service).settings.pathPrefix =
      settings.pathPrefix := by
    rw [register, hsettings]
  rw [← hkept] at hnew ⊢
  exact get?_register_others hname rfl hafter hnew

end Server

end UnaryRpc
