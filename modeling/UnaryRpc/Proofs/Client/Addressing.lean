import UnaryRpc.Proofs.Client.Link
import UnaryRpc.Proofs.Server.RouteTable

namespace UnaryRpc

open Http

namespace Server

variable {κ σ : Type} [ContextKeys κ] {s : Server κ σ} {request : Request}

theorem resolve_unknown (hmethod : request.method = "POST")
    (hroute : s.routes.get? request.uri.path = none) : s.resolve request = .error .unknownRoute := by
  rw [resolve, if_neg (not_not.mpr hmethod), hroute]

end Server

namespace Client

theorem pathText_trimSlashes {s : String} (h : PathText s) : PathText (trimSlashes s) := by
  intro c hc
  exact h c ((trimSlashes_part s).subset hc)

section

variable {κ σ : Type} [ContextKeys κ] {site : Site} {pathPrefix name method : String}
  {transport : Transport σ} {client : Settings} {j k : Nat} {uri : Uri}

/-- What a gateway posts to: the address of a method at its site, under its prefix without the
slashes at the end. -/
theorem url_new (site : Site) (transport : Transport σ) (client : Settings)
    (pathPrefix name method : String) (j k : Nat) :
    (Gateway.new (κ := κ) (site.baseUrl.pushn '/' j) transport
      (client.withPathPrefix (pathPrefix.pushn '/' k))).url name method =
      site.baseUrl ++ methodPath (trimSlashes pathPrefix) name method := by
  rw [Gateway.url, Gateway.new, Settings.withPathPrefix, trimSlashes_pushn, trimSlashes_pushn,
    site.trimSlashes_baseUrl]

/-- The path of the address of a method. -/
theorem path_url (hstart : pathPrefix = "" ∨ pathPrefix.toList.head? = some '/')
    (hplain : PathText pathPrefix) (hname : PathText name) (hmethod : PathText method)
    (huri : Uri.parse ((Gateway.new (κ := κ) (site.baseUrl.pushn '/' j) transport
      (client.withPathPrefix (pathPrefix.pushn '/' k))).url name method) = .ok uri) :
    uri.path = methodPath (trimSlashes pathPrefix) name method := by
  rw [url_new] at huri
  exact site.path_uri (methodPath_start (trimSlashes_start hstart) name method)
    (pathText_methodPath (pathText_trimSlashes hplain) hname hmethod) huri

end

/-- A request to the address of a method, in a known encoding, is resolved to that method of the last
service of the name, whatever slashes were trimmed on the way; without one it is a bad route. -/
theorem resolve_url {κ ι σ τ : Type} [ContextKeys κ] [ContextKeys ι] (site : Site)
    (pathPrefix : String) (i j k : Nat) (server : Server.Settings) (client : Settings)
    (services : List (Service κ σ)) (units : List (Server.Interceptor κ σ))
    (transport : Transport τ) (name method : String) (request : Request) (e : Encoding)
    (hstart : pathPrefix = "" ∨ pathPrefix.toList.head? = some '/')
    (hplain : PathText pathPrefix) (hname : PathText name) (hmethod : PathText method)
    (hslash : '/' ∉ name.toList) (hservices : ∀ service ∈ services, '/' ∉ service.name.toList)
    (huri : Uri.parse ((Gateway.new (κ := ι) (site.baseUrl.pushn '/' j) transport
      (client.withPathPrefix (pathPrefix.pushn '/' k))).url name method) = .ok request.uri)
    (hpost : request.method = "POST")
    (htype : request.headers.get? .contentType = some (Text.bytes e.contentType)) :
    let s := Server.serving (server.withPathPrefix (pathPrefix.pushn '/' i)) services units
    (∀ service, Server.current? services name = some service → method ∈ service.methods →
      s.resolve request = .ok (⟨service, method⟩, e)) ∧
    ((∀ service, Server.current? services name = some service → method ∉ service.methods) →
      (s.resolve request).mapError Fault.status = .error (.badRoute "Method not found")) := by
  intro s
  have hpath := path_url hstart hplain hname hmethod huri
  have htrim : (server.withPathPrefix (pathPrefix.pushn '/' i)).pathPrefix =
      trimSlashes pathPrefix := trimSlashes_pushn pathPrefix i
  have hroute : ∀ route, s.routes.get? request.uri.path = some route ↔
      Server.Serves (trimSlashes pathPrefix) services request.uri.path route := by
    intro route
    rw [← htrim]
    exact Server.get?_serving_iff hservices
  constructor
  · intro service hcurrent hlisted
    have hservice := Server.current?_name hcurrent
    apply Server.resolve_ok hpost _ htype
    rw [hroute]
    refine ⟨?_, hlisted, ?_⟩
    · rw [hservice]
      exact hcurrent
    · rw [hservice]
      exact hpath
  · intro hnone
    have hunknown : s.routes.get? request.uri.path = none := by
      rw [Option.eq_none_iff_forall_ne_some]
      intro route h
      obtain ⟨hcurrent, hlisted, haddress⟩ := (hroute route).mp h
      have hclean := hservices route.service (Server.current?_mem hcurrent)
      rw [hpath] at haddress
      obtain ⟨rfl, rfl⟩ := methodPath_injective hslash hclean haddress
      exact hnone route.service hcurrent hlisted
    rw [Server.resolve_unknown hpost hunknown]
    rfl

theorem resolve_hats :
    let hats := Server.closed "Hats" ["Make"]
    let s := Server.serving (({} : Server.Settings).withPathPrefix "/shop//") [hats] []
    let request (target : String) :=
      Link.request ⟨some "http", "localhost:8080", target, none⟩ .empty .json []
    s.resolve (request "/shop/Hats/Make") = .ok (⟨hats, "Make"⟩, .json) ∧
    (s.resolve (request "/shop/Hats/Mend")).mapError Fault.status =
      .error (.badRoute "Method not found") := by
  intro hats s request
  have resolved := resolve_url (ι := Empty) Link.echoLink.site "/shop" 2 1 3 {} {} [hats] []
    (.loopback s) "Hats"
  constructor
  · apply (resolved "Make" (request "/shop/Hats/Make") .json (.inr (by decide)) (by decide)
      (by decide) (by decide) (by decide) (by decide) (by decide) rfl rfl).1 hats rfl
    decide
  · apply (resolved "Mend" (request "/shop/Hats/Mend") .json (.inr (by decide)) (by decide)
      (by decide) (by decide) (by decide) (by decide) (by decide) rfl rfl).2
    intro service hservice
    obtain rfl := Option.some.inj hservice
    decide

end Client

end UnaryRpc
