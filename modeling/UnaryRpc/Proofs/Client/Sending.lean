import UnaryRpc.Proofs.Client.Call

namespace UnaryRpc.Client

open Http

variable {κ σ : Type} [ContextKeys κ]

/-- Something that ran for a call: the interceptor with a number, or the posting of a request. -/
inductive Act where
  | unit (number : Nat)
  | post (request : Request)

/-- The first interceptors, each once and in order. -/
def actsOf (n : Nat) : List Act :=
  (List.range n).map .unit

/-- The request of a call, with the headers that the interceptors left. -/
def Call.request (call : Call κ) (headers : Headers) (uri : Uri) : Request where
  method := "POST"
  uri
  headers := headers.set .contentType (Text.bytes call.encoding.contentType)
  body := call.body

/-- A request that posts a call: its body, as it is, to an address, under the content type of the
call's encoding and no other. All other headers are as they were left. -/
structure Call.PostedAs (call : Call κ) (headers : Headers) (uri : Uri) (request : Request) :
    Prop where
  method : request.method = "POST"
  uri : request.uri = uri
  body : request.body = call.body
  contentType :
    request.headers.values .contentType = [Text.bytes call.encoding.contentType]
  values : ∀ name, name ≠ .contentType → request.headers.values name = headers.values name
  order : request.headers.pairs.filter (fun p => p.1 != .contentType) =
    headers.pairs.filter (fun p => p.1 != .contentType)

theorem Call.request_posted (call : Call κ) (headers : Headers) (uri : Uri) :
    call.PostedAs headers uri (call.request headers uri) where
  method := rfl
  uri := rfl
  body := rfl
  contentType := Headers.values_set_self headers .contentType _
  values _ hne := Headers.values_set_other headers hne _
  order := Headers.others_set headers .contentType _

namespace FixedHeader

/-- A fixed header made from texts has their bytes, under the name in lower case. -/
theorem ofText_ok {name value : String} {h : FixedHeader} (hof : ofText name value = .ok h) :
    h = ⟨⟨name.map Char.toLower⟩, Text.bytes value⟩ := by
  unfold ofText HeaderName.ofText? HeaderValue.ofBytes? at hof
  split at hof
  · cases hof
  · rename_i hname
    split at hof
    · cases hof
    · rename_i hvalue
      obtain rfl := Option.some.inj (Option.ite_none_right_eq_some.mp hname).2
      obtain rfl := Option.some.inj (Option.ite_none_right_eq_some.mp hvalue).2
      exact (Except.ok.inj hof).symm

/-- Fixed headers add their values under each name, in order. -/
theorem values_foldl (fixed : List FixedHeader) (headers : Headers) (name : HeaderName) :
    (fixed.foldl (fun hs h => hs.append h.name h.value) headers).values name =
      headers.values name ++ (fixed.filter (fun h => h.name == name)).map FixedHeader.value := by
  induction fixed generalizing headers with
  | nil => rw [List.foldl_nil, List.filter_nil, List.map_nil, List.append_nil]
  | cons h fixed ih =>
    rw [List.foldl_cons, ih]
    by_cases hname : h.name = name
    · subst hname
      simp
    · rw [Headers.values_append_other _ (Ne.symm hname), List.filter_cons_of_neg (by simpa)]

/-- Under a name in any case, fixed headers made from texts have the values of the texts with that
name, in order. -/
theorem values_ofTexts {texts : List (String × String)} {fixed : List FixedHeader}
    (h : List.Forall₂ (fun t h => ofText t.1 t.2 = .ok h) texts fixed) (name : String) :
    (fixed.filter (fun h => h.name == ⟨name.map Char.toLower⟩)).map FixedHeader.value =
      (texts.filter (fun t => t.1.map Char.toLower == name.map Char.toLower)).map
        (fun t => Text.bytes t.2) := by
  induction h with
  | nil => rfl
  | @cons t h texts fixed hof _ ih =>
    obtain rfl := ofText_ok hof
    by_cases hname : t.1.map Char.toLower = name.map Char.toLower
    · simp [hname, ih]
    · simp [hname, ih]

end FixedHeader

namespace Gateway

/-- A call that all interceptors let pass and that has an address. They leave headers behind. -/
structure Builds (g : Gateway κ σ) (call : Call κ) (caller : Caller σ) (o : Outgoing σ)
    (uri : Uri) : Prop where
  units : Chain.Passes (fun u => u call) g.interceptors.units ⟨caller, .empty⟩ o
  address : Uri.parse (g.url call.service call.method) = .ok uri

/-- A call whose request gets an answer, which leaves a world behind. -/
structure Posts (g : Gateway κ σ) (call : Call κ) (caller : Caller σ) (o : Outgoing σ) (uri : Uri)
    (answer : Except DeliveryFault Response) (world : σ) : Prop extends
    g.Builds call caller o uri where
  answer : (g.transport (call.request o.headers uri)).run o.world = (answer, world)

/-- What a call comes to, the caller after it, and what ran: one case for each way to fail and one
for success. -/
inductive Fares (g : Gateway κ σ) (call : Call κ) (caller : Caller σ) :
    Except Status Body → Caller σ → List Act → Prop
  | intercepted {before u after o status stopped}
      (hunits : g.interceptors.units = before ++ u :: after)
      (hpass : Chain.Passes (fun u => u call) before ⟨caller, .empty⟩ o)
      (hfail : (u call).outcome o = (.error status, stopped)) :
    Fares g call caller (.error status) stopped.toCaller (actsOf (before.length + 1))
  | unaddressed {o fault}
      (hpass : Chain.Passes (fun u => u call) g.interceptors.units ⟨caller, .empty⟩ o)
      (huri : Uri.parse (g.url call.service call.method) = .error fault) :
    Fares g call caller (.error ⟨.unavailable, "Bad request: " ++ fault.message, .empty⟩)
      o.toCaller (actsOf g.interceptors.units.length)
  | undelivered {o uri fault world} (hpost : g.Posts call caller o uri (.error fault) world) :
    Fares g call caller (.error ⟨.unavailable, fault.message, .empty⟩) ⟨o.store, world⟩
      (actsOf g.interceptors.units.length ++ [.post (call.request o.headers uri)])
  | answered {o uri response world} (hpost : g.Posts call caller o uri (.ok response) world)
      (hstatus : 200 ≤ response.status ∧ response.status ≤ 299) :
    Fares g call caller (.ok response.body) ⟨o.store, world⟩
      (actsOf g.interceptors.units.length ++ [.post (call.request o.headers uri)])
  | refused {o uri response world} (hpost : g.Posts call caller o uri (.ok response) world)
      (hstatus : ¬(200 ≤ response.status ∧ response.status ≤ 299)) :
    Fares g call caller (.error (Envelope.decode response)) ⟨o.store, world⟩
      (actsOf g.interceptors.units.length ++ [.post (call.request o.headers uri)])

section

variable {g : Gateway κ σ} {call : Call κ} {caller : Caller σ} {o : Outgoing σ} {uri : Uri}

theorem isSuccess_iff (r : Response) :
    r.isSuccess = true ↔ 200 ≤ r.status ∧ r.status ≤ 299 := by
  rw [Response.isSuccess, Bool.and_eq_true, decide_eq_true_iff, decide_eq_true_iff]
  omega

theorem Builds.build (h : g.Builds call caller o uri) :
    (g.build call).outcome caller = (.ok (call.request o.headers uri), o.toCaller) :=
  build_passed h.units h.address

/-- A gateway sends a call as the cases say. -/
theorem send_of_fares {outcome : Except Status Body} {after : Caller σ} {acts : List Act}
    (h : g.Fares call caller outcome after acts) :
    (g.send call).outcome caller = (outcome, after) := by
  cases h with
  | intercepted hunits hpass hfail => exact send_intercepted hunits hpass hfail
  | unaddressed hpass huri => exact send_unaddressed hpass huri
  | undelivered hpost => exact send_undelivered hpost.build hpost.answer
  | answered hpost hstatus =>
    exact send_succeeds hpost.build hpost.answer ((isSuccess_iff _).mpr hstatus)
  | refused hpost hstatus =>
    refine send_fails hpost.build hpost.answer ?_
    rw [← Bool.not_eq_true, isSuccess_iff]
    exact hstatus

/-- Every call comes to something. -/
theorem exists_fares (g : Gateway κ σ) (call : Call κ) (caller : Caller σ) :
    ∃ outcome after acts, g.Fares call caller outcome after acts := by
  rcases Chain.passes_or_fails (fun u => u call) g.interceptors.units ⟨caller, .empty⟩ with
    ⟨o, hpass⟩ | ⟨before, u, after, o, status, stopped, hunits, hpass, hfail⟩
  · cases huri : Uri.parse (g.url call.service call.method) with
    | error fault => exact ⟨_, _, _, .unaddressed hpass huri⟩
    | ok uri =>
      rcases hanswer : (g.transport (call.request o.headers uri)).run o.world with
        ⟨fault | response, world⟩
      · exact ⟨_, _, _, .undelivered ⟨⟨hpass, huri⟩, hanswer⟩⟩
      · by_cases hstatus : 200 ≤ response.status ∧ response.status ≤ 299
        · exact ⟨_, _, _, .answered ⟨⟨hpass, huri⟩, hanswer⟩ hstatus⟩
        · exact ⟨_, _, _, .refused ⟨⟨hpass, huri⟩, hanswer⟩ hstatus⟩
  · exact ⟨_, _, _, .intercepted hunits hpass hfail⟩

end

end Gateway

/-- A caller with a diary beside the world. -/
def Caller.noting (c : Caller σ) (diary : List Act) : Caller (σ × List Act) :=
  ⟨c.store, (c.world, diary)⟩

def Outgoing.noting (o : Outgoing σ) (diary : List Act) : Outgoing (σ × List Act) :=
  ⟨o.toCaller.noting diary, o.headers⟩

/-- An interceptor that also notes its number each time it runs. -/
def noteUnit (number : Nat) (u : Interceptor κ σ) : Interceptor κ (σ × List Act) := fun call o =>
  let (result, o') := (u call).outcome ⟨⟨o.store, o.world.1⟩, o.headers⟩
  (result, o'.noting (o.world.2 ++ [.unit number]))

/-- A transport that also notes each request that it is given. -/
def Transport.noting (transport : Transport σ) : Transport (σ × List Act) := fun request w =>
  let (answer, world) := (transport request).run w.1
  (answer, (world, w.2 ++ [.post request]))

/-- A gateway that keeps a diary. -/
def Gateway.noting (g : Gateway κ σ) : Gateway κ (σ × List Act) where
  baseUrl := g.baseUrl
  settings := g.settings
  transport := g.transport.noting
  interceptors := ⟨g.interceptors.units.zipIdx.map (fun p => noteUnit p.2 p.1)⟩

theorem noteUnit_outcome {u : Interceptor κ σ} {call : Call κ} {o o' : Outgoing σ}
    {result : Except Status Unit} (h : (u call).outcome o = (result, o')) (number : Nat)
    (diary : List Act) :
    (noteUnit number u call).outcome (o.noting diary) =
      (result, o'.noting (diary ++ [.unit number])) := by
  change (((u call).outcome o).1, ((u call).outcome o).2.noting _) = _
  rw [h]
  rfl

theorem Transport.noting_answer {transport : Transport σ} {request : Request}
    {answer : Except DeliveryFault Response} {before world : σ}
    (h : (transport request).run before = (answer, world)) (diary : List Act) :
    (transport.noting request).run (before, diary) = (answer, (world, diary ++ [.post request])) := by
  change (((transport request).run before).1, (((transport request).run before).2, _)) = _
  rw [h]

namespace Gateway

variable {g : Gateway κ σ} {call : Call κ} {caller : Caller σ} {o : Outgoing σ} {uri : Uri}

theorem passes_noting {us : List (Interceptor κ σ)} {o' : Outgoing σ}
    (h : Chain.Passes (fun u => u call) us o o') :
    Chain.Passes (fun u => u call) (us.zipIdx.map (fun p => noteUnit p.2 p.1)) (o.noting [])
      (o'.noting (actsOf us.length)) :=
  Chain.Passes.noting noteUnit_outcome h

theorem Builds.noting (h : g.Builds call caller o uri) :
    g.noting.Builds call (caller.noting []) (o.noting (actsOf g.interceptors.units.length)) uri :=
  ⟨passes_noting h.units, h.address⟩

theorem Posts.noting {answer : Except DeliveryFault Response} {world : σ}
    (h : g.Posts call caller o uri answer world) :
    g.noting.Posts call (caller.noting []) (o.noting (actsOf g.interceptors.units.length)) uri
      answer (world, actsOf g.interceptors.units.length ++ [.post (call.request o.headers uri)]) :=
  ⟨h.toBuilds.noting, Transport.noting_answer h.answer _⟩

/-- The gateway that keeps a diary fares as before, and its diary has the acts. -/
theorem Fares.noting {outcome : Except Status Body} {after : Caller σ} {acts : List Act}
    (h : g.Fares call caller outcome after acts) :
    g.noting.Fares call (caller.noting []) outcome (after.noting acts) acts := by
  have hsize : g.noting.interceptors.units.length = g.interceptors.units.length := by
    rw [Gateway.noting, List.length_map, List.length_zipIdx]
  cases h with
  | @intercepted before u after o status stopped hunits hpass hfail =>
    have hfailed := noteUnit_outcome hfail before.length (actsOf before.length)
    have hacts : actsOf (before.length + 1) = actsOf before.length ++ [.unit before.length] :=
      Chain.map_range_succ Act.unit before.length
    rw [← hacts] at hfailed
    have hunits' : g.noting.interceptors.units =
        (before.zipIdx.map fun p => noteUnit p.2 p.1) ++ noteUnit before.length u ::
          (after.zipIdx (before.length + 1)).map fun p => noteUnit p.2 p.1 := by
      rw [Gateway.noting, hunits]
      exact Chain.zipIdx_around noteUnit before after u
    have hfare := Fares.intercepted hunits' (passes_noting hpass) hfailed
    rw [List.length_map, List.length_zipIdx] at hfare
    exact hfare
  | unaddressed hpass huri =>
    have hfare := Fares.unaddressed (g := g.noting) (passes_noting hpass) huri
    rw [hsize] at hfare
    exact hfare
  | undelivered hpost =>
    have hfare := Fares.undelivered hpost.noting
    rw [hsize] at hfare
    exact hfare
  | answered hpost hstatus =>
    have hfare := Fares.answered hpost.noting hstatus
    rw [hsize] at hfare
    exact hfare
  | refused hpost hstatus =>
    have hfare := Fares.refused hpost.noting hstatus
    rw [hsize] at hfare
    exact hfare

/-- Whatever the interceptors and the transport do, a call comes to what the first of its stages to
fail decides, and the diary of the gateway says what ran until then. -/
theorem send_fares (g : Gateway κ σ) (call : Call κ) (caller : Caller σ) :
    (∃ outcome after acts, g.Fares call caller outcome after acts) ∧
    (∀ outcome after acts, g.Fares call caller outcome after acts →
      (g.send call).outcome caller = (outcome, after) ∧
      (g.noting.send call).outcome (caller.noting []) = (outcome, after.noting acts)) ∧
    (∀ headers uri, call.PostedAs headers uri (call.request headers uri)) ∧
    ∀ (baseUrl : String) (transport : Transport σ) (settings : Settings)
      (fixed : List FixedHeader),
      let plain : Gateway κ σ := (fixed.map FixedHeader.interceptor).foldl addInterceptor
        (.new baseUrl transport settings)
      ∃ headers, Chain.Passes (fun u => u call) plain.interceptors.units ⟨caller, .empty⟩
          ⟨caller, headers⟩ ∧
        (∀ name, headers.values name =
          (fixed.filter (fun h => h.name == name)).map FixedHeader.value) ∧
        ∀ texts : List (String × String),
          List.Forall₂ (fun t h => FixedHeader.ofText t.1 t.2 = .ok h) texts fixed →
          ∀ name : String, headers.values ⟨name.map Char.toLower⟩ =
            (texts.filter (fun t => t.1.map Char.toLower == name.map Char.toLower)).map
              (fun t => Text.bytes t.2) := by
  refine ⟨g.exists_fares call caller, ?_, call.request_posted, ?_⟩
  · intro outcome after acts h
    exact ⟨send_of_fares h, send_of_fares h.noting⟩
  · intro baseUrl transport settings fixed plain
    have hunits : plain.interceptors.units = fixed.map FixedHeader.interceptor := by
      unfold plain
      rw [foldl_addInterceptor]
      rfl
    have hvalues := FixedHeader.values_foldl fixed .empty
    refine ⟨_, ?_, hvalues, ?_⟩
    · rw [hunits]
      exact FixedHeader.passes fixed call ⟨caller, .empty⟩
    · intro texts htexts name
      rw [hvalues]
      exact FixedHeader.values_ofTexts htexts name

end Gateway

end UnaryRpc.Client
