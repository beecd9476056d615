import UnaryRpc.Proofs.Weather.Commands

namespace UnaryRpc.Weather

open Http

/-- The path of a command is that of its method, and its body is its input. -/
theorem Command.ofBody?_iff (ε : Type) [ContextKeys ε] [DecidableEq ε] (path : String)
    (e : Encoding) (bytes : List UInt8) (c : Command) :
    ofBody? path e bytes = some c ↔
      path = methodPath "/twirp" serviceName (c.registration ε).method ∧
        Message.decode? e bytes = some (c.input ε) := by
  constructor
  · intro h
    unfold ofBody? at h
    split at h
    · rename_i hpath
      obtain ⟨id, hid, rfl⟩ := Option.map_eq_some_iff.mp h
      exact ⟨hpath, hid⟩
    · split at h
      · rename_i hpath
        obtain ⟨id, hid, rfl⟩ := Option.map_eq_some_iff.mp h
        exact ⟨hpath, hid⟩
      · split at h
        · rename_i hpath
          obtain ⟨station, hstation, rfl⟩ := Option.map_eq_some_iff.mp h
          exact ⟨hpath, hstation⟩
        · cases h
  · rintro ⟨rfl, hdecode⟩
    cases c with
    | find id => exact Option.map_eq_some_iff.mpr ⟨id, hdecode, rfl⟩
    | delete id => exact Option.map_eq_some_iff.mpr ⟨id, hdecode, rfl⟩
    | update station => exact Option.map_eq_some_iff.mpr ⟨station, hdecode, rfl⟩

section

variable (ε : Type) [ContextKeys ε] [DecidableEq ε]

/-- The weather service as it is offered. -/
def offer : Offer (Key ε) Sky where
  name := serviceName
  registrations :=
    [{ method := "FindWeatherStation", function := find },
     { method := "DeleteWeatherStation", function := delete },
     { method := "UpdateWeatherStation", function := update }]

/-- The weather server as it is built. -/
def blueprint : Blueprint (Key ε) Sky := ⟨{}, [offer ε], [nameClient]⟩

theorem server_blueprint : server = (blueprint ε).server := rfl

theorem leadsTo_command (c : Command) :
    (blueprint ε).leadsTo? (methodPath "/twirp" serviceName (c.registration ε).method) =
      some (offer ε, (c.registration ε).method) := by
  cases c with
  | find id => rfl
  | delete id => rfl
  | update station => rfl

theorem last_command (c : Command) :
    (offer ε).last? (c.registration ε).method = some (c.registration ε) := by
  cases c with
  | find id => rfl
  | delete id => rfl
  | update station => rfl

theorem leadsTo_eq (path : String) :
    (blueprint ε).leadsTo? path =
      ((offer ε).service.methodAt? "/twirp" path).map (fun m => (offer ε, m)) := by
  change (((offer ε).service.methodAt? "/twirp" path).map (fun m => (offer ε, m))).or none = _
  rw [Option.or_none]

end

variable {ε : Type} [ContextKeys ε] [DecidableEq ε]

/-- A path that leads anywhere is that of one of the three methods. -/
theorem leadsTo_some {path : String} {o : Offer (Key ε) Sky} {m : String}
    (h : (blueprint ε).leadsTo? path = some (o, m)) :
    o = offer ε ∧ m ∈ ["FindWeatherStation", "DeleteWeatherStation", "UpdateWeatherStation"] ∧
      path = methodPath "/twirp" serviceName m := by
  rw [leadsTo_eq] at h
  obtain ⟨m', hm, he⟩ := Option.map_eq_some_iff.mp h
  obtain ⟨rfl, rfl⟩ := Prod.mk.inj he
  have hpath : methodPath "/twirp" (offer ε).name m' = path := by
    simpa using List.find?_some hm
  exact ⟨rfl, List.mem_of_find?_eq_some hm, hpath.symm⟩

section

variable {request : Request} {e : Encoding} {command : Command} {client : String} {sky : Sky}

/-- A request that arrives calls the method of its command, for its client. -/
theorem Arrives.calls (h : Arrives request e command client) (sky : Sky) :
    ∃ x : Exchange (Key ε) Sky,
      (blueprint ε).Calls request sky (offer ε) (command.registration ε) e x (command.input ε) ∧
        x.world = sky ∧ x.context.get .clientName = client := by
  obtain ⟨e', hencoding, hrest⟩ := Option.bind_eq_some_iff.mp h.spelled
  obtain ⟨bytes, hbytes, hrest⟩ := Option.bind_eq_some_iff.mp hrest
  obtain ⟨command', hcommand, heq⟩ := Option.bind_eq_some_iff.mp hrest
  obtain ⟨rfl, rfl⟩ := Prod.mk.inj (Option.some.inj heq)
  obtain ⟨hpath, hdecode⟩ := (Command.ofBody?_iff ε _ _ _ _).mp hcommand
  obtain ⟨context, hunit, hclient⟩ := nameClient_passes ⟨e', request⟩
    (x := (blueprint ε).server.begin sky) h.client rfl
  refine ⟨_, ⟨⟨⟨⟨h.method, ?_, last_command ε command', ?_⟩, .cons hunit (.nil _)⟩, h.length, ?_⟩,
    ?_⟩, rfl, hclient⟩
  · rw [hpath]
    exact leadsTo_command ε command'
  · exact (request.headers.encoding_iff e').mp hencoding
  · exact Nat.lt_of_le_of_lt h.length (by decide)
  · rw [hbytes]
    exact hdecode

theorem commandOf?_eq {bytes : List UInt8}
    (hencoding : request.headers.get? .contentType = some (Text.bytes e.contentType))
    (hbytes : request.body.bytes? = some bytes)
    (hcommand : Command.ofBody? request.uri.path e bytes = some command) :
    commandOf? request = some (e, command) := by
  have he := (request.headers.encoding_iff e).mpr hencoding
  simp only [commandOf?, he, hbytes, hcommand, Option.bind_eq_bind, Option.bind_some]
  rfl

variable {o : Offer (Key ε) Sky} {r : Registration (Key ε) Sky} {x : Exchange (Key ε) Sky}

/-- The interceptor lets a request pass if it tells its client, and leaves the sky alone. -/
theorem reaches_client (h : (blueprint ε).Reaches request sky o r e x) :
    (∃ client, clientOf? request = some client) ∧ x.world = sky := by
  cases h.units with
  | cons first others =>
    cases others
    cases hclient : clientOf? request with
    | none =>
      rw [nameClient_fails ⟨e, request⟩ hclient] at first
      cases first
    | some client =>
      obtain ⟨context, hrun, _⟩ := nameClient_passes ⟨e, request⟩
        (x := (blueprint ε).server.begin sky) hclient rfl
      rw [hrun] at first
      cases first
      exact ⟨⟨client, rfl⟩, rfl⟩

/-- The interceptor leaves the sky alone when it fails, too. -/
theorem intercepted_world {before after : List (Server.Interceptor (Key ε) Sky)}
    {u : Server.Interceptor (Key ε) Sky} {status : Status} {y : Exchange (Key ε) Sky}
    (hunits : (blueprint ε).units = before ++ u :: after)
    (hpass : Chain.Passes (fun u => u ⟨e, request⟩) before ((blueprint ε).server.begin sky) x)
    (hfail : (u ⟨e, request⟩).outcome x = (.error status, y)) : y.world = sky := by
  cases before with
  | nil =>
    obtain rfl : nameClient = u := (List.cons.inj hunits).1
    cases hpass
    cases hclient : clientOf? request with
    | none =>
      rw [nameClient_fails ⟨e, request⟩ hclient] at hfail
      cases hfail
      rfl
    | some client =>
      obtain ⟨context, hrun, _⟩ := nameClient_passes ⟨e, request⟩
        (x := (blueprint ε).server.begin sky) hclient rfl
      rw [hrun] at hfail
      cases hfail
  | cons v vs =>
    have hnil : [] = vs ++ u :: after := (List.cons.inj hunits).2
    simp at hnil

/-- Only requests that arrive call a method. -/
theorem arrives_of_calls {input : r.Input} (h : (blueprint ε).Calls request sky o r e x input) :
    ∃ command client, Arrives request e command client := by
  obtain ⟨rfl, hm, hpath⟩ := leadsTo_some h.route
  obtain ⟨⟨client, hclient⟩, _⟩ := reaches_client h.toReaches
  obtain ⟨bytes, hbytes, hdecode⟩ := Option.bind_eq_some_iff.mp h.decoded
  have hregistered := h.registered
  have harrives : ∀ c : Command, (c.registration ε).method = r.method →
      Message.decode? e bytes = some (c.input ε) → Arrives request e c client := by
    intro c hc hinput
    refine ⟨h.method, ?_, hclient, h.limit⟩
    apply commandOf?_eq h.contentType hbytes
    apply (Command.ofBody?_iff ε _ _ _ _).mpr
    rw [hc]
    exact ⟨hpath, hinput⟩
  simp only [List.mem_cons, List.not_mem_nil, or_false] at hm
  rcases hm with hm | hm | hm
  · rw [hm] at hregistered
    obtain rfl : (Command.find default).registration ε = r := Option.some.inj hregistered
    exact ⟨.find input, client, harrives (.find input) rfl hdecode⟩
  · rw [hm] at hregistered
    obtain rfl : (Command.delete default).registration ε = r := Option.some.inj hregistered
    exact ⟨.delete input, client, harrives (.delete input) rfl hdecode⟩
  · rw [hm] at hregistered
    obtain rfl : (Command.update default).registration ε = r := Option.some.inj hregistered
    exact ⟨.update input, client, harrives (.update input) rfl hdecode⟩

/-- A command that is allowed is answered. -/
theorem handle_allowed (h : Arrives request e command client)
    (hallowed : command.Allowed sky.stations.get?) :
    ∃ bytes before sky', (server : Server (Key ε) Sky).handle request sky =
        (Server.succeed e bytes before, sky') ∧
      sky'.stations.get? = command.apply sky.stations.get? ∧
      command.Answered sky.stations.get? client e bytes := by
  obtain ⟨x, hcall, hworld, hclient⟩ := h.calls (ε := ε) sky
  rw [← hworld] at hallowed
  obtain ⟨output, t, hrun, hstations, hanswer⟩ := command.run_allowed (ε := ε) hallowed
  obtain ⟨bytes, hwrite, hanswered⟩ := hanswer e
  rw [hworld] at hstations
  rw [hworld, hclient] at hanswered
  have hhandle := Blueprint.handle_of_fares (.answered hcall hrun hwrite)
  rw [← server_blueprint] at hhandle
  exact ⟨bytes, x.response, t.world, hhandle, hstations, hanswered⟩

/-- A command that is not allowed is refused. -/
theorem handle_refused (h : Arrives request e command client)
    (hrefused : ¬command.Allowed sky.stations.get?) :
    ∃ before, (server : Server (Key ε) Sky).handle request sky =
      (Envelope.write command.refusal before, sky) := by
  obtain ⟨x, hcall, hworld, _⟩ := h.calls (ε := ε) sky
  rw [← hworld] at hrefused
  obtain ⟨t, hrun, hkept⟩ := command.run_refused (ε := ε) hrefused
  have hhandle := Blueprint.handle_of_fares (.failed hcall hrun)
  rw [hkept, hworld, ← server_blueprint] at hhandle
  exact ⟨x.response, hhandle⟩

/-- A request that does not arrive fails. -/
theorem handle_stray (h : ∀ e command client, ¬Arrives request e command client) (sky : Sky) :
    ∃ status before, (server : Server (Key ε) Sky).handle request sky =
      (Envelope.write status before, sky) := by
  obtain ⟨response, sky', deeds, hfares⟩ := (blueprint ε).exists_fares request sky
  have hhandle := Blueprint.handle_of_fares hfares
  rw [← server_blueprint] at hhandle
  cases hfares with
  | notPost | noRoute | noEncoding => exact ⟨_, _, hhandle⟩
  | intercepted _ hunits hpass hfail =>
    rw [intercepted_world hunits hpass hfail] at hhandle
    exact ⟨_, _, hhandle⟩
  | overLimit hreach | overBound hreach =>
    rw [(reaches_client hreach).2] at hhandle
    exact ⟨_, _, hhandle⟩
  | undecoded hfit =>
    rw [(reaches_client hfit.toReaches).2] at hhandle
    exact ⟨_, _, hhandle⟩
  | failed hcall | unwritten hcall | answered hcall =>
    obtain ⟨command, client, harrives⟩ := arrives_of_calls hcall
    exact absurd harrives (h _ command client)

end

end UnaryRpc.Weather
