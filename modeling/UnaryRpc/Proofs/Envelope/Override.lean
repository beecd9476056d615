import UnaryRpc.Proofs.Envelope.Reading

namespace UnaryRpc

namespace Envelope

open Http Json

/-- A readable envelope whose metadata binds the reserved key. -/
structure Overrides (r : Response) (root : Tree) (code message text : String) : Prop extends
    Declares r root code message where
  texts : ∀ metadata key value, root.HasMember "meta" metadata → metadata.HasMember key value →
    ∃ other, value.IsText other
  override : ∃ metadata, root.HasMember "meta" metadata ∧ metadata.HasText "twirp_status" text

section

variable {r : Response} {text : String}

theorem Overrides.decode_eq {root : Tree} {code message : String}
    (h : Overrides r root code message text) :
    (decode r).code = WireCode.codeOf code ∧ (decode r).override? = some text := by
  obtain ⟨bindings, hdecode, hbindings⟩ := h.toDeclares.decode_texts h.texts
  rw [hdecode]
  exact ⟨rfl, (hbindings "twirp_status" text).mpr h.override⟩

/-- Only an envelope that binds the reserved key is read with an override. What is wrong with any
other is told without metadata. -/
theorem override?_decode_iff :
    (decode r).override? = some text ↔ ∃ root code message, Overrides r root code message text := by
  constructor
  · intro h
    have hreads := reads_decode r
    generalize hs : decode r = s at hreads
    cases hreads with
    | @envelope root code message hroot _ htexts _ =>
      obtain ⟨bindings, hdecode, hbindings⟩ := hroot.decode_texts htexts
      rw [hdecode] at h
      exact ⟨root, code, message, hroot, htexts, (hbindings "twirp_status" text).mp h⟩
    | _ =>
      rw [hs] at h
      contradiction
  · rintro ⟨root, code, message, h⟩
    exact h.decode_eq.2

end

/-- What is sent for a status follows from its wire text: the HTTP status, and the code that the
body spells. -/
theorem encode_of_wireText {s : Status} {text : String} (h : s.wireText = text) :
    (encode s).1 = WireCode.httpStatusOf text ∧ Spells (encode s).2 text := by
  subst h
  exact ⟨s.httpStatus_eq, spells_ofStatus s⟩

/-- The members of the envelope of a status that keeps its override in the metadata. -/
def wholeMembers (s : Status) : List (String × Tree) :=
  [("code", .ofText (WireCode.ofCode s.code)), ("msg", .ofText s.message),
    ("meta", .ofMembers (s.metadata.map Tree.ofText).entries)]

/-- A response that carries a status with all of its metadata. -/
def whole (s : Status) : Response where
  status := 500
  headers := Headers.empty.set .contentType (Text.bytes "application/json")
  body := .ofBytes (Tree.ofMembers (wholeMembers s)).render

section

variable (s : Status)

theorem wholeMembers_shallow : ∀ m ∈ wholeMembers s, Shallow m.2 := by
  simp only [wholeMembers, List.forall_mem_cons]
  exact ⟨.text _, .text _, .texts (entries_text s.metadata), List.forall_mem_nil _⟩

/-- Every failure can be read, with any override. -/
theorem decode_whole (h : s.code ≠ .ok) : decode (whole s) = s := by
  have htype : Typed (whole s) := Headers.get?_set_self _ _ _
  apply decode_ok
  rw [read_typed htype, whole, Body.bytes?_ofBytes, Option.bind_some,
    parseStrict_shallow (wholeMembers_shallow s)]
  have hcode : ((Tree.ofMembers (wholeMembers s)).member? "code").bind Tree.text? =
      some (WireCode.ofCode s.code) := by
    simp [Tree.member?, wholeMembers]
  have hmessage : ((Tree.ofMembers (wholeMembers s)).member? "msg").bind Tree.text? =
      some s.message := by
    simp [Tree.member?, wholeMembers]
  have hmeta : ((Tree.ofMembers (wholeMembers s)).member? "meta").bind Tree.members? =
      some (s.metadata.map Tree.ofText).entries := by
    simp [Tree.member?, wholeMembers]
  refine (toStatus_declared hcode hmessage).trans ?_
  rw [hmeta, WireCode.codeOf_ofCode h]
  exact addMetadata_entries s.metadata rfl

end

/-- An error that is passed on has the wire text that its envelope binds under the reserved key, if it
does, so a peer chooses freely what its failure is passed on as. -/
theorem passed_on_as_chosen (r : Response) (text : String) :
    ((decode r).override? = some text ↔
      ∃ root code message, Overrides r root code message text) ∧
    (∀ root code message, Overrides r root code message text →
      (decode r).code = WireCode.codeOf code ∧
      (encode (decode r)).1 = WireCode.httpStatusOf text ∧ Spells (encode (decode r)).2 text) ∧
    ((∀ root code message other, ¬Overrides r root code message other) →
      (encode (decode r)).1 = WireCode.httpStatusOf (WireCode.ofCode (decode r).code) ∧
      Spells (encode (decode r)).2 (WireCode.ofCode (decode r).code)) ∧
    ∀ s : Status, s.code ≠ .ok → ∃ r', decode r' = s.withOverride text := by
  refine ⟨override?_decode_iff, fun root code message h => ?_, fun hnone => ?_, fun s hs => ?_⟩
  · have hwire : (decode r).wireText = text := by
      rw [Status.wireText_eq, h.decode_eq.2, Option.getD_some]
    exact ⟨h.decode_eq.1, encode_of_wireText hwire⟩
  · have hoverride : (decode r).override? = none := by
      rw [Option.eq_none_iff_forall_ne_some]
      intro other hother
      obtain ⟨root, code, message, h⟩ := override?_decode_iff.mp hother
      exact hnone root code message other h
    exact encode_of_wireText (by rw [Status.wireText_eq, hoverride, Option.getD_none])
  · exact ⟨whole (s.withOverride text), decode_whole _ hs⟩

/-- The server error of a peer that has it passed on as a resource that was not found. -/
def disguised : Response where
  status := 500
  headers := Headers.empty.set .contentType (Text.bytes "application/json")
  body := .ofBytes (Text.bytes
    "\x7b\"code\":\"internal\",\"msg\":\"x\",\"meta\":\x7b\"twirp_status\":\"not_found\"\x7d\x7d")

/-- It is read as a server error, and yet it is passed on under the text it asks for. -/
theorem disguised_passed_on :
    (decode disguised).code = .internal ∧ (decode disguised).override? = some "not_found" ∧
    encode (decode disguised) =
      (404, Text.bytes "\x7b\"code\":\"not_found\",\"msg\":\"x\"\x7d") ∧
    WireCode.ofCode .internal = "internal" ∧ WireCode.httpStatusOf "internal" = 500 := by
  decide +kernel

end Envelope

end UnaryRpc
