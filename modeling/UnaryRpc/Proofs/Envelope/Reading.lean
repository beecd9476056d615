import UnaryRpc.Proofs.Envelope.Relay
import UnaryRpc.Proofs.Json.Strict

namespace UnaryRpc

namespace Envelope

open Http Json

/-- The first content type of a response is that of envelopes. -/
def Typed (r : Response) : Prop :=
  r.headers.get? .contentType = some (Text.bytes "application/json")

/-- A response whose body spells a value. -/
def Contains (r : Response) (root : Tree) : Prop :=
  ∃ bytes, r.body.bytes? = some bytes ∧ root.Spelled bytes

/-- A response of the type of envelopes whose body is one value that can be taken whole. -/
structure Carries (r : Response) (root : Tree) : Prop where
  typed : Typed r
  contains : Contains r root
  strict : root.Strict

/-- A response with a code and a message. -/
structure Declares (r : Response) (root : Tree) (code message : String) : Prop extends
    Carries r root where
  code : root.HasText "code" code
  message : root.HasText "msg" message

/-- The status that a response is read as: one case for each thing that can be the first one wrong
with it, and one for a readable envelope. What is bound to the override is left open. -/
inductive Reads (r : Response) : Status → Prop
  | otherType (htype : ¬Typed r) :
    Reads r ⟨.unavailable, "Expected 'application/json' content type for error data", .empty⟩
  | badBody (htype : Typed r) (hbody : ∀ root, Contains r root → ¬root.Strict) :
    Reads r ⟨.unavailable, "Received malformed JSON error response", .empty⟩
  | noCode {root} (hroot : Carries r root) (hcode : ∀ code, ¬root.HasText "code" code) :
    Reads r ⟨.unavailable, "Expected 'code' entry", .empty⟩
  | noMessage {root code} (hroot : Carries r root) (hcode : root.HasText "code" code)
      (hmessage : ∀ message, ¬root.HasText "msg" message) :
    Reads r ⟨.unavailable, "Expected 'msg' entry", .empty⟩
  | badMetadata {root code message} (hroot : Declares r root code message) {metadata key value}
      (hmetadata : root.HasMember "meta" metadata) (hvalue : metadata.HasMember key value)
      (hother : ∀ text, ¬value.IsText text) :
    Reads r ⟨.unavailable, "Only strings are accepted as metadata", .empty⟩
  | envelope {root code message} (hroot : Declares r root code message) {bindings : Table String}
      (htexts : ∀ metadata key value, root.HasMember "meta" metadata →
        metadata.HasMember key value → ∃ text, value.IsText text)
      (hbindings : ∀ key, key ≠ "twirp_status" → ∀ text, bindings.get? key = some text ↔
        ∃ metadata, root.HasMember "meta" metadata ∧ metadata.HasText key text) :
    Reads r ⟨WireCode.codeOf code, message, bindings⟩

/-- Envelopes that differ only in the order of the members, of the envelope or of the metadata. -/
inductive Rearranged : Tree → Tree → Prop
  | members {root root' : Tree} (h : root.Reordered root') : Rearranged root root'
  | metadata {before after : List (RawText × Tree)} {k : RawText} {t t' : Tree}
      (key : k.Spells "meta".toList) (h : t.Reordered t') :
      Rearranged (.object (before ++ (k, t) :: after)) (.object (before ++ (k, t') :: after))
  | trans {root middle root' : Tree} (first : Rearranged root middle)
      (second : Rearranged middle root') : Rearranged root root'

section

variable {root : Tree} {code message : String}

theorem toStatus_noCode (h : (root.member? "code").bind Tree.text? = none) :
    toStatus root = .error .noCode := by
  rw [toStatus, h]
  rfl

theorem toStatus_noMessage (hcode : (root.member? "code").bind Tree.text? = some code)
    (hmessage : (root.member? "msg").bind Tree.text? = none) :
    toStatus root = .error .noMessage := by
  rw [toStatus, hcode, hmessage]
  rfl

theorem toStatus_declared (hcode : (root.member? "code").bind Tree.text? = some code)
    (hmessage : (root.member? "msg").bind Tree.text? = some message) :
    toStatus root =
      match (root.member? "meta").bind Tree.members? with
      | some members => addMetadata ⟨WireCode.codeOf code, message, .empty⟩ members
      | none => .ok ⟨WireCode.codeOf code, message, .empty⟩ := by
  rw [toStatus, hcode, hmessage]
  rfl

end

theorem addMetadata_other {members : List (String × Tree)} (s : Status)
    (h : ∃ e ∈ (Table.ofList members).entries, e.2.text? = none) :
    addMetadata s members = .error .badMetadata := by
  rw [addMetadata]
  generalize (Table.ofList members).entries = l at h
  induction l generalizing s with
  | nil => simp at h
  | cons e l ih =>
    rw [List.foldlM_cons]
    cases htext : e.2.text? with
    | none => rfl
    | some value =>
      obtain ⟨other, hother, hnone⟩ := h
      rcases List.mem_cons.mp hother with rfl | hother
      · rw [htext] at hnone
        contradiction
      · exact ih (s.set e.1 value) ⟨other, hother, hnone⟩

section

variable {t : Tree} {members : List (String × Tree)} {key : String} {value : Tree}

/-- A value with a member is an object, and its members can be listed. -/
theorem exists_members? (h : t.Legible) (hvalue : t.HasMember key value) :
    ∃ members, t.members? = some members := by
  obtain ⟨before, k, after, rfl, -⟩ := hvalue
  exact ⟨_, h.members?⟩

/-- What an object has is what the table of its members has. -/
theorem get?_ofMembers (h : t.Legible) (hmembers : t.members? = some members) :
    (Table.ofList members).get? key = some value ↔ t.HasMember key value := by
  rw [← h.member?_eq_some_iff, Table.get?_ofList, Tree.member?, hmembers, Option.bind_some]

theorem mem_entries_ofMembers (h : t.Legible) (hmembers : t.members? = some members) :
    (key, value) ∈ (Table.ofList members).entries ↔ t.HasMember key value :=
  (Table.mem_entries_iff _ key value).trans (get?_ofMembers h hmembers)

/-- Metadata that is all texts is bound as it is. -/
theorem addMetadata_ofMembers (h : t.Legible) (hmembers : t.members? = some members)
    (htexts : ∀ key value, t.HasMember key value → ∃ text, value.IsText text) (code : Code)
    (message : String) :
    ∃ bindings : Table String,
      addMetadata ⟨code, message, .empty⟩ members = .ok ⟨code, message, bindings⟩ ∧
      ∀ key text, bindings.get? key = some text ↔ t.HasText key text := by
  refine ⟨_, addMetadata_texts rfl ?_, ?_⟩
  · rintro ⟨key, value⟩ he
    obtain ⟨text, htext⟩ := htexts key value ((mem_entries_ofMembers h hmembers).mp he)
    rw [htext.text?, Option.isSome_some]
  · intro key text
    rw [Table.get?_map, Option.map_eq_some_iff]
    refine exists_congr (fun value => ?_)
    rw [get?_ofMembers h hmembers]
    refine and_congr_right (fun hvalue => ?_)
    obtain ⟨other, hother⟩ := htexts key value hvalue
    rw [← (hvalue.legible h).text?_eq_some_iff, hother.text?, Option.getD_some, Option.some_inj]

/-- One value that is no text is enough, wherever it stands. -/
theorem addMetadata_badMember (h : t.Legible) (hmembers : t.members? = some members)
    (hvalue : t.HasMember key value) (hother : ∀ text, ¬value.IsText text) (s : Status) :
    addMetadata s members = .error .badMetadata := by
  refine addMetadata_other s ⟨(key, value), (mem_entries_ofMembers h hmembers).mpr hvalue, ?_⟩
  rw [Option.eq_none_iff_forall_ne_some]
  intro text htext
  exact hother text ((hvalue.legible h).text?_eq_some_iff.mp htext)

end

section

variable {r : Response} {root : Tree}

theorem read_untyped (h : ¬Typed r) : read r = .error .otherType := by
  have htype : r.headers.contentType? ≠ some Encoding.json.contentType :=
    mt (r.headers.contentType?_eq_some_iff .json).mp h
  rw [read, if_pos htype]

theorem read_typed (h : Typed r) :
    read r = match r.body.bytes?.bind Tree.parseStrict with
      | none => .error .badBody
      | some root => toStatus root := by
  have htype : r.headers.contentType? = some Encoding.json.contentType :=
    (r.headers.contentType?_eq_some_iff .json).mpr h
  unfold read
  exact if_neg (not_not_intro htype)

theorem read_carries (h : Carries r root) : read r = toStatus root := by
  obtain ⟨bytes, hbytes, hspelled⟩ := h.contains
  have hparse : Tree.parseStrict bytes = some root :=
    Tree.parseStrict_eq_some_iff.mpr ⟨hspelled, h.strict⟩
  rw [read_typed h.typed, hbytes, Option.bind_some, hparse]

theorem read_badBody (htype : Typed r) (hbody : ∀ root, Contains r root → ¬root.Strict) :
    read r = .error .badBody := by
  have hnone : r.body.bytes?.bind Tree.parseStrict = none := by
    rw [Option.bind_eq_none_iff]
    intro bytes hbytes
    rw [Option.eq_none_iff_forall_ne_some]
    intro root hparse
    obtain ⟨hspelled, hstrict⟩ := Tree.parseStrict_eq_some_iff.mp hparse
    exact hbody root ⟨bytes, hbytes, hspelled⟩ hstrict
  rw [read_typed htype, hnone]

theorem decode_error {d : Defect} (h : read r = .error d) :
    decode r = ⟨.unavailable, d.message, .empty⟩ := by
  rw [decode, h]
  rfl

theorem decode_ok {s : Status} (h : read r = .ok s) : decode r = s := by
  rw [decode, h]

section

variable {code message : String}

theorem Declares.read_eq (h : Declares r root code message) :
    read r =
      match (root.member? "meta").bind Tree.members? with
      | some members => addMetadata ⟨WireCode.codeOf code, message, .empty⟩ members
      | none => .ok ⟨WireCode.codeOf code, message, .empty⟩ :=
  (read_carries h.toCarries).trans
    (toStatus_declared (h.strict.legible.member?_text?_eq_some_iff.mpr h.code)
      (h.strict.legible.member?_text?_eq_some_iff.mpr h.message))

/-- A response with a code and a message, and with texts only in its metadata, is read with all of
the metadata. -/
theorem Declares.decode_texts (h : Declares r root code message)
    (htexts : ∀ metadata key value, root.HasMember "meta" metadata →
      metadata.HasMember key value → ∃ text, value.IsText text) :
    ∃ bindings : Table String, decode r = ⟨WireCode.codeOf code, message, bindings⟩ ∧
      ∀ key text, bindings.get? key = some text ↔
        ∃ metadata, root.HasMember "meta" metadata ∧ metadata.HasText key text := by
  have hlegible := h.strict.legible
  have hread := h.read_eq
  cases hmeta : (root.member? "meta").bind Tree.members? with
  | none =>
    rw [hmeta] at hread
    refine ⟨.empty, decode_ok hread, fun key text => ⟨nofun, ?_⟩⟩
    rintro ⟨metadata, hmetadata, value, hvalue, -⟩
    obtain ⟨members, hmembers⟩ := exists_members? (hmetadata.legible hlegible) hvalue
    rw [hlegible.member?_eq_some_iff.mpr hmetadata, Option.bind_some, hmembers] at hmeta
    contradiction
  | some members =>
    rw [hmeta] at hread
    obtain ⟨metadata, hsome, hmembers⟩ := Option.bind_eq_some_iff.mp hmeta
    have hmetadata := hlegible.member?_eq_some_iff.mp hsome
    obtain ⟨bindings, hadd, hbindings⟩ := addMetadata_ofMembers (hmetadata.legible hlegible)
      hmembers (fun key value => htexts metadata key value hmetadata) (WireCode.codeOf code) message
    refine ⟨bindings, decode_ok (hread.trans hadd), fun key text => ?_⟩
    rw [hbindings]
    constructor
    · exact fun htext => ⟨metadata, hmetadata, htext⟩
    · rintro ⟨other, hother, htext⟩
      have hsame := hsome.symm.trans (hlegible.member?_eq_some_iff.mpr hother)
      rwa [Option.some.inj hsame]

/-- A response with anything but texts in its metadata is not read at all. -/
theorem Declares.decode_badMember (h : Declares r root code message) {metadata : Tree}
    {key : String} {value : Tree} (hmetadata : root.HasMember "meta" metadata)
    (hvalue : metadata.HasMember key value) (hother : ∀ text, ¬value.IsText text) :
    decode r = Defect.badMetadata.status := by
  have hlegible := h.strict.legible
  obtain ⟨members, hmembers⟩ := exists_members? (hmetadata.legible hlegible) hvalue
  have hread := h.read_eq
  rw [hlegible.member?_eq_some_iff.mpr hmetadata, Option.bind_some, hmembers] at hread
  exact decode_error
    (hread.trans (addMetadata_badMember (hmetadata.legible hlegible) hmembers hvalue hother _))

/-- A response with a code and a message is read as its metadata lets it. -/
theorem Declares.reads (h : Declares r root code message) : Reads r (decode r) := by
  by_cases htexts : ∀ metadata key value, root.HasMember "meta" metadata →
      metadata.HasMember key value → ∃ text, value.IsText text
  · obtain ⟨bindings, hdecode, hbindings⟩ := h.decode_texts htexts
    rw [hdecode]
    exact .envelope h htexts (fun key _ => hbindings key)
  · simp only [not_forall, not_exists] at htexts
    obtain ⟨metadata, key, value, hmetadata, hvalue, hother⟩ := htexts
    rw [h.decode_badMember hmetadata hvalue hother]
    exact .badMetadata h hmetadata hvalue hother

end

/-- Every response is read by the first thing that is wrong with it. -/
theorem reads_decode (r : Response) : Reads r (decode r) := by
  by_cases htype : Typed r
  · by_cases hbody : ∀ root, Contains r root → ¬root.Strict
    · rw [decode_error (read_badBody htype hbody)]
      exact .badBody htype hbody
    · simp only [not_forall, not_not] at hbody
      obtain ⟨root, hcontains, hstrict⟩ := hbody
      have hroot : Carries r root := ⟨htype, hcontains, hstrict⟩
      have hread := read_carries hroot
      have hlegible := hstrict.legible
      cases hcode : (root.member? "code").bind Tree.text? with
      | none =>
        rw [decode_error (hread.trans (toStatus_noCode hcode))]
        exact .noCode hroot (hlegible.member?_text?_eq_none_iff.mp hcode)
      | some code =>
        have hcode' := hlegible.member?_text?_eq_some_iff.mp hcode
        cases hmessage : (root.member? "msg").bind Tree.text? with
        | none =>
          rw [decode_error (hread.trans (toStatus_noMessage hcode hmessage))]
          exact .noMessage hroot hcode' (hlegible.member?_text?_eq_none_iff.mp hmessage)
        | some message =>
          have hmessage' := hlegible.member?_text?_eq_some_iff.mp hmessage
          exact Declares.reads ⟨hroot, hcode', hmessage'⟩
  · rw [decode_error (read_untyped htype)]
    exact .otherType htype

end

theorem Reads.code_ne_ok {r : Response} {s : Status} (h : Reads r s) : s.code ≠ .ok := by
  cases h with
  | envelope => exact WireCode.codeOf_ne_ok _
  | _ => simp

/-- Only the code, the message and the table of the metadata count. -/
theorem toStatus_congr {root root' : Tree} (hcode : root.member? "code" = root'.member? "code")
    (hmessage : root.member? "msg" = root'.member? "msg")
    (hmeta : ((root.member? "meta").bind Tree.members?).map Table.ofList =
      ((root'.member? "meta").bind Tree.members?).map Table.ofList) :
    toStatus root = toStatus root' := by
  cases hcode' : (root'.member? "code").bind Tree.text? with
  | none => rw [toStatus_noCode hcode', toStatus_noCode (hcode ▸ hcode')]
  | some code =>
    cases hmessage' : (root'.member? "msg").bind Tree.text? with
    | none =>
      rw [toStatus_noMessage hcode' hmessage',
        toStatus_noMessage (hcode ▸ hcode') (hmessage ▸ hmessage')]
    | some message =>
      rw [toStatus_declared hcode' hmessage',
        toStatus_declared (hcode ▸ hcode') (hmessage ▸ hmessage')]
      cases hmembers : (root.member? "meta").bind Tree.members? with
      | none =>
        rw [hmembers, Option.map_none, eq_comm, Option.map_eq_none_iff] at hmeta
        rw [hmeta]
      | some members =>
        rw [hmembers, Option.map_some, eq_comm, Option.map_eq_some_iff] at hmeta
        obtain ⟨members', hmembers', htable⟩ := hmeta
        simp only [hmembers', addMetadata, htable]

/-- Metadata in another order has the same table. -/
theorem table_reordered {t t' : Tree} (h : t.Reordered t') (ht : t.Legible) (ht' : t'.Legible) :
    t.members?.map Table.ofList = t'.members?.map Table.ofList := by
  obtain ⟨members, members', rfl, rfl, -⟩ := id h
  rw [ht.members?, ht'.members?, Option.map_some, Option.map_some]
  refine congrArg some (Table.ext (fun key => Option.ext (fun value => ?_)))
  rw [get?_ofMembers ht ht.members?, get?_ofMembers ht' ht'.members?, h.hasMember_iff]

namespace Rearranged

variable {root root' : Tree}

theorem isStrict_iff (h : Rearranged root root') :
    Tree.isStrict Tree.maxDepth root = true ↔ Tree.isStrict Tree.maxDepth root' = true := by
  induction h with
  | members h => exact h.isStrict_iff
  | metadata _ h =>
    simp only [Tree.isStrict_object_iff, List.forall_mem_append, List.forall_mem_cons,
      h.isStrict_iff]
  | trans _ _ first second => exact first.trans second

theorem legible_iff (h : Rearranged root root') : root.Legible ↔ root'.Legible := by
  induction h with
  | members h => exact h.legible_iff
  | metadata _ h =>
    simp only [Tree.legible_object_iff, List.forall_mem_append, List.forall_mem_cons,
      h.legible_iff]
  | trans _ _ first second => exact first.trans second

theorem toStatus_eq (h : Rearranged root root') (hroot : root.Legible) :
    toStatus root = toStatus root' := by
  induction h with
  | members h =>
    have hmember := h.member?_eq hroot (h.legible_iff.mp hroot)
    exact toStatus_congr (hmember _) (hmember _) (by rw [hmember])
  | @metadata before after k t t' key h =>
    have hroot' := (Rearranged.metadata key h).legible_iff.mp hroot
    obtain ⟨hothers, hmeta⟩ := Tree.member?_replaced hroot hroot' key
    refine toStatus_congr (hothers _ (by decide)) (hothers _ (by decide)) ?_
    rcases hmeta with hmeta | ⟨ht, ht'⟩
    · rw [hmeta]
    · have hmem := Tree.legible_object_iff.mp hroot (k, t) (by simp)
      have hmem' := Tree.legible_object_iff.mp hroot' (k, t') (by simp)
      rw [ht, ht', Option.bind_some, Option.bind_some]
      exact table_reordered h hmem.2 hmem'.2
  | trans first _ ihFirst ihSecond =>
    exact (ihFirst hroot).trans (ihSecond (first.legible_iff.mp hroot))

end Rearranged

theorem read_contains {r : Response} {root : Tree} (htype : Typed r) (h : Contains r root) :
    read r = if Tree.isStrict Tree.maxDepth root = true then toStatus root
      else .error .badBody := by
  obtain ⟨bytes, hbytes, hspelled⟩ := h
  rw [read_typed htype, hbytes, Option.bind_some, Tree.parseStrict,
    Tree.parse_of_spelled hspelled, Option.filter_some]
  by_cases hstrict : Tree.isStrict Tree.maxDepth root = true
  · rw [if_pos hstrict, if_pos hstrict]
  · rw [if_neg hstrict, if_neg hstrict]

/-- The order of the members of an envelope, or of its metadata, makes no difference. -/
theorem decode_rearranged {r r' : Response} {root root' : Tree}
    (htype : r'.headers.get? .contentType = r.headers.get? .contentType)
    (hroot : Contains r root) (hroot' : Contains r' root') (h : Rearranged root root') :
    decode r' = decode r := by
  by_cases htyped : Typed r
  · have htyped' : Typed r' := htype.trans htyped
    have hread : read r' = read r := by
      rw [read_contains htyped hroot, read_contains htyped' hroot']
      by_cases hstrict : Tree.isStrict Tree.maxDepth root = true
      · obtain ⟨bytes, -, hspelled⟩ := hroot
        have hlegible := ((Tree.isStrict_iff_strict hspelled).mp hstrict).legible
        rw [if_pos hstrict, if_pos (h.isStrict_iff.mp hstrict), h.toStatus_eq hlegible]
      · rw [if_neg hstrict, if_neg (mt h.isStrict_iff.mpr hstrict)]
    rw [decode, decode, hread]
  · have htyped' : ¬Typed r' := fun h => htyped (htype.symm.trans h)
    rw [decode, decode, read_untyped htyped, read_untyped htyped']

/-- Any response is read as the status of the first thing that is wrong with it, or as what its
envelope says; nothing else of it counts, and neither does the order of members. -/
theorem decode_reads (r : Response) :
    Reads r (decode r) ∧ (decode r).code ≠ .ok ∧
    (∀ r' : Response, r'.headers.get? .contentType = r.headers.get? .contentType →
      (r'.body = r.body → decode r' = decode r) ∧
      ∀ root root', Contains r root → Contains r' root' → Rearranged root root' →
        decode r' = decode r) := by
  refine ⟨reads_decode r, (reads_decode r).code_ne_ok, fun r' htype => ⟨fun hbody => ?_, ?_⟩⟩
  · have hfirst : r'.headers.contentType? = r.headers.contentType? := by
      rw [Headers.contentType?, htype]
      rfl
    rw [decode, decode, read, read, hfirst, hbody]
  · intro root root' hroot hroot' h
    exact decode_rearranged htype hroot hroot' h

end Envelope

end UnaryRpc
