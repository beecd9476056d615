import UnaryRpc.Envelope
import UnaryRpc.Proofs.Json.Object
import UnaryRpc.Proofs.Table

namespace UnaryRpc

namespace WireCode

theorem httpStatusOf_range (text : String) :
    400 ≤ httpStatusOf text ∧ httpStatusOf text ≤ 599 := by
  have hrows : ∀ w ∈ table, 400 ≤ w.httpStatus ∧ w.httpStatus ≤ 599 := by decide
  unfold httpStatusOf
  cases hf : find? text with
  | none => decide
  | some w => exact hrows w (List.mem_of_find?_eq_some hf)

/-- A code that stands for a failure has a wire text of its own. -/
theorem codeOf_ofCode {code : Code} (h : code ≠ .ok) : codeOf (ofCode code) = code := by
  cases code
  case ok => contradiction
  all_goals decide

end WireCode

namespace Http

theorem HeaderValue.text?_contentType (e : Encoding) :
    HeaderValue.text? (Text.bytes e.contentType) = some e.contentType := by
  have hvisible : (Text.bytes e.contentType).all
      (fun b => (32 ≤ b && b < 127) || b == 9) = true := by
    cases e <;> decide
  simp only [text?, hvisible, ↓reduceIte, Text.ofBytes?_bytes]

/-- The first content type is that of an encoding only if it has the same bytes. -/
theorem Headers.contentType?_eq_some_iff (h : Headers) (e : Encoding) :
    h.contentType? = some e.contentType ↔
      h.get? .contentType = some (Text.bytes e.contentType) := by
  constructor
  · intro htype
    obtain ⟨value, hvalue, htext⟩ := Option.bind_eq_some_iff.mp htype
    unfold HeaderValue.text? at htext
    split at htext
    · rw [hvalue, Text.bytes_of_ofBytes? htext]
    · contradiction
  · intro hvalue
    rw [contentType?, hvalue, Option.bind_some, HeaderValue.text?_contentType]

theorem Headers.contentType?_set (h : Headers) (e : Encoding) :
    (h.set .contentType (Text.bytes e.contentType)).contentType? = some e.contentType := by
  simp [contentType?, HeaderValue.text?_contentType]

end Http

namespace Envelope

open Http Json

/-- What an envelope holds of the metadata that is sent. -/
def metaMembers (s : Status) : List (String × Tree) :=
  ((sentMetadata s).map Tree.ofText).entries

/-- The members of an envelope. -/
def members (s : Status) : List (String × Tree) :=
  [("code", .ofText s.wireText), ("msg", .ofText (sentMessage s))] ++
    if (metaMembers s).isEmpty then [] else [("meta", .ofMembers (metaMembers s))]

theorem ofStatus_members (s : Status) : ofStatus s = .ofMembers (members s) := by
  simp only [ofStatus, members, Tree.ofMembers, metaMembers, Table.map]
  by_cases h : (sentMetadata s).entries = []
  · simp [h]
  · simp [h]

/-- What stands in an envelope: a text, or an object of texts. -/
inductive Shallow : Tree → Prop
  | text (value : String) : Shallow (.ofText value)
  | texts {members : List (String × Tree)} (h : ∀ m ∈ members, ∃ value, m.2 = .ofText value) :
    Shallow (.ofMembers members)

namespace Shallow

variable {t : Tree}

theorem plain (h : Shallow t) : t.Plain := by
  cases h with
  | text value => exact Tree.plain_ofText value
  | texts h =>
    apply Tree.plain_ofMembers
    intro m hm
    obtain ⟨value, hv⟩ := h m hm
    rw [hv]
    exact Tree.plain_ofText value

theorem isStrict (h : Shallow t) (depth : Nat) : Tree.isStrict (depth + 1) t = true := by
  cases h with
  | text value => exact Tree.isStrict_ofText _ value
  | texts h =>
    apply Tree.isStrict_ofMembers
    intro m hm
    obtain ⟨value, hv⟩ := h m hm
    rw [hv]
    exact Tree.isStrict_ofText _ value

end Shallow

theorem parseStrict_shallow {members : List (String × Tree)} (h : ∀ m ∈ members, Shallow m.2) :
    Tree.parseStrict (Tree.ofMembers members).render = some (.ofMembers members) :=
  Tree.parseStrict_render (Tree.plain_ofMembers (fun m hm => (h m hm).plain))
    (Tree.isStrict_ofMembers _ (fun m hm => (h m hm).isStrict _))

theorem entries_text (table : Table String) :
    ∀ m ∈ (table.map Tree.ofText).entries, ∃ value, m.2 = .ofText value := by
  intro m hm
  obtain ⟨e, _, rfl⟩ := List.mem_map.mp hm
  exact ⟨e.2, rfl⟩

theorem members_shallow (s : Status) : ∀ m ∈ members s, Shallow m.2 := by
  intro m hm
  simp only [members, List.cons_append, List.nil_append, List.mem_cons] at hm
  rcases hm with rfl | rfl | hm
  · exact .text _
  · exact .text _
  · split at hm
    · contradiction
    · simp only [List.mem_cons, List.not_mem_nil, or_false] at hm
      subst hm
      exact .texts (entries_text (sentMetadata s))

theorem plain_ofStatus (s : Status) : (ofStatus s).Plain := by
  rw [ofStatus_members]
  exact Tree.plain_ofMembers (fun m hm => (members_shallow s m hm).plain)

theorem isStrict_ofStatus (s : Status) : Tree.isStrict Tree.maxDepth (ofStatus s) = true := by
  rw [ofStatus_members]
  exact Tree.isStrict_ofMembers _ (fun m hm => (members_shallow s m hm).isStrict _)

/-- The body of an error response is one value, which can be taken whole. -/
theorem parseStrict_ofStatus (s : Status) :
    Tree.parseStrict (ofStatus s).render = some (ofStatus s) := by
  rw [ofStatus_members]
  exact parseStrict_shallow (members_shallow s)

/-- Bytes that spell an envelope with a code: an object of the code, a message and, unless there is
none, metadata, all in texts. -/
def Spells (bytes : List UInt8) (code : String) : Prop :=
  ∃ (message : String) (metadata : List (String × String)),
    Tree.parseStrict bytes = some (.ofMembers
      ([("code", .ofText code), ("msg", .ofText message)] ++
        if metadata.isEmpty then []
        else [("meta", .ofMembers (metadata.map (fun e => (e.1, .ofText e.2))))]))

/-- The body of an error response spells an envelope with the wire text of its status. -/
theorem spells_ofStatus (s : Status) : Spells (ofStatus s).render s.wireText := by
  refine ⟨sentMessage s, (sentMetadata s).entries, ?_⟩
  rw [parseStrict_ofStatus, ofStatus_members, members, metaMembers, Table.map, List.isEmpty_map]

/-- A status as it arrives at the other side. -/
def sent (s : Status) : Status where
  code := WireCode.codeOf s.wireText
  message := sentMessage s
  metadata := sentMetadata s

theorem foldlM_set (l : List (String × Tree)) (h : ∀ e ∈ l, e.2.text?.isSome = true)
    (s : Status) :
    l.foldlM (fun (s : Status) e =>
      match e.2.text? with
      | some value => Except.ok (s.set e.1 value)
      | none => Except.error Defect.badMetadata) s =
      .ok ⟨s.code, s.message, (l.map (fun e => (e.1, e.2.text?.getD ""))).foldl
        (fun t e => t.insert e.1 e.2) s.metadata⟩ := by
  induction l generalizing s with
  | nil => rfl
  | cons e l ih =>
    obtain ⟨htext, hothers⟩ := List.forall_mem_cons.mp h
    obtain ⟨value, hvalue⟩ := Option.isSome_iff_exists.mp htext
    simp only [List.foldlM_cons, List.map_cons, List.foldl_cons, hvalue, Option.getD_some]
    exact ih hothers (s.set e.1 value)

/-- Metadata that is all texts is added as it is. -/
theorem addMetadata_texts {members : List (String × Tree)} {s : Status}
    (hs : s.metadata = .empty)
    (h : ∀ e ∈ (Table.ofList members).entries, e.2.text?.isSome = true) :
    addMetadata s members =
      .ok ⟨s.code, s.message, (Table.ofList members).map (fun t => t.text?.getD "")⟩ := by
  have hset := foldlM_set (Table.ofList members).entries h s
  rw [hs] at hset
  change _ = Except.ok (Status.mk s.code s.message
    (Table.ofList ((Table.ofList members).map (fun t => t.text?.getD "")).entries)) at hset
  rw [Table.ofList_entries] at hset
  exact hset

/-- Metadata that is written out is added as it was. -/
theorem addMetadata_entries (table : Table String) {s : Status} (hs : s.metadata = .empty) :
    addMetadata s (table.map Tree.ofText).entries = .ok { s with metadata := table } := by
  have hlist : Table.ofList (table.map Tree.ofText).entries = table.map Tree.ofText :=
    Table.ofList_entries _
  rw [addMetadata_texts hs, hlist]
  · have hback : (table.map Tree.ofText).map (fun t => t.text?.getD "") = table := by
      apply Table.ext
      intro k
      simp [Table.get?_map, Function.comp_def]
    rw [hback]
  · intro e he
    obtain ⟨value, hvalue⟩ := entries_text table e (by rwa [hlist] at he)
    simp [hvalue]

theorem sentMetadata_of_isEmpty {s : Status} (h : (metaMembers s).isEmpty = true) :
    sentMetadata s = .empty := by
  have hnil : (sentMetadata s).entries = [] := by
    simpa [metaMembers, Table.map] using h
  rw [← Table.ofList_entries (sentMetadata s), hnil]
  rfl

theorem member?_code (s : Status) : (ofStatus s).member? "code" = some (.ofText s.wireText) := by
  rw [ofStatus_members, Tree.member?, Tree.members?_ofMembers, Option.bind_some, members]
  split <;> simp

/-- The envelope of a status carries the status as it is sent. -/
theorem toStatus_ofStatus (s : Status) : toStatus (ofStatus s) = .ok (sent s) := by
  have hmember : ∀ key, (ofStatus s).member? key =
      ((members s).reverse.find? (fun m => m.1 == key)).map Prod.snd := by
    intro key
    rw [ofStatus_members, Tree.member?, Tree.members?_ofMembers, Option.bind_some]
  have hmsg : (ofStatus s).member? "msg" = some (.ofText (sentMessage s)) := by
    rw [hmember, members]
    split <;> simp
  have hmeta : (ofStatus s).member? "meta" =
      if (metaMembers s).isEmpty then none else some (.ofMembers (metaMembers s)) := by
    rw [hmember, members]
    split <;> simp
  simp only [toStatus, member?_code, hmsg, hmeta, Option.bind_some, Tree.text?_ofText, Option.elim_some]
  cases h : (metaMembers s).isEmpty with
  | true =>
    rw [sent, sentMetadata_of_isEmpty h]
    rfl
  | false =>
    simp only [Bool.false_eq_true, ↓reduceIte, Option.bind_some, Tree.members?_ofMembers]
    exact addMetadata_entries (sentMetadata s) rfl

/-- An error response is read back as the status that it was written for, as it was sent. -/
theorem read_write (s : Status) (r : Response) : read (write s r) = .ok (sent s) := by
  have htype : (write s r).headers.contentType? = some Encoding.json.contentType :=
    Headers.contentType?_set r.headers .json
  have hbody : (write s r).body.bytes?.bind Tree.parseStrict = some (ofStatus s) :=
    parseStrict_ofStatus s
  simp only [read, htype, hbody, ne_eq, not_true_eq_false, ↓reduceIte]
  exact toStatus_ofStatus s

theorem sent_of_plain {s : Status} (hcode : s.code ≠ .ok) (hmessage : s.message ≠ "")
    (hoverride : s.override? = none) : sent s = s := by
  obtain ⟨code, message, metadata⟩ := s
  have hwire : Status.wireText ⟨code, message, metadata⟩ = WireCode.ofCode code := by
    rw [Status.wireText_eq, hoverride, Option.getD_none]
  have hsent : sentMetadata ⟨code, message, metadata⟩ = metadata :=
    Table.erase_of_get?_none hoverride
  have hmsg : sentMessage ⟨code, message, metadata⟩ = message := if_neg hmessage
  rw [sent, hwire, hsent, hmsg, WireCode.codeOf_ofCode hcode]

/-- The HTTP status of an error response is that of the wire text, with or without an override. -/
theorem status_write (s : Status) (r : Response) :
    (write s r).status = WireCode.httpStatusOf s.wireText := s.httpStatus_eq

theorem status_write_range (s : Status) (r : Response) :
    400 ≤ (write s r).status ∧ (write s r).status ≤ 599 := by
  rw [status_write]
  exact WireCode.httpStatusOf_range s.wireText

theorem decode_sent (s : Status) (r : Response) : decode (write s r) = sent s := by
  simp only [decode, read_write]

/-- What is written is the wire text, the message and the metadata that are sent, and nothing else. -/
theorem encode_eq_iff (s t : Status) :
    encode s = encode t ↔ s.wireText = t.wireText ∧ sentMessage s = sentMessage t ∧
      sentMetadata s = sentMetadata t := by
  constructor
  · intro h
    have hbody : (ofStatus s).render = (ofStatus t).render := congrArg Prod.snd h
    have htree : ofStatus s = ofStatus t := by
      have hs := parseStrict_ofStatus s
      rw [hbody, parseStrict_ofStatus] at hs
      exact (Option.some.inj hs).symm
    have hcode : (ofStatus s).member? "code" = (ofStatus t).member? "code" := by rw [htree]
    rw [member?_code, member?_code] at hcode
    have hwire := congrArg Tree.text? (Option.some.inj hcode)
    rw [Tree.text?_ofText, Tree.text?_ofText] at hwire
    have hsent : sent s = sent t := by
      have hs := toStatus_ofStatus s
      rw [htree, toStatus_ofStatus] at hs
      exact (Except.ok.inj hs).symm
    exact ⟨Option.some.inj hwire, congrArg Status.message hsent, congrArg Status.metadata hsent⟩
  · rintro ⟨hwire, hmessage, hmetadata⟩
    rw [encode, encode, Status.httpStatus_eq, Status.httpStatus_eq, ofStatus, ofStatus, hwire,
      hmessage, hmetadata]

/-- An error that is written and read back has the code, the message and the metadata that its wire
text leaves it, and the response before it loses nothing but its content type. -/
theorem decode_write (s : Status) (r : Response) :
    let w := (s.metadata.get? "twirp_status").getD (WireCode.ofCode s.code)
    let written := write s r
    decode written =
      { code := WireCode.codeOf w
        message := if s.message = "" then w else s.message
        metadata := s.metadata.erase "twirp_status" } ∧
    (s.code ≠ .ok → s.message ≠ "" → s.metadata.get? "twirp_status" = none →
      decode written = s) ∧
    written.status = WireCode.httpStatusOf w ∧ 400 ≤ written.status ∧ written.status ≤ 599 ∧
    written.headers.values .contentType = [Text.bytes "application/json"] ∧
    ∀ name, name ≠ .contentType → written.headers.values name = r.headers.values name := by
  intro w written
  have hwire : s.wireText = w := s.wireText_eq
  have hread : decode written = sent s := decode_sent s r
  obtain ⟨hlow, hhigh⟩ := status_write_range s r
  refine ⟨?_, ?_, ?_, hlow, hhigh, ?_, ?_⟩
  · rw [hread, sent, sentMessage, hwire]
    rfl
  · intro hcode hmessage hoverride
    rw [hread]
    exact sent_of_plain hcode hmessage hoverride
  · rw [← hwire]
    exact status_write s r
  · exact Headers.values_set_self r.headers .contentType _
  · intro name hne
    exact Headers.values_set_other r.headers hne _

end Envelope

end UnaryRpc
