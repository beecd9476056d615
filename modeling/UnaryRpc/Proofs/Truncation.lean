import UnaryRpc.Proofs.Envelope.Reading
import UnaryRpc.Proofs.Json.Ending
import UnaryRpc.Proofs.Message.Body

namespace UnaryRpc

open Http Json

namespace Message

/-- Why a body that is no JSON text of a message is not received. -/
def refusal (bytes : List UInt8) : Status :=
  if bytes.length < 0x7fffffff then .malformed "Can't deserialize JSON request"
  else { code := .outOfRange, message := "Argument size is too large" }

/-- A message type whose JSON bodies are received whole or not at all. Blanks around them do not
count. -/
def ReadsWhole (M : Type) [Message M] : Prop :=
  ∀ (m : M) (store : Store), ∃ text, write .json m = .ok text ∧
    (∀ bytes, Damaged text bytes →
      (receive .json (.ofBytes bytes) : Action Store (Owned M)).outcome store =
        (.error (refusal bytes), store)) ∧
    ∀ bytes, Surrounded text bytes → bytes.length < 0x7fffffff →
      (receive .json (.ofBytes bytes)).outcome store = delivered store m

section

variable {M : Type} [Message M] {bytes : List UInt8}

theorem receive_of_unparsed (h : Tree.parse bytes = none) (store : Store) :
    (receive .json (.ofBytes bytes) : Action Store (Owned M)).outcome store =
      (.error (refusal bytes), store) := by
  unfold refusal
  split
  · rename_i hshort
    have hdecode : decode? (M := M) .json bytes = none := by
      rw [decode?, Schema.ofJson?, h]
      rfl
    exact receive_of_none hshort hdecode store
  · rename_i hlong
    have hoversized : lengthBound ≤ (Body.ofBytes bytes).length := Nat.not_lt.mp hlong
    rw [receive, read, if_pos hoversized]
    rfl

theorem readsWhole_of_lawful [Lawful M] (hwilling : ∀ m : M, refusal? m = none) :
    ReadsWhole M := by
  intro m store
  have hplain := (schema M).plain_members (toValue m)
  refine ⟨(schema M).toJson (toValue m), ?_, ?_, ?_⟩
  · have hm : (erase m).refusal? = none := hwilling m
    simp only [write, Outbound.write, hm]
    rfl
  · intro bytes hd
    exact receive_of_unparsed (hd.parse hplain) store
  · intro bytes hs hshort
    have hread : (schema M).ofJson? bytes = some (toValue m) := by
      rw [← Schema.ofJson?_toJson Lawful.apart (toValue m), Schema.ofJson?, Schema.ofJson?,
        hs.parse hplain, Schema.toJson, Tree.parse_render hplain]
    exact receive_of_some hshort (by rw [decode?, hread, Option.map_some, ofValue_toValue]) store

end

end Message

namespace Envelope

/-- A written error response keeps its type whatever becomes of its body. -/
theorem typed_write (s : Status) (r : Response) (bytes : List UInt8) :
    Typed { write s r with body := .ofBytes bytes } :=
  Headers.get?_set_self r.headers .contentType _

/-- A damaged envelope is none. -/
theorem decode_damaged (s : Status) (r : Response) {bytes : List UInt8}
    (hd : Damaged (ofStatus s).render bytes) :
    decode { write s r with body := .ofBytes bytes } =
      ⟨.unavailable, "Received malformed JSON error response", .empty⟩ := by
  apply decode_error (d := .badBody)
  rw [read_typed (typed_write s r bytes), Body.bytes?_ofBytes, Option.bind_some, Tree.parseStrict,
    hd.parse (plain_ofStatus s)]
  rfl

/-- Blanks around an envelope do not count. -/
theorem decode_surrounded (s : Status) (r : Response) {bytes : List UInt8}
    (hs : Surrounded (ofStatus s).render bytes) :
    decode { write s r with body := .ofBytes bytes } = sent s := by
  have hparse : Tree.parseStrict bytes = some (ofStatus s) := by
    rw [Tree.parseStrict, hs.parse (plain_ofStatus s)]
    exact Option.filter_some_pos (isStrict_ofStatus s)
  apply decode_ok
  rw [read_typed (typed_write s r bytes), Body.bytes?_ofBytes, Option.bind_some, hparse]
  exact toStatus_ofStatus s

end Envelope

/-- A body that was cut short, or that got more than blanks behind it, is never taken for data,
neither for a message nor for an envelope. -/
theorem damaged_bodies_refused :
    Message.ReadsWhole Bench.Sample ∧ Message.ReadsWhole Bench.SensorId ∧
    Message.ReadsWhole Bench.Sensor ∧ Message.ReadsWhole Weather.WeatherStationId ∧
    Message.ReadsWhole Weather.WeatherStation ∧
    ∀ (s : Status) (r : Response), ∃ text, (Envelope.write s r).body = .ofBytes text ∧
      (∀ bytes, Damaged text bytes →
        Envelope.decode { Envelope.write s r with body := .ofBytes bytes } =
          ⟨.unavailable, "Received malformed JSON error response", .empty⟩) ∧
      ∀ bytes, Surrounded text bytes →
        Envelope.decode { Envelope.write s r with body := .ofBytes bytes } =
          Envelope.decode (Envelope.write s r) := by
  refine ⟨Message.readsWhole_of_lawful (fun _ => rfl), Message.readsWhole_of_lawful (fun _ => rfl),
    Message.readsWhole_of_lawful (fun _ => rfl), Message.readsWhole_of_lawful (fun _ => rfl),
    Message.readsWhole_of_lawful (fun _ => rfl), ?_⟩
  intro s r
  refine ⟨(Envelope.ofStatus s).render, rfl, ?_, ?_⟩
  · intro bytes hd
    exact Envelope.decode_damaged s r hd
  · intro bytes hs
    rw [Envelope.decode_surrounded s r hs, Envelope.decode_sent]

end UnaryRpc
