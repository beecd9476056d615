import UnaryRpc.Proofs.Message.Body

namespace UnaryRpc

open Json Protobuf

theorem Protobuf.writeVarint_small {n : Nat} (h : n < 128) : writeVarint n = [n.toUInt8] := by
  rw [writeVarint, if_pos h]

namespace Scalar

/-- A field that has its initial value is not written. -/
theorem payloads_initial (kind : Scalar) : kind.payloads kind.initial = [] := by
  cases kind <;> rfl

end Scalar

namespace Schema

/-- Contents of which nothing is given are written without records. -/
theorem records_initial (s : Schema) : s.records s.initial = [] := by
  induction s with
  | nil => rfl
  | field label kind rest ih =>
    rw [initial, records, kind.payloads_initial, ih]
    rfl
  | message label inner rest _ ih =>
    rw [initial, records, ih]

/-- A message inside that is present without anything is written as a record of length zero. One
that is absent is not written. -/
theorem toBinary_present (label : Label) (inner rest : Schema) (vs : rest.Value) :
    (Schema.message label inner rest).toBinary (some inner.initial, vs) =
      writeVarint (8 * label.number + 2) ++
        0 :: (Schema.message label inner rest).toBinary (none, vs) := by
  have hrecords : (Schema.message label inner rest).records (some inner.initial, vs) =
      ⟨label.number, .chunk []⟩ :: rest.records vs := by
    rw [records, records_initial]
    rfl
  have hzero : writeVarint 0 = [0] := writeVarint_small (by decide)
  unfold toBinary
  rw [hrecords, writeRecords, List.flatMap_cons, Record.write, Payload.write, List.length_nil,
    hzero, List.append_assoc]
  rfl

end Schema

namespace Message

/-- A message type whose binary form carries every message, with an arena and without. -/
def BinaryFaithful (M : Type) [Message M] : Prop :=
  ∀ (m : M) (store : Store), ∃ body, write .protobuf m = .ok body ∧
    (body.length < 0x7fffffff →
      (receive .protobuf (.ofBytes body)).outcome store =
        (.ok ⟨if store.isSome then .bound else .independent, m⟩,
          store.map (fun arena => arena.alloc (erase m))))

theorem binaryFaithful_of_lawful {M : Type} [Message M] [Lawful M] : BinaryFaithful M :=
  faithful_of_lawful (fun _ => ⟨_, rfl⟩)

/-- The binary forms of all message types carry every message, and a message inside that is present
without anything is not taken for one that is absent. -/
theorem receive_written :
    BinaryFaithful Bench.Sample ∧ BinaryFaithful Bench.SensorId ∧ BinaryFaithful Bench.Sensor ∧
    BinaryFaithful Weather.WeatherStationId ∧ BinaryFaithful Weather.WeatherStation ∧
    (∀ contextData : String,
      write .protobuf (⟨some ⟨""⟩, contextData⟩ : Bench.Sensor) =
        (write .protobuf (⟨none, contextData⟩ : Bench.Sensor)).map (0x0a :: 0x00 :: ·)) ∧
    (∀ (kind : Int32) (name contextData : String),
      write .protobuf (⟨some ⟨""⟩, kind, name, contextData⟩ : Weather.WeatherStation) =
        (write .protobuf (⟨none, kind, name, contextData⟩ : Weather.WeatherStation)).map
          (0x0a :: 0x00 :: ·)) := by
  refine ⟨binaryFaithful_of_lawful, binaryFaithful_of_lawful, binaryFaithful_of_lawful,
    binaryFaithful_of_lawful, binaryFaithful_of_lawful, ?_, ?_⟩
  · intro contextData
    have hpresent := Schema.toBinary_present ⟨"sensorId", 1, false⟩ Bench.SensorId.schema
      (.field ⟨"contextData", 2, false⟩ .text .nil) (contextData, ())
    rw [writeVarint_small (by decide)] at hpresent
    exact congrArg Except.ok hpresent
  · intro kind name contextData
    have hpresent := Schema.toBinary_present ⟨"wsId", 1, false⟩ Weather.WeatherStationId.schema
      (.field ⟨"kind", 2, false⟩ .int32 (.field ⟨"name", 3, false⟩ .text
        (.field ⟨"contextData", 4, false⟩ .text .nil))) (kind, name, contextData, ())
    rw [writeVarint_small (by decide)] at hpresent
    exact congrArg Except.ok hpresent

end Message

namespace Schema

/-- A message inside is written behind the name of its field: as null if it is absent, and as it is
written by itself if it is present. What stands behind it is the same. -/
theorem toJson_message (label : Label) (inner rest : Schema) (vs : rest.Value) :
    ∃ behind, (Schema.message label inner rest).toJson (none, vs) =
        0x7b :: (Tree.ofText label.name).render ++ 0x3a :: Tree.null.render ++ behind ∧
      ∀ m, (Schema.message label inner rest).toJson (some m, vs) =
        0x7b :: (Tree.ofText label.name).render ++ 0x3a :: inner.toJson m ++ behind := by
  refine ⟨(Tree.memberTokens (rest.members vs)).flatMap Token.render, ?_, ?_⟩
  · simp [toJson, members, Tree.render, Tree.ofText, Tree.tokens, Token.render]
  · intro m
    simp [toJson, members, Tree.render, Tree.ofText, Tree.tokens, Token.render]

end Schema

namespace Message

/-- The JSON forms of all message types carry every message; a message inside that is absent is
written as null, and one that is present as its own form. -/
theorem receive_json_written :
    Faithful .json Bench.Sample ∧ Faithful .json Bench.SensorId ∧ Faithful .json Bench.Sensor ∧
    Faithful .json Weather.WeatherStationId ∧ Faithful .json Weather.WeatherStation ∧
    (∀ contextData : String, ∃ behind,
      write .json (⟨none, contextData⟩ : Bench.Sensor) =
        .ok (Text.bytes "\x7b\"sensorId\":null" ++ behind) ∧
      ∀ id : Bench.SensorId, write .json (⟨some id, contextData⟩ : Bench.Sensor) =
        (write .json id).map (fun form => Text.bytes "\x7b\"sensorId\":" ++ form ++ behind)) ∧
    (∀ (kind : Int32) (name contextData : String), ∃ behind,
      write .json (⟨none, kind, name, contextData⟩ : Weather.WeatherStation) =
        .ok (Text.bytes "\x7b\"wsId\":null" ++ behind) ∧
      ∀ id : Weather.WeatherStationId,
        write .json (⟨some id, kind, name, contextData⟩ : Weather.WeatherStation) =
          (write .json id).map (fun form => Text.bytes "\x7b\"wsId\":" ++ form ++ behind)) := by
  have hwrites {M : Type} [Message M] (h : ∀ m : M, refusal? m = none) (m : M) :
      ∃ body, write .json m = .ok body := write_willing (h m) .json
  refine ⟨faithful_of_lawful (hwrites (fun _ => rfl)), faithful_of_lawful (hwrites (fun _ => rfl)),
    faithful_of_lawful (hwrites (fun _ => rfl)), faithful_of_lawful (hwrites (fun _ => rfl)),
    faithful_of_lawful (hwrites (fun _ => rfl)), ?_, ?_⟩
  · intro contextData
    obtain ⟨behind, habsent, hpresent⟩ := Schema.toJson_message ⟨"sensorId", 1, false⟩
      Bench.SensorId.schema (.field ⟨"contextData", 2, false⟩ .text .nil) (contextData, ())
    exact ⟨behind, congrArg Except.ok habsent, fun id => congrArg Except.ok (hpresent (toValue id))⟩
  · intro kind name contextData
    obtain ⟨behind, habsent, hpresent⟩ := Schema.toJson_message ⟨"wsId", 1, false⟩
      Weather.WeatherStationId.schema (.field ⟨"kind", 2, false⟩ .int32
        (.field ⟨"name", 3, false⟩ .text (.field ⟨"contextData", 4, false⟩ .text .nil)))
      (kind, name, contextData, ())
    exact ⟨behind, congrArg Except.ok habsent, fun id => congrArg Except.ok (hpresent (toValue id))⟩

end Message

end UnaryRpc
