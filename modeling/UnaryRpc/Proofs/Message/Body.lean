import UnaryRpc.Bench.Messages
import UnaryRpc.Message
import UnaryRpc.Proofs.Message.Binary
import UnaryRpc.Proofs.Message.Structured
import UnaryRpc.Weather.Messages

namespace UnaryRpc

namespace Message

/-- A message type whose fields can be told apart and do not nest too deeply. -/
class Lawful (M : Type) [Message M] : Prop where
  apart : (schema M).Lawful
  shallow : (schema M).depth ≤ Schema.maxDepth

section

variable {M : Type} [Message M]

theorem write_willing {m : M} (h : refusal? m = none) (e : Encoding) :
    ∃ bytes, write e m = .ok bytes := by
  cases e with
  | protobuf => exact ⟨_, rfl⟩
  | json =>
    have hwilling : (erase m).refusal? = none := h
    refine ⟨(erase m).schema.toJson (erase m).value, ?_⟩
    simp only [write, Outbound.write, hwilling]

variable [Lawful M] {e : Encoding} {m : M} {bytes : List UInt8}

theorem decode?_written (hwrite : write e m = .ok bytes)
    (hlen : bytes.length < 0x10000000000000000) : decode? e bytes = some m := by
  cases e with
  | protobuf =>
    obtain rfl := Except.ok.inj hwrite
    have hread := Schema.ofBinary?_toBinary Lawful.apart Lawful.shallow (toValue m) hlen
    simp only [decode?, erase, hread, Option.map_some, ofValue_toValue]
  | json =>
    have hread := Schema.ofJson?_toJson Lawful.apart (toValue m)
    simp only [write, Outbound.write] at hwrite
    split at hwrite
    · cases hwrite
    · obtain rfl := Except.ok.inj hwrite
      simp only [decode?, erase, hread, Option.map_some, ofValue_toValue]

/-- What is written is read back, unless it is too long. -/
theorem read_written (hwrite : write e m = .ok bytes) :
    read e (.ofBytes bytes) =
      if lengthBound ≤ bytes.length then .error .oversizedMessage else .ok m := by
  rw [read, Http.Body.length_ofBytes]
  split
  · rfl
  · rename_i h
    have hlen : bytes.length < 0x10000000000000000 := Nat.lt_trans (Nat.lt_of_not_le h) (by decide)
    rw [Http.Body.bytes?_ofBytes, Option.bind_some, decode?_written hwrite hlen]

end

/-- How a message that was read is handed over: in the arena of the store, if it has one. -/
def delivered {M : Type} [Message M] (store : Store) (m : M) : Except Status (Owned M) × Store :=
  (.ok ⟨if store.isSome then .bound else .independent, m⟩,
    store.map (fun arena => arena.alloc (erase m)))

theorem receive_of_decode {M : Type} [Message M] {e : Encoding} {body : List UInt8}
    (hlen : body.length < lengthBound) (store : Store) :
    ((receive e (.ofBytes body) : Action Store (Owned M)).outcome store) =
      match decode? (M := M) e body with
      | some m => delivered store m
      | none => (.error (Fault.undecodable e).status, store) := by
  have hshort : ¬lengthBound ≤ (Http.Body.ofBytes body).length := by
    rw [Http.Body.length_ofBytes]
    omega
  rw [receive, read, if_neg hshort, Http.Body.bytes?_ofBytes, Option.bind_some]
  cases decode? (M := M) e body with
  | none => rfl
  | some m => cases store <;> rfl

theorem receive_of_some {M : Type} [Message M] {e : Encoding} {body : List UInt8}
    (hlen : body.length < lengthBound) {m : M} (h : decode? e body = some m) (store : Store) :
    ((receive e (.ofBytes body) : Action Store (Owned M)).outcome store) = delivered store m := by
  rw [receive_of_decode hlen, h]

theorem receive_of_none {M : Type} [Message M] {e : Encoding} {body : List UInt8}
    (hlen : body.length < lengthBound) (h : decode? (M := M) e body = none) (store : Store) :
    ((receive e (.ofBytes body) : Action Store (Owned M)).outcome store) =
      (.error (Fault.undecodable e).status, store) := by
  rw [receive_of_decode hlen, h]

/-- A message type whose bodies in an encoding carry every message, with an arena and without. -/
def Faithful (e : Encoding) (M : Type) [Message M] : Prop :=
  ∀ (m : M) (store : Store), ∃ body, write e m = .ok body ∧
    (body.length < 0x7fffffff →
      (receive e (.ofBytes body)).outcome store =
        (.ok ⟨if store.isSome then .bound else .independent, m⟩,
          store.map (fun arena => arena.alloc (erase m))))

theorem faithful_of_lawful {M : Type} [Message M] [Lawful M] {e : Encoding}
    (hwrites : ∀ m : M, ∃ body, write e m = .ok body) : Faithful e M := by
  intro m store
  obtain ⟨body, hwrite⟩ := hwrites m
  refine ⟨body, hwrite, ?_⟩
  intro hlen
  have hread := read_written hwrite
  have hshort : ¬lengthBound ≤ body.length := Nat.not_le.mpr hlen
  rw [if_neg hshort] at hread
  rw [receive, hread]
  cases store with
  | none => rfl
  | some arena => rfl

end Message

instance : Message.Lawful Bench.Note where
  apart := by decide
  shallow := by decide

instance : Message.Lawful Bench.Picky where
  apart := by decide
  shallow := by decide

instance : Message.Lawful Bench.SensorId where
  apart := by decide
  shallow := by decide

instance : Message.Lawful Bench.Sensor where
  apart := by decide
  shallow := by decide

instance : Message.Lawful Bench.Sample where
  apart := by decide
  shallow := by decide

instance : Message.Lawful Weather.WeatherStationId where
  apart := by decide
  shallow := by decide

instance : Message.Lawful Weather.WeatherStation where
  apart := by decide
  shallow := by decide

end UnaryRpc
