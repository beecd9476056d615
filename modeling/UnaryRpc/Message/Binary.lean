import UnaryRpc.Message.Schema
import UnaryRpc.Protobuf.Record
import UnaryRpc.Text.Bytes

namespace UnaryRpc

open Protobuf

namespace Scalar

/-- An integer of 32 bits as a number of 64 bits, its sign extended. -/
def signExtend (n : Int32) : Nat :=
  (n.toInt % 0x10000000000000000).toNat

def payloads : (k : Scalar) → k.Value → List Payload
  | .text, s => if s = "" then [] else [.chunk (Text.bytes s)]
  | .uint64, n => if n = 0 then [] else [.varint n.toNat]
  | .int32, n => if n = 0 then [] else [.varint (signExtend n)]
  | .texts, l => l.map (fun s => .chunk (Text.bytes s))

/-- Merges a payload into a value. A single value is replaced, a list goes on. -/
def merge : (k : Scalar) → k.Value → Payload → Option k.Value
  | .text, _, .chunk bytes => Text.ofBytes? bytes
  | .uint64, _, .varint n => some n.toUInt64
  | .int32, _, .varint n => some (Int32.ofInt n)
  | .texts, l, .chunk bytes => (Text.ofBytes? bytes).map (fun s => l ++ [s])
  | _, _, _ => none

end Scalar

namespace Schema

/-- The deepest nesting of groups and messages. -/
def maxDepth : Nat := 100

/-- The records that write message contents. -/
def records : (s : Schema) → s.Value → List Record
  | .nil, _ => []
  | .field label kind rest, (v, vs) =>
    (kind.payloads v).map (fun p => ⟨label.number, p⟩) ++ rest.records vs
  | .message label inner rest, (v, vs) =>
    match v with
    | none => rest.records vs
    | some m => ⟨label.number, .chunk (writeRecords (inner.records m))⟩ :: rest.records vs

def merge : (s : Schema) → (depth : Nat) → s.Value → Record → Option s.Value
  | .nil, depth, _, _ => if depth = 0 then none else some ()
  | .field label kind rest, depth, (v, vs), r =>
    if r.number = label.number then (kind.merge v r.payload).map (fun v => (v, vs))
    else (rest.merge depth vs r).map (fun vs => (v, vs))
  | .message label inner rest, depth, (v, vs), r =>
    if r.number = label.number then
      match depth, r.payload with
      | depth + 1, .chunk bytes => do
        let records ← readRecords bytes
        let records ← outermost depth records
        let m ← records.foldlM (inner.merge depth) (v.getD inner.initial)
        some (some m, vs)
      | _, _ => none
    else (rest.merge depth vs r).map (fun vs => (v, vs))

def toBinary (s : Schema) (v : s.Value) : List UInt8 :=
  writeRecords (s.records v)

def ofBinary? (s : Schema) (bytes : List UInt8) : Option s.Value := do
  let records ← readRecords bytes
  let records ← outermost maxDepth records
  records.foldlM (s.merge maxDepth) s.initial

end Schema

end UnaryRpc
