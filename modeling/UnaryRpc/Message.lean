import UnaryRpc.Fault
import UnaryRpc.Http.Message
import UnaryRpc.Message.Binary
import UnaryRpc.Message.Structured
import UnaryRpc.Ownership.Arena

namespace UnaryRpc

/-- A message type. Its values are in one-to-one correspondence with the contents of its schema. A
value may refuse to be written as JSON, with the wording of a complaint. -/
class Message (M : Type) where
  name : String
  schema : Schema
  toValue : M → schema.Value
  ofValue : schema.Value → M
  ofValue_toValue : ∀ m, ofValue (toValue m) = m
  toValue_ofValue : ∀ v, toValue (ofValue v) = v
  refusal? : M → Option String := fun _ => none

/-- A message whose type is left open. It can still be written. -/
structure Outbound where
  name : String
  schema : Schema
  value : schema.Value
  refusal? : Option String := none

def Outbound.write (encoding : Encoding) (o : Outbound) : Except Fault (List UInt8) :=
  match encoding with
  | .protobuf => .ok (o.schema.toBinary o.value)
  | .json =>
    match o.refusal? with
    | some wording => .error (.unwritable (.ofText wording))
    | none => .ok (o.schema.toJson o.value)

namespace Message

variable {M : Type} [Message M]

def erase (m : M) : Outbound :=
  { name := name M, schema := schema M, value := toValue m, refusal? := refusal? m }

def write (encoding : Encoding) (m : M) : Except Fault (List UInt8) :=
  (erase m).write encoding

/-- The least length of a body that is too long to be read. -/
def lengthBound : Nat := 0x7fffffff

/-- The message that bytes spell in an encoding. -/
def decode? (encoding : Encoding) (bytes : List UInt8) : Option M :=
  match encoding with
  | .protobuf => ((schema M).ofBinary? bytes).map ofValue
  | .json => ((schema M).ofJson? bytes).map ofValue

def read (encoding : Encoding) (body : Http.Body) : Except Fault M :=
  if lengthBound ≤ body.length then .error .oversizedMessage
  else
    match body.bytes?.bind (decode? encoding) with
    | some m => .ok m
    | none => .error (.undecodable encoding)

/-- The arena that a call may allocate messages in. -/
abbrev Store := Option (Arena Outbound)

/-- Allocates a message where a store says. -/
def newIn (store : Store) (m : M) : Owned M × Store :=
  match store with
  | some arena => (⟨.bound, m⟩, some (arena.alloc (erase m)))
  | none => (.independent m, none)

/-- Reads a message from a body and allocates it. -/
def receive (encoding : Encoding) (body : Http.Body) : Action Store (Owned M) :=
  match read encoding body with
  | .error fault => throw fault.status
  | .ok m => modifyGet (fun store => newIn store m)

end Message

end UnaryRpc
