import UnaryRpc.Json.Tree
import UnaryRpc.Message.Schema

namespace UnaryRpc

open Json

namespace Scalar

def toTree : (k : Scalar) → k.Value → Tree
  | .text, s => .ofText s
  | .uint64, n => .number (.ofInt n.toNat)
  | .int32, n => .number (.ofInt n.toInt)
  | .texts, l => .array (l.map .ofText)

/-- The integer that a value spells, if it lies in a range. -/
def intWithin? (low high : Int) : Tree → Option Int
  | .number n => n.int?.filter (fun i => low ≤ i && i ≤ high)
  | _ => none

def ofTree? : (k : Scalar) → Tree → Option k.Value
  | .text, t => t.text?
  | .uint64, t => (intWithin? 0 0xffffffffffffffff t).map (fun i => i.toNat.toUInt64)
  | .int32, t => (intWithin? (-0x80000000) 0x7fffffff t).map Int32.ofInt
  | .texts, .array items => items.mapM Tree.text?
  | .texts, _ => none

end Scalar

/-- What a message is read from: named members, or values in order. -/
inductive Given where
  | members (ms : List (String × Tree))
  | items (ts : List Tree)

namespace Given

/-- What a value gives a message. -/
def ofTree? : Tree → Option Given
  | .object ms => (Tree.object ms).members?.map members
  | .array ts => some (items ts)
  | _ => none

/-- The value given for a field, and what is given for others. A member given twice is refused. -/
def take (name : String) : Given → Option (Option Tree × Given)
  | .members ms =>
    match ms.filter (fun m => m.1 == name) with
    | [] => some (none, .members ms)
    | [m] => some (some m.2, .members ms)
    | _ => none
  | .items [] => some (none, .items [])
  | .items (t :: ts) => some (some t, .items ts)

/-- Whether nothing is left that a message without further fields would refuse. -/
def isSpent : Given → Bool
  | .members _ => true
  | .items ts => ts.isEmpty

end Given

namespace Schema

/-- The members that write message contents. -/
def members : (s : Schema) → s.Value → List (RawText × Tree)
  | .nil, _ => []
  | .field label kind rest, (v, vs) =>
    (RawText.ofText label.name, kind.toTree v) :: rest.members vs
  | .message label inner rest, (v, vs) =>
    (RawText.ofText label.name,
      match v with
      | none => .null
      | some m => .object (inner.members m)) :: rest.members vs

def ofGiven? : (s : Schema) → Given → Option s.Value
  | .nil, given => if given.isSpent then some () else none
  | .field label kind rest, given => do
    let (t?, given) ← given.take label.name
    let v ←
      match t? with
      | none => if label.required then none else some kind.initial
      | some t => kind.ofTree? t
    let vs ← rest.ofGiven? given
    some (v, vs)
  | .message label inner rest, given => do
    let (t?, given) ← given.take label.name
    let v ←
      match t? with
      | none => some none
      | some .null => some none
      | some t => ((Given.ofTree? t).bind inner.ofGiven?).map some
    let vs ← rest.ofGiven? given
    some (v, vs)

def toJson (s : Schema) (v : s.Value) : List UInt8 :=
  (Tree.object (s.members v)).render

def ofJson? (s : Schema) (bytes : List UInt8) : Option s.Value :=
  ((Tree.parse bytes).bind Given.ofTree?).bind s.ofGiven?

end Schema

end UnaryRpc
