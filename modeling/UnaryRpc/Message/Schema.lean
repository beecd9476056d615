namespace UnaryRpc

/-- What a field of its own holds. -/
inductive Scalar where
  | text
  | uint64
  | int32
  | texts
deriving DecidableEq

abbrev Scalar.Value : Scalar → Type
  | .text => String
  | .uint64 => UInt64
  | .int32 => Int32
  | .texts => List String

/-- The value of a field that is not given. -/
def Scalar.initial : (k : Scalar) → k.Value
  | .text => ""
  | .uint64 => 0
  | .int32 => 0
  | .texts => []

/-- How a field is called: by name in structured text, by number in binary form. A required field
has to be given in structured text. -/
structure Label where
  name : String
  number : Nat
  required : Bool := false
deriving DecidableEq

/-- The fields of a message. A field holds a value of its own or, optionally, a message. -/
inductive Schema where
  | nil
  | field (label : Label) (kind : Scalar) (rest : Schema)
  | message (label : Label) (inner : Schema) (rest : Schema)
deriving DecidableEq

namespace Schema

/-- The contents of a message. -/
def Value : Schema → Type
  | .nil => Unit
  | .field _ kind rest => kind.Value × rest.Value
  | .message _ inner rest => Option inner.Value × rest.Value

/-- The contents of a message of which nothing is given. -/
def initial : (s : Schema) → s.Value
  | .nil => ()
  | .field _ kind rest => (kind.initial, rest.initial)
  | .message _ _ rest => (none, rest.initial)

/-- The labels of the fields, in order. -/
def labels : Schema → List Label
  | .nil => []
  | .field label _ rest => label :: rest.labels
  | .message label _ rest => label :: rest.labels

end Schema

end UnaryRpc
