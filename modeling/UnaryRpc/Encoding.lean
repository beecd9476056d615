namespace UnaryRpc

/-- How a message body is encoded. -/
inductive Encoding where
  | protobuf
  | json
deriving DecidableEq, Repr

namespace Encoding

/-- The content type of bodies in an encoding. -/
def contentType : Encoding → String
  | protobuf => "application/protobuf"
  | json => "application/json"

/-- The encoding that a content type names. The name has to be exact, without parameters. -/
def ofContentType? (s : String) : Option Encoding :=
  if s = protobuf.contentType then some protobuf
  else if s = json.contentType then some json
  else none

def inspect : Encoding → String
  | protobuf => "Protobuf"
  | json => "Json"

theorem ofContentType?_contentType (e : Encoding) : ofContentType? e.contentType = some e := by
  cases e <;> rfl

end Encoding

end UnaryRpc
