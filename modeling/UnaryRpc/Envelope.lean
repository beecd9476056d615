import UnaryRpc.Encoding
import UnaryRpc.Http.Message
import UnaryRpc.Json.Tree
import UnaryRpc.Status

namespace UnaryRpc.Envelope

open Http Json

/-- Why a response carries no readable envelope. -/
inductive Defect where
  | otherType
  | badBody
  | noCode
  | noMessage
  | badMetadata
deriving DecidableEq

def Defect.message : Defect → String
  | otherType => "Expected 'application/json' content type for error data"
  | badBody => "Received malformed JSON error response"
  | noCode => "Expected 'code' entry"
  | noMessage => "Expected 'msg' entry"
  | badMetadata => "Only strings are accepted as metadata"

def Defect.status (d : Defect) : Status :=
  { code := .unavailable, message := d.message }

/-- The metadata that crosses the wire: all but the override. -/
def sentMetadata (s : Status) : Table String :=
  s.metadata.erase Status.overrideKey

/-- The message that crosses the wire; an empty one gives way to the wire text. -/
def sentMessage (s : Status) : String :=
  if s.message = "" then s.wireText else s.message

/-- The envelope of a status. Without metadata it has no member for it. -/
def ofStatus (s : Status) : Tree :=
  let members := (sentMetadata s).entries.map (fun e => (RawText.ofText e.1, Tree.ofText e.2))
  .object ([(RawText.ofText "code", .ofText s.wireText),
      (RawText.ofText "msg", .ofText (sentMessage s))] ++
    if members.isEmpty then [] else [(RawText.ofText "meta", .object members)])

/-- The HTTP status and the body of an error response. Writing an object of texts cannot fail, so no
body stands in for an envelope that could not be written. -/
def encode (s : Status) : Nat × List UInt8 :=
  (s.httpStatus, (ofStatus s).render)

/-- Turns a response into the error response for a status. Other headers stay. -/
def write (s : Status) (r : Response) : Response :=
  let (status, body) := encode s
  { status
    headers := r.headers.set .contentType (Text.bytes Encoding.json.contentType)
    body := .ofBytes body }

/-- Adds the members of an envelope's metadata to a status, the last member of a key standing. -/
def addMetadata (s : Status) (members : List (String × Tree)) : Except Defect Status :=
  (Table.ofList members).entries.foldlM (fun s e =>
    match e.2.text? with
    | some value => .ok (s.set e.1 value)
    | none => .error .badMetadata) s

/-- The status that an envelope carries. Metadata that is no object is passed over. -/
def toStatus (root : Tree) : Except Defect Status := do
  let code ← ((root.member? "code").bind Tree.text?).elim (.error .noCode) .ok
  let message ← ((root.member? "msg").bind Tree.text?).elim (.error .noMessage) .ok
  let s : Status := { code := WireCode.codeOf code, message }
  match (root.member? "meta").bind Tree.members? with
  | some members => addMetadata s members
  | none => .ok s

/-- The status that an error response carries, or what is wrong with it. -/
def read (r : Response) : Except Defect Status :=
  if r.headers.contentType? ≠ some Encoding.json.contentType then .error .otherType
  else
    match r.body.bytes?.bind Tree.parseStrict with
    | none => .error .badBody
    | some root => toStatus root

/-- The status of an error response. One without a readable envelope is a failure of its own. -/
def decode (r : Response) : Status :=
  match read r with
  | .ok s => s
  | .error d => d.status

end UnaryRpc.Envelope
