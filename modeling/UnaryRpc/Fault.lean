import UnaryRpc.Encoding
import UnaryRpc.Http.Uri
import UnaryRpc.Json.Complaint
import UnaryRpc.Status

namespace UnaryRpc

/-- Why a request was not delivered: its connection failed, or it could not be made. -/
inductive DeliveryFault where
  | connection (reason : String)
  | request (reason : String)
deriving DecidableEq

namespace DeliveryFault

def message : DeliveryFault → String
  | connection reason => "IO failure: " ++ reason
  | request reason => "Bad request: " ++ reason

/-- An address that cannot be read. -/
def address (fault : Http.UriFault) : DeliveryFault := .request fault.message

/-- A status that is none of HTTP. -/
def statusCode : DeliveryFault := .request "invalid status code"

end DeliveryFault

/-- A failure found by the runtime. -/
inductive Fault where
  | unsupportedMethod (method : String)
  | unknownRoute
  | unknownEncoding
  | oversizedBody (length limit : Nat)
  | oversizedMessage
  | undecodable (encoding : Encoding)
  | unwritable (complaint : Json.Complaint)
  | unknownMethod (service method : String)
  | headerName
  | headerValue
  | undelivered (cause : DeliveryFault)
deriving DecidableEq

def Fault.status : Fault → Status
  | unsupportedMethod method => .badRoute ("Unsupported method " ++ method)
  | unknownRoute => .badRoute "Method not found"
  | unknownEncoding => .malformed "Unknown message encoding"
  | oversizedBody length limit =>
    { code := .outOfRange
      message := "Request body of " ++ toString length ++ " bytes is larger than " ++
        toString limit }
  | oversizedMessage => { code := .outOfRange, message := "Argument size is too large" }
  | undecodable .protobuf => .malformed "Can't deserialize binary request"
  | undecodable .json => .malformed "Can't deserialize JSON request"
  | unwritable complaint =>
    { code := .invalidArgument
      message := "Failed to serialize the message: " ++ complaint.text }
  | unknownMethod service method => .badRoute (service ++ " has no method " ++ method)
  | headerName =>
    { code := .invalidArgument, message := "bad header name: invalid HTTP header name" }
  | headerValue =>
    { code := .invalidArgument, message := "bad header value: failed to parse header value" }
  | undelivered cause => { code := .unavailable, message := cause.message }

end UnaryRpc
