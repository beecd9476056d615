import UnaryRpc.Status.Code

namespace UnaryRpc

/-- A code that stands for failures on the wire. One that is reserved for the runtime shares its
abstract code with a public one. -/
structure WireCode where
  text : String
  httpStatus : Nat
  code : Code
  reserved : Bool := false
deriving DecidableEq

namespace WireCode

def table : List WireCode :=
  [⟨"canceled", 408, .cancelled, false⟩,
   ⟨"unknown", 500, .unknown, false⟩,
   ⟨"invalid_argument", 400, .invalidArgument, false⟩,
   ⟨"malformed", 400, .invalidArgument, true⟩,
   ⟨"deadline_exceeded", 408, .deadlineExceeded, false⟩,
   ⟨"not_found", 404, .notFound, false⟩,
   ⟨"bad_route", 404, .unimplemented, true⟩,
   ⟨"already_exists", 409, .alreadyExists, false⟩,
   ⟨"permission_denied", 403, .permissionDenied, false⟩,
   ⟨"unauthenticated", 401, .unauthenticated, false⟩,
   ⟨"resource_exhausted", 429, .resourceExhausted, false⟩,
   ⟨"failed_precondition", 412, .failedPrecondition, false⟩,
   ⟨"aborted", 409, .aborted, false⟩,
   ⟨"out_of_range", 400, .outOfRange, false⟩,
   ⟨"unimplemented", 501, .unimplemented, false⟩,
   ⟨"internal", 500, .internal, false⟩,
   ⟨"unavailable", 503, .unavailable, false⟩,
   ⟨"dataloss", 500, .dataLoss, false⟩]

/-- The row of a wire text. -/
def find? (text : String) : Option WireCode :=
  table.find? (fun w => w.text == text)

/-- The abstract code of a wire text; an unregistered text is an unknown failure. -/
def codeOf (text : String) : Code :=
  ((find? text).map WireCode.code).getD .unknown

/-- The HTTP status of a wire text; an unregistered text is a server error. -/
def httpStatusOf (text : String) : Nat :=
  ((find? text).map WireCode.httpStatus).getD 500

/-- The wire text and the HTTP status of an abstract code, both from its public row. A code without
one is an unknown failure. -/
def publicOf (code : Code) : String × Nat :=
  ((table.find? (fun w => !w.reserved && w.code == code)).map
    (fun w => (w.text, w.httpStatus))).getD ("unknown", 500)

/-- The wire text of an abstract code. -/
def ofCode (code : Code) : String := (publicOf code).1

/-- The row of a code and the row of its wire text have one HTTP status. -/
theorem httpStatusOf_ofCode (code : Code) : httpStatusOf (ofCode code) = (publicOf code).2 := by
  cases code <;> rfl

end WireCode

end UnaryRpc
