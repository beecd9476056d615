import UnaryRpc.Http.Headers
import UnaryRpc.Http.Uri

namespace UnaryRpc.Http

/-- A body. One that lacks announced bytes has their length but cannot be read. -/
structure Body where
  received : List UInt8
  missing : Nat := 0
deriving DecidableEq, Inhabited

namespace Body

def ofBytes (bytes : List UInt8) : Body := ⟨bytes, 0⟩

def empty : Body := ofBytes []

def length (b : Body) : Nat := b.received.length + b.missing

/-- The bytes of a body that arrived whole. -/
def bytes? (b : Body) : Option (List UInt8) :=
  if b.missing = 0 then some b.received else none

@[simp] theorem bytes?_ofBytes (bytes : List UInt8) : (ofBytes bytes).bytes? = some bytes := rfl

@[simp] theorem length_ofBytes (bytes : List UInt8) : (ofBytes bytes).length = bytes.length := rfl

end Body

structure Request where
  method : String
  uri : Uri
  headers : Headers
  body : Body
deriving DecidableEq

structure Response where
  status : Nat := 200
  headers : Headers := .empty
  body : Body := .empty
deriving DecidableEq, Inhabited

def Response.isSuccess (r : Response) : Bool :=
  200 ≤ r.status && r.status < 300

end UnaryRpc.Http
