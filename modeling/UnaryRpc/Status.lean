import UnaryRpc.Status.WireCode
import UnaryRpc.Table
import UnaryRpc.Text.Inspect

namespace UnaryRpc

/-- A failure of a call. -/
structure Status where
  code : Code
  message : String
  metadata : Table String := .empty
deriving DecidableEq

namespace Status

def overrideKey : String := "twirp_status"

/-- Binds a metadata key; the last value written stands. -/
def set (s : Status) (key value : String) : Status :=
  { s with metadata := s.metadata.insert key value }

/-- Overrides the wire text. -/
def withOverride (s : Status) (text : String) : Status :=
  s.set overrideKey text

/-- The overriding wire text, if there is one. -/
def override? (s : Status) : Option String :=
  s.metadata.get? overrideKey

/-- The wire text and the HTTP status: an override is looked up by its text, and without one the code
has a row of its own. -/
def wire (s : Status) : String × Nat :=
  match s.override? with
  | some text => (text, WireCode.httpStatusOf text)
  | none => WireCode.publicOf s.code

def wireText (s : Status) : String := s.wire.1

def httpStatus (s : Status) : Nat := s.wire.2

/-- The wire text is the override, or the text that belongs to the code. -/
theorem wireText_eq (s : Status) : s.wireText = s.override?.getD (WireCode.ofCode s.code) := by
  rw [wireText, wire]
  cases s.override? <;> rfl

/-- With or without an override, the HTTP status is that of the wire text. -/
theorem httpStatus_eq (s : Status) : s.httpStatus = WireCode.httpStatusOf s.wireText := by
  rw [httpStatus, wireText, wire]
  cases s.override? with
  | some text => rfl
  | none => exact (WireCode.httpStatusOf_ofCode s.code).symm

def malformed (message : String) : Status :=
  withOverride ⟨.invalidArgument, message, .empty⟩ "malformed"

/-- A path that names no method. -/
def badRoute (message : String) : Status :=
  withOverride ⟨.unimplemented, message, .empty⟩ "bad_route"

/-- One line with code and message. -/
def summary (s : Status) : String :=
  s.code.label ++ ": " ++ s.message

def inspect (s : Status) : String :=
  Inspect.record "Status"
    [("code", s.code.label), ("message", Inspect.quoted s.message),
     ("metadata", Inspect.set (s.metadata.entries.map (fun e =>
        Inspect.quoted e.1 ++ ": " ++ Inspect.quoted e.2)))]

end Status

/-- Something done to a state, which may fail with a status. A failure keeps the changes made
before it. -/
abbrev Action (S : Type) (α : Type) := ExceptT Status (StateM S) α

/-- The outcome of an action and the state after it. -/
def Action.outcome {S α : Type} (a : Action S α) (s : S) : Except Status α × S := a s

/-- Does something that does not fail itself: its answer is the outcome. -/
def Action.attempt {S α : Type} (a : Action S α) : Action S (Except Status α) := fun s =>
  let (result, s) := a.outcome s
  (.ok result, s)

end UnaryRpc
