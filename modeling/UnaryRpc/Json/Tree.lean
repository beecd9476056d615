import UnaryRpc.Json.Token

namespace UnaryRpc.Json

/-- A JSON value. Numerals and quoted texts are kept as they are spelled. -/
inductive Tree where
  | null
  | bool (b : Bool)
  | number (n : Numeral)
  | text (raw : RawText)
  | array (items : List Tree)
  | object (members : List (RawText × Tree))

namespace Tree

/-- A quoted text in its preferred spelling. -/
def ofText (s : String) : Tree :=
  .text (RawText.ofText s)

mutual
def tokens : Tree → List Token
  | .null => [.null]
  | .bool b => [.bool b]
  | .number n => [.number n]
  | .text raw => [.text raw]
  | .array [] => [.openArray, .closeArray]
  | .array (t :: ts) => .openArray :: (tokens t ++ itemTokens ts)
  | .object [] => [.openObject, .closeObject]
  | .object ((k, t) :: ms) => .openObject :: .text k :: .colon :: (tokens t ++ memberTokens ms)

/-- The tokens of further items, up to the end of their array. -/
def itemTokens : List Tree → List Token
  | [] => [.closeArray]
  | t :: ts => .comma :: (tokens t ++ itemTokens ts)

/-- The tokens of further members, up to the end of their object. -/
def memberTokens : List (RawText × Tree) → List Token
  | [] => [.closeObject]
  | (k, t) :: ms => .comma :: .text k :: .colon :: (tokens t ++ memberTokens ms)
end

def render (t : Tree) : List UInt8 :=
  t.tokens.flatMap Token.render

def text? : Tree → Option String
  | .text raw => raw.text?
  | _ => none

/-- The members of an object, if all its keys are legible. -/
def members? : Tree → Option (List (String × Tree))
  | .object members => members.mapM (fun m => m.1.text?.map (fun key => (key, m.2)))
  | _ => none

/-- The last member of an object under a key. -/
def member? (t : Tree) (key : String) : Option Tree :=
  t.members?.bind (fun ms => (ms.reverse.find? (fun m => m.1 == key)).map Prod.snd)

end Tree

/-- An array or object that is still open, with what it has so far in reverse. An object waits for
the value of a key. -/
inductive Frame where
  | array (items : List Tree)
  | object (members : List (RawText × Tree)) (key : RawText)

/-- What has to come next. -/
inductive Expect where
  | value
  | firstItem
  | itemEnd (items : List Tree)
  | firstKey
  | key (members : List (RawText × Tree))
  | colon (members : List (RawText × Tree)) (key : RawText)
  | memberEnd (members : List (RawText × Tree))
  | done (t : Tree)

/-- A value under assembly: what is still open, innermost first, and what has to come next. -/
structure Builder where
  opened : List Frame := []
  expect : Expect := .value

namespace Builder

/-- Goes on after a whole value. -/
def complete (opened : List Frame) (t : Tree) : Builder :=
  match opened with
  | [] => ⟨[], .done t⟩
  | .array items :: rest => ⟨rest, .itemEnd (t :: items)⟩
  | .object members key :: rest => ⟨rest, .memberEnd ((key, t) :: members)⟩

/-- Takes the first token of a value. -/
def start (opened : List Frame) : Token → Option Builder
  | .null => some (complete opened .null)
  | .bool b => some (complete opened (.bool b))
  | .number n => some (complete opened (.number n))
  | .text raw => some (complete opened (.text raw))
  | .openArray => some ⟨opened, .firstItem⟩
  | .openObject => some ⟨opened, .firstKey⟩
  | _ => none

def step (b : Builder) (t : Token) : Option Builder :=
  match b.expect with
  | .value => start b.opened t
  | .firstItem =>
    match t with
    | .closeArray => some (complete b.opened (.array []))
    | t => start (.array [] :: b.opened) t
  | .itemEnd items =>
    match t with
    | .comma => some ⟨.array items :: b.opened, .value⟩
    | .closeArray => some (complete b.opened (.array items.reverse))
    | _ => none
  | .firstKey =>
    match t with
    | .closeObject => some (complete b.opened (.object []))
    | .text k => some ⟨b.opened, .colon [] k⟩
    | _ => none
  | .key members =>
    match t with
    | .text k => some ⟨b.opened, .colon members k⟩
    | _ => none
  | .colon members key =>
    match t with
    | .colon => some ⟨.object members key :: b.opened, .value⟩
    | _ => none
  | .memberEnd members =>
    match t with
    | .comma => some ⟨b.opened, .key members⟩
    | .closeObject => some (complete b.opened (.object members.reverse))
    | _ => none
  | .done _ => none

def run (b : Builder) : List Token → Option Builder
  | [] => some b
  | t :: ts =>
    match b.step t with
    | none => none
    | some b => b.run ts

/-- The value, if it is whole. -/
def finish (b : Builder) : Option Tree :=
  match b.expect with
  | .done t => some t
  | _ => none

end Builder

def Tree.ofTokens? (ts : List Token) : Option Tree :=
  (Builder.run {} ts).bind Builder.finish

def Tree.parse (bytes : List UInt8) : Option Tree :=
  (tokens? bytes).bind Tree.ofTokens?

namespace Tree

/-- The deepest nesting of a value that is taken whole. -/
def maxDepth : Nat := 127

mutual
/-- Whether a value can be taken whole within a depth. -/
def isStrict (depth : Nat) : Tree → Bool
  | .null => true
  | .bool _ => true
  | .number n => n.isFinite
  | .text raw => raw.text?.isSome
  | .array items => depth != 0 && itemsStrict (depth - 1) items
  | .object members => depth != 0 && membersStrict (depth - 1) members

def itemsStrict (depth : Nat) : List Tree → Bool
  | [] => true
  | t :: ts => isStrict depth t && itemsStrict depth ts

def membersStrict (depth : Nat) : List (RawText × Tree) → Bool
  | [] => true
  | (k, t) :: ms => k.text?.isSome && isStrict depth t && membersStrict depth ms
end

/-- The value that a text spells, if it can be taken whole. -/
def parseStrict (bytes : List UInt8) : Option Tree :=
  (parse bytes).filter (isStrict maxDepth)

end Tree

end UnaryRpc.Json
