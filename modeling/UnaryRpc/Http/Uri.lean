namespace UnaryRpc.Http

/-- Why a text is no address. -/
inductive UriFault where
  | tooLong
  | empty
  | character
  | authority
  | format
  | schemeTooLong
deriving DecidableEq, Repr

def UriFault.message : UriFault → String
  | tooLong => "uri too long"
  | empty => "empty string"
  | character => "invalid uri character"
  | authority => "invalid authority"
  | format => "invalid format"
  | schemeTooLong => "scheme too long"

/-- An address, split into its parts as written: nothing is decoded or made canonical, and a fragment
is dropped. -/
structure Uri where
  scheme : Option String := none
  authority : String := ""
  target : String := ""
  query : Option String := none
deriving DecidableEq, Inhabited

namespace Uri

def maxLength : Nat := 65534

def maxScheme : Nat := 64

def maxColons : Nat := 8

def isSchemeChar (c : Char) : Bool :=
  c.isAlphanum || "+-.~".toList.contains c

def isAuthorityChar (c : Char) : Bool :=
  c.isAlphanum || "!$&'()*+,-.:;=@[]_~".toList.contains c

/-- Beyond ASCII every character may stand in a path. The last one of ASCII, a control, may not. -/
def isPathChar (c : Char) : Bool :=
  c.isAlphanum || "!$%&'()*+,-./:;=@[\\]^_|~\"\x7b\x7d".toList.contains c || 128 ≤ c.toNat

def isQueryChar (c : Char) : Bool :=
  isPathChar c && c != '"' || c == '?' || c == '\x60'

def endsAuthority (c : Char) : Bool :=
  c == '/' || c == '?' || c == '#'

/-- The scheme that an address starts with, and what follows it. The mark of a scheme with nothing
around it is none. -/
def splitScheme (cs : List Char) : Except UriFault (Option (List Char) × List Char) :=
  match cs.span isSchemeChar with
  | (name, ':' :: '/' :: '/' :: rest) =>
    if name = [] ∧ rest = [] then .ok (none, cs)
    else if maxScheme < name.length then .error .schemeTooLong
    else .ok (some name, rest)
  | _ => .ok (none, cs)

/-- What is known of an authority after some of its characters. -/
structure AuthorityScan where
  colons : Nat := 0
  opened : Bool := false
  closed : Bool := false
  percent : Bool := false
  lastAt : Bool := false

def AuthorityScan.step (s : AuthorityScan) (c : Char) : Except UriFault AuthorityScan :=
  let s := { s with lastAt := false }
  if c = ':' then
    if maxColons ≤ s.colons then .error .authority else .ok { s with colons := s.colons + 1 }
  else if c = '[' then
    if s.percent || s.opened then .error .authority else .ok { s with opened := true }
  else if c = ']' then
    if !s.opened || s.closed then .error .authority
    else .ok { s with closed := true, colons := 0, percent := false }
  else if c = '@' then .ok { s with colons := 0, percent := false, lastAt := true }
  else if c = '%' then .ok { s with percent := true }
  else if isAuthorityChar c then .ok s
  else .error .character

/-- The authority that a text starts with, and what follows it. -/
def splitAuthority (cs : List Char) : Except UriFault (List Char × List Char) := do
  let (name, rest) := cs.span (fun c => !endsAuthority c)
  let s ← name.foldlM AuthorityScan.step {}
  if s.opened != s.closed || 1 < s.colons || s.lastAt || s.percent then .error .authority
  else .ok (name, rest)

/-- The path and the query of a text; a fragment is dropped. -/
def splitTarget (cs : List Char) : Except UriFault (List Char × Option (List Char)) :=
  let (path, rest) := cs.span (fun c => c != '?' && c != '#')
  if !path.all isPathChar then .error .character
  else match rest with
    | '?' :: rest =>
      let query := rest.takeWhile (· != '#')
      if query.all isQueryChar then .ok (path, some query) else .error .character
    | _ => .ok (path, none)

def ofTarget (scheme : Option String) (authority : String) (cs : List Char) :
    Except UriFault Uri := do
  let (path, query) ← splitTarget cs
  .ok ⟨scheme, authority, String.ofList path, query.map String.ofList⟩

/-- The spelling of a scheme: the two well-known ones are written in lower case. -/
def schemeName (name : List Char) : String :=
  let lower := name.map Char.toLower
  if lower = "http".toList || lower = "https".toList then String.ofList lower
  else String.ofList name

/-- Reads an address with a scheme, or one that is an authority alone. -/
def parseFull (cs : List Char) : Except UriFault Uri := do
  let (scheme, rest) ← splitScheme cs
  if rest = [] then throw .empty
  let (authority, rest) ← splitAuthority rest
  match scheme with
  | none => if rest = [] then .ok { authority := String.ofList authority } else .error .format
  | some name =>
    if authority = [] then .error .format
    else ofTarget (some (schemeName name)) (String.ofList authority) rest

def parse (s : String) : Except UriFault Uri :=
  if maxLength < s.utf8ByteSize then .error .tooLong
  else match s.toList with
    | [] => .error .empty
    | ['*'] => .ok { target := "*" }
    | '/' :: cs => ofTarget none "" ('/' :: cs)
    | [c] => do
      let (authority, rest) ← splitAuthority [c]
      if rest = [] then .ok { authority := String.ofList authority } else .error .character
    | cs => parseFull cs

/-- The path that a request asks for. An absolute address without one asks for the root. -/
def path (u : Uri) : String :=
  if u.target.isEmpty && (u.scheme.isSome || u.query.isSome) then "/" else u.target

def render (u : Uri) : String :=
  (match u.scheme with
    | none => ""
    | some s => s ++ "://") ++ u.authority ++ u.path ++
  (match u.query with
    | none => ""
    | some q => "?" ++ q)

end Uri

/-- A text without the slashes at its end. -/
def trimSlashes (s : String) : String :=
  String.ofList (s.toList.reverse.dropWhile (· == '/')).reverse

/-- The path of a method. Both sides of a call build it here. -/
def methodPath (pathPrefix service method : String) : String :=
  pathPrefix ++ "/" ++ service ++ "/" ++ method

/-- The prefix that both sides use unless told otherwise. -/
def defaultPrefix : String := "/twirp"

end UnaryRpc.Http
