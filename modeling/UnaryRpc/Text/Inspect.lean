import UnaryRpc.Text.Unseen

namespace UnaryRpc.Inspect

/-- A character as it stands between quotes. -/
def quotedChar (c : Char) : List Char :=
  if c = '"' then ['\\', '"']
  else if c = '\\' then ['\\', '\\']
  else if c = '\n' then ['\\', 'n']
  else if c = '\r' then ['\\', 'r']
  else if c = '\t' then ['\\', 't']
  else if c.toNat = 0 then ['\\', '0']
  else if Text.isUnseen c then
    "\\u\x7b".toList ++ Nat.toDigits 16 c.toNat ++ ['\x7d']
  else [c]

/-- A text in quotes, with what would not be legible escaped. -/
def quoted (s : String) : String :=
  String.ofList ('"' :: s.toList.flatMap quotedChar ++ ['"'])

def record (name : String) (parts : List (String × String)) : String :=
  name ++ " \x7b " ++ ", ".intercalate (parts.map (fun p => p.1 ++ ": " ++ p.2)) ++ " \x7d"

def list (items : List String) : String :=
  "[" ++ ", ".intercalate items ++ "]"

def set (items : List String) : String :=
  "\x7b" ++ ", ".intercalate items ++ "\x7d"

def optional : Option String → String
  | none => "None"
  | some s => "Some(" ++ s ++ ")"

def bool (b : Bool) : String :=
  if b then "true" else "false"

end UnaryRpc.Inspect
