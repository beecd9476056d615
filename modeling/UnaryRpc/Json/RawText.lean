import UnaryRpc.Text.Bytes

namespace UnaryRpc.Json

inductive Piece where
  | byte (b : UInt8)
  | unit (n : Nat)
deriving DecidableEq

abbrev RawText := List Piece

def isLeading (n : Nat) : Bool := 0xd800 ≤ n && n < 0xdc00

def isTrailing (n : Nat) : Bool := 0xdc00 ≤ n && n < 0xe000

def pairValue (leading trailing : Nat) : Nat :=
  0x10000 + (leading - 0xd800) * 0x400 + (trailing - 0xdc00)

def codePointBytes (n : Nat) : List UInt8 :=
  String.utf8EncodeChar (Char.ofNat n)

/-- The letter that escapes a byte, for the bytes that have one. -/
def escapeLetter? (b : UInt8) : Option UInt8 :=
  if b = 0x22 then some 0x22
  else if b = 0x5c then some 0x5c
  else if b = 0x08 then some 0x62
  else if b = 0x09 then some 0x74
  else if b = 0x0a then some 0x6e
  else if b = 0x0c then some 0x66
  else if b = 0x0d then some 0x72
  else none

/-- The byte that an escape letter stands for. -/
def escapedByte? (letter : UInt8) : Option UInt8 :=
  if letter = 0x22 then some 0x22
  else if letter = 0x5c then some 0x5c
  else if letter = 0x2f then some 0x2f
  else if letter = 0x62 then some 0x08
  else if letter = 0x74 then some 0x09
  else if letter = 0x6e then some 0x0a
  else if letter = 0x66 then some 0x0c
  else if letter = 0x72 then some 0x0d
  else none

def hexDigit (n : Nat) : UInt8 :=
  if n < 10 then 0x30 + n.toUInt8 else 0x57 + n.toUInt8

def hexValue? (b : UInt8) : Option Nat :=
  if 0x30 ≤ b ∧ b ≤ 0x39 then some (b.toNat - 0x30)
  else if 0x61 ≤ b ∧ b ≤ 0x66 then some (b.toNat - 0x57)
  else if 0x41 ≤ b ∧ b ≤ 0x46 then some (b.toNat - 0x37)
  else none

def Piece.render : Piece → List UInt8
  | .byte b =>
    match escapeLetter? b with
    | some letter => [0x5c, letter]
    | none => [b]
  | .unit n =>
    [0x5c, 0x75, hexDigit (n / 4096 % 16), hexDigit (n / 256 % 16), hexDigit (n / 16 % 16),
      hexDigit (n % 16)]

/-- The preferred part for a byte: a control without an escape letter is escaped as a unit. -/
def Piece.ofByte (b : UInt8) : Piece :=
  if b < 0x20 ∧ (escapeLetter? b).isNone then .unit b.toNat else .byte b

namespace RawText

/-- Puts the bytes of the parts behind those already read, which are in reverse. An unpaired
surrogate stands for no text. -/
def resolve (read : List UInt8) : RawText → Option (List UInt8)
  | [] => some read.reverse
  | .byte b :: rest => resolve (b :: read) rest
  | .unit n :: rest =>
    if isTrailing n then none
    else if isLeading n then
      match rest with
      | .unit m :: rest =>
        if isTrailing m then resolve ((codePointBytes (pairValue n m)).reverse ++ read) rest
        else none
      | _ => none
    else resolve ((codePointBytes n).reverse ++ read) rest

def text? (raw : RawText) : Option String :=
  (resolve [] raw).bind Text.ofBytes?

/-- The preferred spelling of a text. -/
def ofText (s : String) : RawText :=
  (Text.bytes s).map Piece.ofByte

def render (raw : RawText) : List UInt8 :=
  raw.flatMap Piece.render

end RawText

end UnaryRpc.Json
