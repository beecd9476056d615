import UnaryRpc.Json.Numeral
import UnaryRpc.Json.RawText

namespace UnaryRpc.Json

inductive Token where
  | openArray
  | closeArray
  | openObject
  | closeObject
  | comma
  | colon
  | null
  | bool (b : Bool)
  | number (n : Numeral)
  | text (raw : RawText)
deriving DecidableEq

def Token.render : Token → List UInt8
  | openArray => [0x5b]
  | closeArray => [0x5d]
  | openObject => [0x7b]
  | closeObject => [0x7d]
  | comma => [0x2c]
  | colon => [0x3a]
  | null => [0x6e, 0x75, 0x6c, 0x6c]
  | bool true => [0x74, 0x72, 0x75, 0x65]
  | bool false => [0x66, 0x61, 0x6c, 0x73, 0x65]
  | number n => n.render
  | text raw => 0x22 :: raw.render ++ [0x22]

def isBlank (b : UInt8) : Bool :=
  b == 0x20 || b == 0x09 || b == 0x0a || b == 0x0d

def isDigit (b : UInt8) : Bool :=
  0x30 ≤ b && b ≤ 0x39

def digitValue (b : UInt8) : Nat :=
  b.toNat - 0x30

/-- The part of a numeral that was read last. -/
inductive NumeralPart where
  | sign
  | zero
  | whole
  | point
  | fraction
  | mark
  | markSign
  | exponent
deriving DecidableEq

namespace NumeralPart

def mayEnd : NumeralPart → Bool
  | zero | whole | fraction | exponent => true
  | sign | point | mark | markSign => false

/-- Adds a byte to a numeral whose digits are in reverse, if it continues it. -/
def extend (part : NumeralPart) (n : Numeral) (b : UInt8) : Option (NumeralPart × Numeral) :=
  match part with
  | sign =>
    if b = 0x30 then some (zero, { n with whole := [0] })
    else if isDigit b then some (whole, { n with whole := [digitValue b] })
    else none
  | zero =>
    if b = 0x2e then some (point, n)
    else if b = 0x65 ∨ b = 0x45 then some (mark, n)
    else none
  | whole =>
    if isDigit b then some (whole, { n with whole := digitValue b :: n.whole })
    else if b = 0x2e then some (point, n)
    else if b = 0x65 ∨ b = 0x45 then some (mark, n)
    else none
  | point =>
    if isDigit b then some (fraction, { n with fraction := [digitValue b] }) else none
  | fraction =>
    if isDigit b then some (fraction, { n with fraction := digitValue b :: n.fraction })
    else if b = 0x65 ∨ b = 0x45 then some (mark, n)
    else none
  | mark =>
    if isDigit b then some (exponent, { n with exponent := [digitValue b] })
    else if b = 0x2b then some (markSign, n)
    else if b = 0x2d then some (markSign, { n with exponentNegative := true })
    else none
  | markSign =>
    if isDigit b then some (exponent, { n with exponent := [digitValue b] }) else none
  | exponent =>
    if isDigit b then some (exponent, { n with exponent := digitValue b :: n.exponent })
    else none

end NumeralPart

/-- Puts the digits of a numeral that was read in reverse into their order. -/
def Numeral.ofReversed (n : Numeral) : Numeral :=
  { n with
    whole := n.whole.reverse
    fraction := n.fraction.reverse
    exponent := n.exponent.reverse }

/-- Where in a token the reader stands. Parts of a quoted text are in reverse. -/
inductive Mode where
  | between
  | word (rest : List UInt8) (token : Token)
  | numeral (part : NumeralPart) (n : Numeral)
  | text (raw : RawText)
  | escape (raw : RawText)
  | unit (raw : RawText) (left : Nat) (value : Nat)

/-- A reader: where it stands, and the tokens behind it in reverse. -/
structure Lexer where
  mode : Mode := .between
  tokens : List Token := []

namespace Lexer

/-- Takes the first byte of a token, or a blank. -/
def start (tokens : List Token) (b : UInt8) : Option Lexer :=
  if isBlank b then some ⟨.between, tokens⟩
  else if b = 0x5b then some ⟨.between, .openArray :: tokens⟩
  else if b = 0x5d then some ⟨.between, .closeArray :: tokens⟩
  else if b = 0x7b then some ⟨.between, .openObject :: tokens⟩
  else if b = 0x7d then some ⟨.between, .closeObject :: tokens⟩
  else if b = 0x2c then some ⟨.between, .comma :: tokens⟩
  else if b = 0x3a then some ⟨.between, .colon :: tokens⟩
  else if b = 0x6e then some ⟨.word [0x75, 0x6c, 0x6c] .null, tokens⟩
  else if b = 0x74 then some ⟨.word [0x72, 0x75, 0x65] (.bool true), tokens⟩
  else if b = 0x66 then some ⟨.word [0x61, 0x6c, 0x73, 0x65] (.bool false), tokens⟩
  else if b = 0x22 then some ⟨.text [], tokens⟩
  else if b = 0x2d then some ⟨.numeral .sign { negative := true }, tokens⟩
  else ((NumeralPart.extend .sign {} b).map (fun (part, n) => ⟨.numeral part n, tokens⟩))

def step (l : Lexer) (b : UInt8) : Option Lexer :=
  match l.mode with
  | .between => start l.tokens b
  | .word [] token => start (token :: l.tokens) b
  | .word (c :: rest) token =>
    if b ≠ c then none
    else if rest = [] then some ⟨.between, token :: l.tokens⟩
    else some ⟨.word rest token, l.tokens⟩
  | .numeral part n =>
    match part.extend n b with
    | some (part, n) => some ⟨.numeral part n, l.tokens⟩
    | none => if part.mayEnd then start (.number n.ofReversed :: l.tokens) b else none
  | .text raw =>
    if b = 0x22 then some ⟨.between, .text raw.reverse :: l.tokens⟩
    else if b = 0x5c then some ⟨.escape raw, l.tokens⟩
    else if b < 0x20 then none
    else some ⟨.text (.byte b :: raw), l.tokens⟩
  | .escape raw =>
    if b = 0x75 then some ⟨.unit raw 4 0, l.tokens⟩
    else (escapedByte? b).map (fun c => ⟨.text (.byte c :: raw), l.tokens⟩)
  | .unit raw left value =>
    (hexValue? b).map (fun d =>
      if left ≤ 1 then ⟨.text (.unit (16 * value + d) :: raw), l.tokens⟩
      else ⟨.unit raw (left - 1) (16 * value + d), l.tokens⟩)

def run (l : Lexer) : List UInt8 → Option Lexer
  | [] => some l
  | b :: bs =>
    match l.step b with
    | none => none
    | some l => l.run bs

/-- The tokens, if none is left unfinished. -/
def finish (l : Lexer) : Option (List Token) :=
  match l.mode with
  | .between => some l.tokens.reverse
  | .numeral part n =>
    if part.mayEnd then some (Token.number n.ofReversed :: l.tokens).reverse else none
  | _ => none

theorem run_append (l : Lexer) (xs ys : List UInt8) :
    l.run (xs ++ ys) = (l.run xs).bind (fun l => l.run ys) := by
  induction xs generalizing l with
  | nil => rfl
  | cons b bs ih =>
    simp only [List.cons_append, run]
    cases l.step b with
    | none => rfl
    | some l => exact ih l

end Lexer

def tokens? (bytes : List UInt8) : Option (List Token) :=
  (Lexer.run {} bytes).bind Lexer.finish

end UnaryRpc.Json
