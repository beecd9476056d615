import UnaryRpc.Json.Numeral

namespace UnaryRpc.Json

/-- A place in a text. Lines are counted from one. -/
structure Place where
  line : Nat
  column : Nat
  line_pos : 0 < line := by omega
deriving DecidableEq

namespace Place

/-- The largest line or column that a wording may name. -/
def maxCount : Nat := 0xffffffffffffffff

/-- How a place is named at the end of a wording. -/
def wording (p : Place) : String :=
  " at line " ++ toString p.line ++ " column " ++ toString p.column

/-- The number at the end of a text, and what stands before it. The text is given backwards. -/
def countAtEnd? (back : List Char) : Option (Nat × List Char) :=
  let digits := (back.takeWhile Char.isDigit).reverse
  let count := digitsValue (digits.map (fun c => c.toNat - 48))
  if digits = [] ∨ maxCount < count then none
  else some (count, back.dropWhile Char.isDigit)

/-- What stands before a word at the end of a text. Both texts are given backwards. -/
def beforeWord? (word : String) (back : List Char) : Option (List Char) :=
  let word := word.toList.reverse
  if word.isPrefixOf back then some (back.drop word.length) else none

/-- The line and the column that the end of a text names, and what stands before them. The text is
given backwards, and so is what stands before. -/
def atEnd? (back : List Char) : Option (Nat × Nat × List Char) := do
  let (column, back) ← countAtEnd? back
  let (line, back) ← countAtEnd? (← beforeWord? " column " back)
  return (line, column, ← beforeWord? " at line " back)

end Place

/-- Why a value cannot be written as JSON, and where that shows if it is known. -/
structure Complaint where
  reason : String
  place? : Option Place := none
deriving DecidableEq

namespace Complaint

/-- The complaint that a wording makes. Line zero names no place. -/
def ofText (wording : String) : Complaint :=
  match Place.atEnd? wording.toList.reverse with
  | none => ⟨wording, none⟩
  | some (line, column, back) =>
    ⟨String.ofList back.reverse, if h : 0 < line then some ⟨line, column, h⟩ else none⟩

def text (c : Complaint) : String :=
  c.reason ++ (c.place?.map Place.wording).getD ""

end Complaint

end UnaryRpc.Json
