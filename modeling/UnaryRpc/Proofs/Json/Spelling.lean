import UnaryRpc.Json.Tree

namespace UnaryRpc.Json

/-- Hexadecimal digits that spell a number, the first one being worth most. -/
inductive SpellsHex : (count : Nat) → Nat → List UInt8 → Prop
  | nil : SpellsHex 0 0 []
  | snoc {count n d : Nat} {bytes : List UInt8} {b : UInt8} (front : SpellsHex count n bytes)
      (last : hexValue? b = some d) : SpellsHex (count + 1) (16 * n + d) (bytes ++ [b])

/-- Bytes that spell a part of a quoted text. A byte stands for itself, unless it is a control, a
quote or a backslash, or is escaped by a letter; a unit is escaped by four hexadecimal digits. -/
inductive Piece.Spelled : Piece → List UInt8 → Prop
  | bare {b : UInt8} (high : 0x20 ≤ b) (quote : b ≠ 0x22) (backslash : b ≠ 0x5c) :
      Spelled (.byte b) [b]
  | letter {b letter : UInt8} (escapes : escapedByte? letter = some b) :
      Spelled (.byte b) [0x5c, letter]
  | unit {n : Nat} {digits : List UInt8} (spells : SpellsHex 4 n digits) :
      Spelled (.unit n) (0x5c :: 0x75 :: digits)

/-- Bytes that spell the parts of a quoted text in a row. -/
inductive RawText.Spelled : RawText → List UInt8 → Prop
  | nil : Spelled [] []
  | snoc {raw : RawText} {p : Piece} {bytes form : List UInt8} (front : Spelled raw bytes)
      (last : p.Spelled form) : Spelled (raw ++ [p]) (bytes ++ form)

/-- Parts of a quoted text that stand for a text. A character is given by its UTF-8 bytes, by a unit
of its own if it has one, or else by a pair of surrogates. -/
inductive RawText.Spells : RawText → List Char → Prop
  | nil : Spells [] []
  | bytes {c : Char} {raw : RawText} {cs : List Char} (others : Spells raw cs) :
      Spells ((String.utf8EncodeChar c).map .byte ++ raw) (c :: cs)
  | unit {c : Char} {raw : RawText} {cs : List Char} (low : c.toNat < 0x10000)
      (others : Spells raw cs) : Spells (.unit c.toNat :: raw) (c :: cs)
  | pair {c : Char} {raw : RawText} {cs : List Char} (high : 0x10000 ≤ c.toNat)
      (others : Spells raw cs) :
      Spells (.unit (0xd800 + (c.toNat - 0x10000) / 0x400) ::
        .unit (0xdc00 + (c.toNat - 0x10000) % 0x400) :: raw) (c :: cs)

/-- Digits before the point of a numeral. Only zero starts with a zero. -/
def Leading (digits : List Nat) : Prop :=
  digits = [0] ∨ ∃ d ds, digits = d :: ds ∧ 0 < d ∧ ∀ x ∈ digits, x < 10

inductive ExponentSign : (negative : Bool) → List UInt8 → Prop
  | absent : ExponentSign false []
  | plus : ExponentSign false [0x2b]
  | minus : ExponentSign true [0x2d]

/-- Bytes that spell an exponent, behind a mark of either case. Without digits there is none. -/
inductive SpellsExponent : (negative : Bool) → List Nat → List UInt8 → Prop
  | absent : SpellsExponent false [] []
  | present {negative : Bool} {digits : List Nat} {mark : UInt8} {sign : List UInt8}
      (isMark : mark = 0x65 ∨ mark = 0x45) (isSign : ExponentSign negative sign)
      (nonempty : digits ≠ []) (digit : ∀ d ∈ digits, d < 10) :
      SpellsExponent negative digits (mark :: sign ++ digits.map Numeral.digit)

/-- What a numeral spells before its exponent. -/
def Numeral.significand (n : Numeral) : List UInt8 :=
  (if n.negative then [0x2d] else []) ++ n.whole.map Numeral.digit ++
    (if n.fraction = [] then [] else 0x2e :: n.fraction.map Numeral.digit)

/-- Bytes that spell a numeral. -/
structure Numeral.Spelled (n : Numeral) (bytes : List UInt8) : Prop where
  whole : Leading n.whole
  fraction : ∀ d ∈ n.fraction, d < 10
  exponent : ∃ form, SpellsExponent n.exponentNegative n.exponent form ∧
    bytes = n.significand ++ form

/-- Bytes that spell a token. Marks and words have a single form. -/
def Token.Spelled : Token → List UInt8 → Prop
  | .number n, bytes => n.Spelled bytes
  | .text raw, bytes => ∃ form, raw.Spelled form ∧ bytes = 0x22 :: form ++ [0x22]
  | t, bytes => bytes = t.render

/-- Bytes that spell tokens in a row, with blanks anywhere around them. -/
inductive Spaced : List Token → List UInt8 → Prop
  | nil {blanks : List UInt8} (blank : ∀ b ∈ blanks, isBlank b = true) : Spaced [] blanks
  | cons {t : Token} {tokens : List Token} {blanks form bytes : List UInt8}
      (blank : ∀ b ∈ blanks, isBlank b = true) (first : t.Spelled form)
      (others : Spaced tokens bytes) : Spaced (t :: tokens) (blanks ++ form ++ bytes)

/-- Bytes that spell a value. -/
def Tree.Spelled (t : Tree) (bytes : List UInt8) : Prop :=
  Spaced t.tokens bytes

theorem Spaced.blank {tokens : List Token} {bytes : List UInt8} (h : Spaced tokens bytes)
    {b : UInt8} (hb : isBlank b = true) : Spaced tokens (bytes ++ [b]) := by
  induction h with
  | nil blank =>
    exact .nil (List.forall_mem_append.mpr ⟨blank, by simpa using hb⟩)
  | cons blank first _ ih =>
    rw [List.append_assoc]
    exact .cons blank first ih

theorem Spaced.snoc {tokens : List Token} {bytes : List UInt8} (h : Spaced tokens bytes)
    {t : Token} {form : List UInt8} (ht : t.Spelled form) :
    Spaced (tokens ++ [t]) (bytes ++ form) := by
  induction h with
  | nil blank =>
    have hlast : Spaced [t] (_ ++ form ++ []) := .cons blank ht (.nil (by simp))
    rwa [List.append_nil] at hlast
  | cons blank first _ ih =>
    rw [List.append_assoc]
    exact .cons blank first ih

end UnaryRpc.Json
