import UnaryRpc.Proofs.Json.Object
import UnaryRpc.Proofs.Json.Reading

namespace UnaryRpc.Json

theorem hexValue?_lt {b : UInt8} {d : Nat} (h : hexValue? b = some d) : d < 16 := by
  have hbytes : ∀ n : Fin 256, ∀ d ∈ hexValue? n.val.toUInt8, d < 16 := by decide +kernel
  have hb := hbytes ⟨b.toNat, b.toNat_lt⟩ d
  simp only [Nat.toUInt8_eq, UInt8.ofNat_toNat] at hb
  exact hb h

theorem SpellsHex.lt {count n : Nat} {digits : List UInt8} (h : SpellsHex count n digits) :
    n < Nat.pow 16 count := by
  induction h with
  | nil => decide
  | @snoc count _ _ _ _ _ last ih =>
    have hd := hexValue?_lt last
    have hpow : Nat.pow 16 (count + 1) = Nat.pow 16 count * 16 := rfl
    omega

/-- Four digits spell a unit. -/
theorem RawText.Spelled.unit_lt {raw : RawText} {form : List UInt8} (h : raw.Spelled form) :
    ∀ n, .unit n ∈ raw → n < 0x10000 := by
  induction h with
  | nil => simp
  | snoc _ last ih =>
    intro n hn
    rcases List.mem_append.mp hn with hn | hn
    · exact ih n hn
    · obtain rfl := List.mem_singleton.mp hn
      cases last with
      | unit spells => exact spells.lt

theorem Spaced.spelled_of_mem {tokens : List Token} {bytes : List UInt8} (h : Spaced tokens bytes)
    {t : Token} (ht : t ∈ tokens) : ∃ form, t.Spelled form := by
  induction h with
  | nil => contradiction
  | cons _ first _ ih =>
    rcases List.mem_cons.mp ht with rfl | ht
    · exact ⟨_, first⟩
    · exact ih ht

/-- Whether a value with this token may be taken whole. -/
def Token.isWhole : Token → Bool
  | .number n => n.isFinite
  | .text raw => raw.text?.isSome
  | _ => true

namespace Tree

mutual
/-- How many arrays and objects stand around one another. -/
def nesting : Tree → Nat
  | .array items => itemsNesting items + 1
  | .object members => membersNesting members + 1
  | _ => 0

def itemsNesting : List Tree → Nat
  | [] => 0
  | t :: ts => max (nesting t) (itemsNesting ts)

def membersNesting : List (RawText × Tree) → Nat
  | [] => 0
  | (_, t) :: ms => max (nesting t) (membersNesting ms)
end

mutual
theorem isStrict_iff (depth : Nat) (t : Tree) :
    isStrict depth t = true ↔ t.nesting ≤ depth ∧ ∀ token ∈ t.tokens, token.isWhole = true := by
  match t with
  | .null => simp [isStrict, nesting, tokens, Token.isWhole]
  | .bool b => simp [isStrict, nesting, tokens, Token.isWhole]
  | .number n => simp [isStrict, nesting, tokens, Token.isWhole]
  | .text raw => simp [isStrict, nesting, tokens, Token.isWhole]
  | .array [] =>
    simp [isStrict, itemsStrict, nesting, itemsNesting, tokens, Token.isWhole,
      Nat.one_le_iff_ne_zero]
  | .array (t :: ts) =>
    have ht := isStrict_iff (depth - 1) t
    have hts := itemsStrict_iff (depth - 1) ts
    simp only [isStrict, itemsStrict, nesting, itemsNesting, tokens, List.forall_mem_cons,
      List.forall_mem_append, Bool.and_eq_true, ht, hts, bne_iff_ne, Token.isWhole]
    grind
  | .object [] =>
    simp [isStrict, membersStrict, nesting, membersNesting, tokens, Token.isWhole,
      Nat.one_le_iff_ne_zero]
  | .object ((k, t) :: ms) =>
    have ht := isStrict_iff (depth - 1) t
    have hms := membersStrict_tokens (depth - 1) ms
    simp only [isStrict, membersStrict, nesting, membersNesting, tokens, List.forall_mem_cons,
      List.forall_mem_append, Bool.and_eq_true, ht, hms, bne_iff_ne, Token.isWhole]
    grind

theorem itemsStrict_iff (depth : Nat) (ts : List Tree) :
    itemsStrict depth ts = true ↔
      itemsNesting ts ≤ depth ∧ ∀ token ∈ itemTokens ts, token.isWhole = true := by
  match ts with
  | [] => simp [itemsStrict, itemsNesting, itemTokens, Token.isWhole]
  | t :: ts =>
    simp only [itemsStrict, Bool.and_eq_true, isStrict_iff depth t, itemsStrict_iff depth ts,
      itemsNesting, itemTokens, List.forall_mem_cons, List.forall_mem_append, Token.isWhole]
    grind

theorem membersStrict_tokens (depth : Nat) (ms : List (RawText × Tree)) :
    membersStrict depth ms = true ↔
      membersNesting ms ≤ depth ∧ ∀ token ∈ memberTokens ms, token.isWhole = true := by
  match ms with
  | [] => simp [membersStrict, membersNesting, memberTokens, Token.isWhole]
  | (k, t) :: ms =>
    simp only [membersStrict, Bool.and_eq_true, isStrict_iff depth t, membersStrict_tokens depth ms,
      membersNesting, memberTokens, List.forall_mem_cons, List.forall_mem_append, Token.isWhole]
    grind
end

/-- A value that can be taken whole. -/
structure Strict (t : Tree) : Prop where
  nesting : t.nesting ≤ 127
  finite : ∀ n, .number n ∈ t.tokens → n.isFinite = true
  legible : t.Legible

/-- A quoted text that is spelled is read if it stands for a text. -/
theorem text_isSome_iff {t : Tree} {bytes : List UInt8} (h : t.Spelled bytes) {raw : RawText}
    (hraw : .text raw ∈ t.tokens) :
    raw.text?.isSome = true ↔ ∃ s : String, raw.Spells s.toList := by
  obtain ⟨form, inside, hinside, -⟩ := Spaced.spelled_of_mem h hraw
  simp only [Option.isSome_iff_exists, RawText.text?_eq_some_iff hinside.unit_lt]

theorem isStrict_iff_strict {t : Tree} {bytes : List UInt8} (h : t.Spelled bytes) :
    isStrict maxDepth t = true ↔ t.Strict := by
  rw [isStrict_iff]
  constructor
  · rintro ⟨hnesting, hwhole⟩
    refine ⟨hnesting, fun n hn => hwhole _ hn, fun raw hraw => ?_⟩
    exact (text_isSome_iff h hraw).mp (hwhole _ hraw)
  · rintro ⟨hnesting, hfinite, hlegible⟩
    refine ⟨hnesting, fun token htoken => ?_⟩
    cases token with
    | number n => exact hfinite n htoken
    | text raw => exact (text_isSome_iff h htoken).mpr (hlegible raw htoken)
    | _ => rfl

/-- What a text is taken for as a whole is what it spells, if that can be taken whole. -/
theorem parseStrict_eq_some_iff {bytes : List UInt8} {t : Tree} :
    parseStrict bytes = some t ↔ t.Spelled bytes ∧ t.Strict := by
  rw [parseStrict, Option.filter_eq_some_iff, parse_eq_some_iff]
  exact and_congr_right isStrict_iff_strict

end Tree

end UnaryRpc.Json
