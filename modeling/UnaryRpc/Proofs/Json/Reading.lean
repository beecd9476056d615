import UnaryRpc.Proofs.Json.Tree

namespace UnaryRpc.Json

/-- What holds of whatever a test may give holds of what it gives. -/
theorem of_ite_eq_some {α : Type} {P : α → Prop} {c : Prop} [Decidable c] {x a : α} {y : Option α}
    (h : (if c then some x else y) = some a) (hx : c → P x) (hy : ¬c → y = some a → P a) : P a := by
  by_cases hc : c
  · rw [if_pos hc] at h
    obtain rfl := Option.some.inj h
    exact hx hc
  · rw [if_neg hc] at h
    exact hy hc h

theorem digit_digitValue {b : UInt8} (h : isDigit b = true) :
    digitValue b < 10 ∧ Numeral.digit (digitValue b) = b := by
  have hbytes : ∀ n : Fin 256, isDigit n.val.toUInt8 = true →
      digitValue n.val.toUInt8 < 10 ∧ Numeral.digit (digitValue n.val.toUInt8) = n.val.toUInt8 := by
    decide +kernel
  have hb := hbytes ⟨b.toNat, b.toNat_lt⟩
  simp only [Nat.toUInt8_eq, UInt8.ofNat_toNat] at hb
  exact hb h

namespace NumeralPart

/-- What was read of a numeral, up to a part of it. -/
def Holds : NumeralPart → Numeral → List UInt8 → Prop
  | .sign, n, form =>
    n.whole = [] ∧ n.fraction = [] ∧ n.exponent = [] ∧ n.exponentNegative = false ∧
      form = n.significand
  | .zero, n, form =>
    n.whole = [0] ∧ n.fraction = [] ∧ n.exponent = [] ∧ n.exponentNegative = false ∧
      form = n.significand
  | .whole, n, form =>
    (∃ d ds, n.whole = d :: ds ∧ 0 < d ∧ ∀ x ∈ n.whole, x < 10) ∧ n.fraction = [] ∧
      n.exponent = [] ∧ n.exponentNegative = false ∧ form = n.significand
  | .point, n, form =>
    Leading n.whole ∧ n.fraction = [] ∧ n.exponent = [] ∧ n.exponentNegative = false ∧
      form = n.significand ++ [0x2e]
  | .fraction, n, form =>
    Leading n.whole ∧ n.fraction ≠ [] ∧ (∀ d ∈ n.fraction, d < 10) ∧ n.exponent = [] ∧
      n.exponentNegative = false ∧ form = n.significand
  | .mark, n, form =>
    Leading n.whole ∧ (∀ d ∈ n.fraction, d < 10) ∧ n.exponent = [] ∧ n.exponentNegative = false ∧
      ∃ mark, (mark = 0x65 ∨ mark = 0x45) ∧ form = n.significand ++ [mark]
  | .markSign, n, form =>
    Leading n.whole ∧ (∀ d ∈ n.fraction, d < 10) ∧ n.exponent = [] ∧
      ∃ mark sign, (mark = 0x65 ∨ mark = 0x45) ∧ ExponentSign n.exponentNegative sign ∧
        form = n.significand ++ mark :: sign
  | .exponent, n, form =>
    Leading n.whole ∧ (∀ d ∈ n.fraction, d < 10) ∧ n.exponent ≠ [] ∧ (∀ d ∈ n.exponent, d < 10) ∧
      ∃ mark sign, (mark = 0x65 ∨ mark = 0x45) ∧ ExponentSign n.exponentNegative sign ∧
        form = n.significand ++ (mark :: sign ++ n.exponent.map Numeral.digit)

/-- A numeral that may end was spelled. -/
theorem Holds.spelled {part : NumeralPart} {n : Numeral} {form : List UInt8}
    (h : part.Holds n form) (hend : part.mayEnd = true) : n.Spelled form := by
  have habsent (hexponent : n.exponent = []) (hsign : n.exponentNegative = false) :
      SpellsExponent n.exponentNegative n.exponent [] := by
    rw [hexponent, hsign]
    exact .absent
  cases part with
  | zero =>
    obtain ⟨hwhole, hfraction, hexponent, hsign, rfl⟩ := h
    exact ⟨.inl hwhole, by simp [hfraction], [], habsent hexponent hsign, by simp⟩
  | whole =>
    obtain ⟨hwhole, hfraction, hexponent, hsign, rfl⟩ := h
    exact ⟨.inr hwhole, by simp [hfraction], [], habsent hexponent hsign, by simp⟩
  | fraction =>
    obtain ⟨hwhole, -, hfraction, hexponent, hsign, rfl⟩ := h
    exact ⟨hwhole, hfraction, [], habsent hexponent hsign, by simp⟩
  | exponent =>
    obtain ⟨hwhole, hfraction, hnonempty, hdigits, mark, sign, hmark, hsign, rfl⟩ := h
    exact ⟨hwhole, hfraction, _, .present hmark hsign hnonempty hdigits, rfl⟩
  | _ => contradiction

section

variable {n : Numeral} {form : List UInt8} {b : UInt8}

theorem Holds.mark (hwhole : Leading n.whole) (hfraction : ∀ d ∈ n.fraction, d < 10)
    (hexponent : n.exponent = []) (hsign : n.exponentNegative = false)
    (hform : form = n.significand) (hb : b = 0x65 ∨ b = 0x45) :
    NumeralPart.mark.Holds n (form ++ [b]) :=
  ⟨hwhole, hfraction, hexponent, hsign, b, hb, by rw [hform]⟩

theorem Holds.point (hwhole : Leading n.whole) (hfraction : n.fraction = [])
    (hexponent : n.exponent = []) (hsign : n.exponentNegative = false)
    (hform : form = n.significand) (hb : b = 0x2e) : NumeralPart.point.Holds n (form ++ [b]) :=
  ⟨hwhole, hfraction, hexponent, hsign, by rw [hform, hb]⟩

theorem Holds.zero (h : NumeralPart.sign.Holds n form) (hb : b = 0x30) :
    NumeralPart.zero.Holds { n with whole := [0] } (form ++ [b]) := by
  obtain ⟨hwhole, hfraction, hexponent, hsign, rfl⟩ := h
  refine ⟨rfl, hfraction, hexponent, hsign, ?_⟩
  simp [Numeral.significand, hwhole, hfraction, Numeral.digit, hb]

theorem Holds.leading (h : NumeralPart.sign.Holds n form) (hb : isDigit b = true)
    (hzero : b ≠ 0x30) :
    NumeralPart.whole.Holds { n with whole := [digitValue b] } (form ++ [b]) := by
  obtain ⟨hwhole, hfraction, hexponent, hsign, rfl⟩ := h
  obtain ⟨hlt, hdigit⟩ := digit_digitValue hb
  have hpos : 0 < digitValue b := by
    refine Nat.pos_of_ne_zero (fun h => hzero ?_)
    rw [← hdigit, h]
    rfl
  refine ⟨⟨digitValue b, [], rfl, hpos, by simpa using hlt⟩, hfraction, hexponent, hsign, ?_⟩
  simp [Numeral.significand, hwhole, hfraction, hdigit]

theorem Holds.whole (h : NumeralPart.whole.Holds n form) (hb : isDigit b = true) :
    NumeralPart.whole.Holds { n with whole := n.whole ++ [digitValue b] } (form ++ [b]) := by
  obtain ⟨⟨first, others, hwhole, hpos, hlt⟩, hfraction, hexponent, hsign, rfl⟩ := h
  obtain ⟨hd, hdigit⟩ := digit_digitValue hb
  refine ⟨⟨first, others ++ [digitValue b], by simp [hwhole], hpos, ?_⟩, hfraction, hexponent,
    hsign, ?_⟩
  · exact List.forall_mem_append.mpr ⟨hlt, by simpa using hd⟩
  · simp [Numeral.significand, hfraction, hdigit]

theorem Holds.fraction_first (h : NumeralPart.point.Holds n form) (hb : isDigit b = true) :
    NumeralPart.fraction.Holds { n with fraction := [digitValue b] } (form ++ [b]) := by
  obtain ⟨hwhole, hfraction, hexponent, hsign, rfl⟩ := h
  obtain ⟨hd, hdigit⟩ := digit_digitValue hb
  refine ⟨hwhole, by simp, by simpa using hd, hexponent, hsign, ?_⟩
  simp [Numeral.significand, hfraction, hdigit]

theorem Holds.fraction (h : NumeralPart.fraction.Holds n form) (hb : isDigit b = true) :
    NumeralPart.fraction.Holds { n with fraction := n.fraction ++ [digitValue b] }
      (form ++ [b]) := by
  obtain ⟨hwhole, hnonempty, hlt, hexponent, hsign, rfl⟩ := h
  obtain ⟨hd, hdigit⟩ := digit_digitValue hb
  refine ⟨hwhole, by simp, ?_, hexponent, hsign, ?_⟩
  · exact List.forall_mem_append.mpr ⟨hlt, by simpa using hd⟩
  · simp [Numeral.significand, hnonempty, hdigit]

theorem Holds.exponent_first {mark : UInt8} {sign : List UInt8} (hwhole : Leading n.whole)
    (hfraction : ∀ d ∈ n.fraction, d < 10) (hmark : mark = 0x65 ∨ mark = 0x45)
    (hsign : ExponentSign n.exponentNegative sign) (hform : form = n.significand ++ mark :: sign)
    (hb : isDigit b = true) :
    NumeralPart.exponent.Holds { n with exponent := [digitValue b] } (form ++ [b]) := by
  obtain ⟨hd, hdigit⟩ := digit_digitValue hb
  refine ⟨hwhole, hfraction, by simp, by simpa using hd, mark, sign, hmark, hsign, ?_⟩
  simp [hform, Numeral.significand, hdigit]

theorem Holds.exponent (h : NumeralPart.exponent.Holds n form) (hb : isDigit b = true) :
    NumeralPart.exponent.Holds { n with exponent := n.exponent ++ [digitValue b] }
      (form ++ [b]) := by
  obtain ⟨hwhole, hfraction, -, hlt, mark, sign, hmark, hsign, rfl⟩ := h
  obtain ⟨hd, hdigit⟩ := digit_digitValue hb
  refine ⟨hwhole, hfraction, by simp, ?_, mark, sign, hmark, hsign, ?_⟩
  · exact List.forall_mem_append.mpr ⟨hlt, by simpa using hd⟩
  · simp [Numeral.significand, hdigit]

end

theorem holds_ite {c : Prop} [Decidable c] {x next : NumeralPart × Numeral}
    {y : Option (NumeralPart × Numeral)} {form : List UInt8}
    (h : (if c then some x else y) = some next) (hx : c → x.1.Holds x.2.ofReversed form)
    (hy : ¬c → y = some next → next.1.Holds next.2.ofReversed form) :
    next.1.Holds next.2.ofReversed form :=
  of_ite_eq_some (P := fun next => next.1.Holds next.2.ofReversed form) h hx hy

/-- One byte more of a numeral. -/
theorem Holds.extend {part : NumeralPart} {n : Numeral} {form : List UInt8} {b : UInt8}
    {next : NumeralPart × Numeral} (h : part.Holds n.ofReversed form)
    (hb : part.extend n b = some next) : next.1.Holds next.2.ofReversed (form ++ [b]) := by
  cases part with
  | sign =>
    refine holds_ite hb h.zero (fun hzero hb => ?_)
    refine holds_ite hb (fun hdigit => h.leading hdigit hzero) (fun _ hb => ?_)
    contradiction
  | zero =>
    obtain ⟨hwhole, hfraction, hexponent, hsign, hform⟩ := h
    have hleading : Leading n.ofReversed.whole := .inl hwhole
    refine holds_ite hb (.point hleading hfraction hexponent hsign hform) (fun _ hb => ?_)
    refine holds_ite hb (.mark hleading (by simp [hfraction]) hexponent hsign hform)
      (fun _ hb => ?_)
    contradiction
  | whole =>
    refine holds_ite hb (fun hdigit => ?_) (fun _ hb => ?_)
    · simpa [Numeral.ofReversed] using h.whole hdigit
    · obtain ⟨hwhole, hfraction, hexponent, hsign, hform⟩ := h
      refine holds_ite hb (.point (.inr hwhole) hfraction hexponent hsign hform)
        (fun _ hb => ?_)
      refine holds_ite hb (.mark (.inr hwhole) (by simp [hfraction]) hexponent hsign hform)
        (fun _ hb => ?_)
      contradiction
  | point =>
    refine holds_ite hb h.fraction_first (fun _ hb => ?_)
    contradiction
  | fraction =>
    refine holds_ite hb (fun hdigit => ?_) (fun _ hb => ?_)
    · simpa [Numeral.ofReversed] using h.fraction hdigit
    · obtain ⟨hwhole, -, hfraction, hexponent, hsign, hform⟩ := h
      refine holds_ite hb (.mark hwhole hfraction hexponent hsign hform) (fun _ hb => ?_)
      contradiction
  | mark =>
    obtain ⟨hwhole, hfraction, hexponent, hsign, mark, hmark, rfl⟩ := h
    refine holds_ite hb (fun hdigit => ?_) (fun _ hb => ?_)
    · have habsent : ExponentSign n.ofReversed.exponentNegative [] := by
        rw [hsign]
        exact .absent
      exact .exponent_first hwhole hfraction hmark habsent rfl hdigit
    refine holds_ite hb (fun hplus => ?_) (fun _ hb => ?_)
    · have hsigned : ExponentSign n.ofReversed.exponentNegative [b] := by
        rw [hsign, hplus]
        exact .plus
      exact ⟨hwhole, hfraction, hexponent, mark, [b], hmark, hsigned, by simp⟩
    refine holds_ite hb (fun hminus => ?_) (fun _ hb => ?_)
    · have hsigned : ExponentSign true [b] := by
        rw [hminus]
        exact .minus
      exact ⟨hwhole, hfraction, hexponent, mark, [b], hmark, hsigned,
        List.append_assoc _ [mark] [b]⟩
    contradiction
  | markSign =>
    obtain ⟨hwhole, hfraction, -, mark, sign, hmark, hsign, hform⟩ := h
    refine holds_ite hb (.exponent_first hwhole hfraction hmark hsign hform) (fun _ hb => ?_)
    contradiction
  | exponent =>
    refine holds_ite hb (fun hdigit => ?_) (fun _ hb => ?_)
    · simpa [Numeral.ofReversed] using h.exponent hdigit
    · contradiction

end NumeralPart

/-- What was read of a token, up to where the reader stands in it. -/
def Mode.Holds : Mode → List UInt8 → Prop
  | .between, form => form = []
  | .word rest token, form => token.Spelled (form ++ rest)
  | .numeral part n, form => part.Holds n.ofReversed form
  | .text raw, form => ∃ inside, RawText.Spelled raw.reverse inside ∧ form = 0x22 :: inside
  | .escape raw, form =>
    ∃ inside, RawText.Spelled raw.reverse inside ∧ form = 0x22 :: inside ++ [0x5c]
  | .unit raw left value, form =>
    ∃ inside digits, RawText.Spelled raw.reverse inside ∧ 0 < left ∧ left ≤ 4 ∧
      SpellsHex (4 - left) value digits ∧ form = 0x22 :: inside ++ 0x5c :: 0x75 :: digits

namespace Lexer

/-- What the reader has taken: what spells the tokens behind it, and what it holds of the next. -/
def Took (l : Lexer) (bytes : List UInt8) : Prop :=
  ∃ before form, bytes = before ++ form ∧ Spaced l.tokens.reverse before ∧ l.mode.Holds form

theorem took_between {tokens : List Token} {bytes : List UInt8} (h : Spaced tokens.reverse bytes) :
    Lexer.Took ⟨.between, tokens⟩ bytes :=
  ⟨bytes, [], by simp, h, rfl⟩

theorem took_token {tokens : List Token} {before form : List UInt8} {t : Token}
    (h : Spaced tokens.reverse before) (ht : t.Spelled form) :
    Lexer.Took ⟨.between, t :: tokens⟩ (before ++ form) := by
  refine took_between ?_
  rw [List.reverse_cons]
  exact h.snoc ht

theorem took_ite {c : Prop} [Decidable c] {x l : Lexer} {y : Option Lexer} {bytes : List UInt8}
    (h : (if c then some x else y) = some l) (hx : c → x.Took bytes)
    (hy : ¬c → y = some l → l.Took bytes) : l.Took bytes :=
  of_ite_eq_some (P := fun l => l.Took bytes) h hx hy

/-- The first byte of a token, or a blank, is taken. -/
theorem took_start {tokens : List Token} {before : List UInt8} {b : UInt8} {l : Lexer}
    (h : Spaced tokens.reverse before) (hl : start tokens b = some l) :
    l.Took (before ++ [b]) := by
  have hmark {t : Token} (ht : t.Spelled [b]) :
      Lexer.Took ⟨.between, t :: tokens⟩ (before ++ [b]) :=
    took_token h ht
  have hopen {mode : Mode} (hmode : mode.Holds [b]) : Lexer.Took ⟨mode, tokens⟩ (before ++ [b]) :=
    ⟨before, [b], rfl, h, hmode⟩
  refine took_ite hl (fun hb => took_between (h.blank hb)) (fun _ hl => ?_)
  refine took_ite hl (fun hb => hmark (by rw [hb]; rfl)) (fun _ hl => ?_)
  refine took_ite hl (fun hb => hmark (by rw [hb]; rfl)) (fun _ hl => ?_)
  refine took_ite hl (fun hb => hmark (by rw [hb]; rfl)) (fun _ hl => ?_)
  refine took_ite hl (fun hb => hmark (by rw [hb]; rfl)) (fun _ hl => ?_)
  refine took_ite hl (fun hb => hmark (by rw [hb]; rfl)) (fun _ hl => ?_)
  refine took_ite hl (fun hb => hmark (by rw [hb]; rfl)) (fun _ hl => ?_)
  refine took_ite hl (fun hb => hopen (by rw [hb]; rfl)) (fun _ hl => ?_)
  refine took_ite hl (fun hb => hopen (by rw [hb]; rfl)) (fun _ hl => ?_)
  refine took_ite hl (fun hb => hopen (by rw [hb]; rfl)) (fun _ hl => ?_)
  refine took_ite hl (fun hb => hopen ⟨[], .nil, by rw [hb]⟩) (fun _ hl => ?_)
  refine took_ite hl (fun hb => hopen (by rw [hb]; exact ⟨rfl, rfl, rfl, rfl, rfl⟩))
    (fun _ hl => ?_)
  obtain ⟨⟨part, n⟩, hextend, rfl⟩ := Option.map_eq_some_iff.mp hl
  have hsign : NumeralPart.sign.Holds (Numeral.ofReversed {}) [] := ⟨rfl, rfl, rfl, rfl, rfl⟩
  exact hopen (hsign.extend hextend)

theorem took_text {tokens : List Token} {before inside : List UInt8} {raw : RawText}
    (h : Spaced tokens.reverse before) (hinside : RawText.Spelled raw.reverse inside) {p : Piece}
    {form : List UInt8} (hp : p.Spelled form) :
    Lexer.Took ⟨.text (p :: raw), tokens⟩ (before ++ 0x22 :: (inside ++ form)) := by
  refine ⟨before, _, rfl, h, inside ++ form, ?_, rfl⟩
  rw [List.reverse_cons]
  exact .snoc hinside hp

/-- One byte more is taken. -/
theorem Took.step {l l' : Lexer} {bytes : List UInt8} {b : UInt8} (h : l.Took bytes)
    (hl : l.step b = some l') : l'.Took (bytes ++ [b]) := by
  obtain ⟨mode, tokens⟩ := l
  obtain ⟨before, form, rfl, hbefore, hform⟩ := h
  dsimp only at hbefore hform
  cases mode with
  | between =>
    obtain rfl : form = [] := hform
    rw [List.append_nil]
    exact took_start hbefore hl
  | word rest token =>
    have htoken : token.Spelled (form ++ rest) := hform
    cases rest with
    | nil =>
      rw [List.append_nil] at htoken
      refine took_start ?_ hl
      rw [List.reverse_cons]
      exact hbefore.snoc htoken
    | cons c rest =>
      simp only [Lexer.step] at hl
      split at hl
      · contradiction
      · rename_i hb
        obtain rfl := Decidable.not_not.mp hb
        split at hl
        · rename_i hrest
          obtain rfl := Option.some.inj hl
          rw [hrest] at htoken
          rw [List.append_assoc]
          exact took_token hbefore htoken
        · obtain rfl := Option.some.inj hl
          refine ⟨before, form ++ [b], by simp, hbefore, ?_⟩
          simpa [Mode.Holds] using htoken
  | numeral part n =>
    simp only [Lexer.step] at hl
    split at hl
    · rename_i part' n' hextend
      obtain rfl := Option.some.inj hl
      exact ⟨before, form ++ [b], by simp, hbefore, hform.extend hextend⟩
    · split at hl
      · rename_i hend
        refine took_start ?_ hl
        rw [List.reverse_cons]
        exact hbefore.snoc (hform.spelled hend)
      · contradiction
  | text raw =>
    obtain ⟨inside, hinside, rfl⟩ := hform
    refine took_ite hl (fun hb => ?_) (fun hquote hl => took_ite hl (fun hb => ?_) ?_)
    · rw [hb, List.append_assoc]
      exact took_token hbefore ⟨inside, hinside, rfl⟩
    · exact ⟨before, 0x22 :: inside ++ [b], by simp, hbefore, inside, hinside, by rw [hb]⟩
    · intro hbackslash hl
      split at hl
      · contradiction
      · rename_i hlow
        obtain rfl := Option.some.inj hl
        rw [List.append_assoc]
        exact took_text hbefore hinside (.bare (UInt8.not_lt.mp hlow) hquote hbackslash)
  | escape raw =>
    obtain ⟨inside, hinside, rfl⟩ := hform
    refine took_ite hl (fun hb => ?_) (fun _ hl => ?_)
    · exact ⟨before, 0x22 :: inside ++ [0x5c] ++ [b], by simp, hbefore, inside, [], hinside,
        by decide, by decide, .nil, by simp [hb]⟩
    · obtain ⟨c, hc, rfl⟩ := Option.map_eq_some_iff.mp hl
      have htaken := took_text hbefore hinside (.letter hc)
      simpa using htaken
  | unit raw left value =>
    obtain ⟨inside, digits, hinside, hpos, hle, hdigits, rfl⟩ := hform
    simp only [Lexer.step] at hl
    obtain ⟨d, hd, rfl⟩ := Option.map_eq_some_iff.mp hl
    have hnext := SpellsHex.snoc hdigits hd
    split
    · rename_i hlast
      rw [show 4 - left + 1 = 4 by omega] at hnext
      have htaken := took_text hbefore hinside (.unit hnext)
      simpa using htaken
    · rename_i hmore
      rw [show 4 - left + 1 = 4 - (left - 1) by omega] at hnext
      exact ⟨before, 0x22 :: inside ++ 0x5c :: 0x75 :: (digits ++ [b]), by simp, hbefore, inside,
        digits ++ [b], hinside, by omega, by omega, hnext, rfl⟩

theorem Took.run {l l' : Lexer} {bytes more : List UInt8} (h : l.Took bytes)
    (hl : l.run more = some l') : l'.Took (bytes ++ more) := by
  induction more generalizing l bytes with
  | nil =>
    obtain rfl := Option.some.inj hl
    simpa using h
  | cons b more ih =>
    rw [Lexer.run] at hl
    split at hl
    · contradiction
    · rename_i next hstep
      have htaken := ih (h.step hstep) hl
      simpa using htaken

/-- What was taken up to where the reader may stop spells the tokens. -/
theorem Took.finish {l : Lexer} {bytes : List UInt8} {tokens : List Token} (h : l.Took bytes)
    (hl : l.finish = some tokens) : Spaced tokens bytes := by
  obtain ⟨mode, read⟩ := l
  obtain ⟨before, form, rfl, hbefore, hform⟩ := h
  cases mode with
  | between =>
    obtain rfl : form = [] := hform
    obtain rfl := Option.some.inj hl
    simpa using hbefore
  | numeral part n =>
    simp only [Lexer.finish] at hl
    split at hl
    · rename_i hend
      obtain rfl := Option.some.inj hl
      rw [List.reverse_cons]
      exact hbefore.snoc (hform.spelled hend)
    · contradiction
  | _ => contradiction

end Lexer

/-- Tokens are read from bytes that spell them only. -/
theorem spaced_of_tokens? {tokens : List Token} {bytes : List UInt8}
    (h : tokens? bytes = some tokens) : Spaced tokens bytes := by
  obtain ⟨l, hrun, hfinish⟩ := Option.bind_eq_some_iff.mp h
  have hstart : Lexer.Took {} [] := Lexer.took_between (.nil (by simp))
  exact (hstart.run hrun).finish hfinish

/-- The tokens in front of a further item of an array, behind the items so far in reverse. -/
def itemsFront : List Tree → List Token
  | [] => [.openArray]
  | t :: items => itemsFront items ++ t.tokens ++ [.comma]

/-- The tokens in front of a further key of an object, behind the members so far in reverse. -/
def membersFront : List (RawText × Tree) → List Token
  | [] => [.openObject]
  | (k, t) :: members => membersFront members ++ .text k :: .colon :: t.tokens ++ [.comma]

namespace Tree

theorem tokens_array (items : List Tree) (t : Tree) (more : List Tree) :
    (array (items.reverse ++ t :: more)).tokens =
      itemsFront items ++ t.tokens ++ itemTokens more := by
  induction items generalizing t more with
  | nil => simp [itemsFront, tokens]
  | cons u items ih => simp [ih, itemsFront, itemTokens]

theorem tokens_object (members : List (RawText × Tree)) (k : RawText) (t : Tree)
    (more : List (RawText × Tree)) :
    (object (members.reverse ++ (k, t) :: more)).tokens =
      membersFront members ++ .text k :: .colon :: t.tokens ++ memberTokens more := by
  induction members generalizing k t more with
  | nil => simp [membersFront, tokens]
  | cons m members ih => simp [ih, membersFront, memberTokens]

end Tree

/-- The tokens of what is open, up to the value that it waits for. -/
def Frame.front : Frame → List Token
  | .array items => itemsFront items
  | .object members key => membersFront members ++ [.text key, .colon]

namespace Builder

/-- The tokens in front of a value, with all that is open around it. -/
def front : List Frame → List Token
  | [] => []
  | frame :: opened => front opened ++ frame.front

/-- The tokens that were taken to get this far. -/
inductive Took : Builder → List Token → Prop
  | value {opened : List Frame} : Took ⟨opened, .value⟩ (front opened)
  | firstItem {opened : List Frame} : Took ⟨opened, .firstItem⟩ (front opened ++ [.openArray])
  | itemEnd {opened : List Frame} {items : List Tree} {t : Tree} :
      Took ⟨opened, .itemEnd (t :: items)⟩ (front opened ++ itemsFront items ++ t.tokens)
  | firstKey {opened : List Frame} : Took ⟨opened, .firstKey⟩ (front opened ++ [.openObject])
  | key {opened : List Frame} {members : List (RawText × Tree)} :
      Took ⟨opened, .key members⟩ (front opened ++ membersFront members)
  | colon {opened : List Frame} {members : List (RawText × Tree)} {k : RawText} :
      Took ⟨opened, .colon members k⟩ (front opened ++ membersFront members ++ [.text k])
  | memberEnd {opened : List Frame} {members : List (RawText × Tree)} {k : RawText} {t : Tree} :
      Took ⟨opened, .memberEnd ((k, t) :: members)⟩
        (front opened ++ membersFront members ++ .text k :: .colon :: t.tokens)
  | done {t : Tree} : Took ⟨[], .done t⟩ t.tokens

theorem took_complete (opened : List Frame) (t : Tree) :
    Took (complete opened t) (front opened ++ t.tokens) := by
  match opened with
  | [] => exact .done
  | .array items :: opened =>
    rw [front, Frame.front]
    exact .itemEnd
  | .object members key :: opened =>
    have h : Took ⟨opened, .memberEnd ((key, t) :: members)⟩ _ := .memberEnd
    simpa [front, Frame.front, complete] using h

/-- The first token of a value is taken. -/
theorem took_start {opened : List Frame} {t : Token} {b : Builder}
    (h : start opened t = some b) : b.Took (front opened ++ [t]) := by
  cases t with
  | null | bool | number | text =>
    obtain rfl := Option.some.inj h
    exact took_complete opened _
  | openArray =>
    obtain rfl := Option.some.inj h
    exact .firstItem
  | openObject =>
    obtain rfl := Option.some.inj h
    exact .firstKey
  | _ => contradiction

/-- One token more is taken. -/
theorem Took.step {b b' : Builder} {tokens : List Token} {t : Token} (h : b.Took tokens)
    (hb : b.step t = some b') : b'.Took (tokens ++ [t]) := by
  cases h with
  | value => exact took_start hb
  | @firstItem opened =>
    by_cases hclose : t = .closeArray
    · obtain rfl := hclose
      obtain rfl := Option.some.inj hb
      simpa [Tree.tokens] using took_complete opened (.array [])
    · have hitem : start (.array [] :: opened) t = some b' := by
        cases t with
        | closeArray => contradiction
        | _ => exact hb
      exact took_start hitem
  | @itemEnd opened items item =>
    cases t with
    | comma =>
      obtain rfl := Option.some.inj hb
      have hnext : Took ⟨.array (item :: items) :: opened, .value⟩ _ := .value
      simpa [front, Frame.front, itemsFront] using hnext
    | closeArray =>
      obtain rfl := Option.some.inj hb
      have hwhole := took_complete opened (.array (item :: items).reverse)
      rw [List.reverse_cons, Tree.tokens_array, Tree.itemTokens] at hwhole
      simpa using hwhole
    | _ => contradiction
  | @firstKey opened =>
    cases t with
    | closeObject =>
      obtain rfl := Option.some.inj hb
      simpa [Tree.tokens] using took_complete opened (.object [])
    | text k =>
      obtain rfl := Option.some.inj hb
      exact .colon
    | _ => contradiction
  | key =>
    cases t with
    | text k =>
      obtain rfl := Option.some.inj hb
      exact .colon
    | _ => contradiction
  | @colon opened members k =>
    cases t with
    | colon =>
      obtain rfl := Option.some.inj hb
      have hnext : Took ⟨.object members k :: opened, .value⟩ _ := .value
      simpa [front, Frame.front] using hnext
    | _ => contradiction
  | @memberEnd opened members k value =>
    cases t with
    | comma =>
      obtain rfl := Option.some.inj hb
      have hnext : Took ⟨opened, .key ((k, value) :: members)⟩ _ := .key
      simpa [membersFront] using hnext
    | closeObject =>
      obtain rfl := Option.some.inj hb
      have hwhole := took_complete opened (.object ((k, value) :: members).reverse)
      rw [List.reverse_cons, Tree.tokens_object, Tree.memberTokens] at hwhole
      simpa using hwhole
    | _ => contradiction
  | done => contradiction

theorem Took.run {b b' : Builder} {tokens more : List Token} (h : b.Took tokens)
    (hb : b.run more = some b') : b'.Took (tokens ++ more) := by
  induction more generalizing b tokens with
  | nil =>
    obtain rfl := Option.some.inj hb
    simpa using h
  | cons t more ih =>
    rw [Builder.run] at hb
    split at hb
    · contradiction
    · rename_i next hstep
      have htaken := ih (h.step hstep) hb
      simpa using htaken

end Builder

namespace Tree

/-- A value is put together from its own tokens only. -/
theorem ofTokens?_eq_some_iff {tokens : List Token} {t : Tree} :
    ofTokens? tokens = some t ↔ tokens = t.tokens := by
  constructor
  · intro h
    obtain ⟨b, hrun, hfinish⟩ := Option.bind_eq_some_iff.mp h
    have htook : Builder.Took b ([] ++ tokens) := Builder.Took.value.run hrun
    cases htook with
    | done =>
      obtain rfl := Option.some.inj hfinish
      rfl
    | _ => contradiction
  · rintro rfl
    exact ofTokens?_tokens t

/-- A value is read from what spells it, and from nothing else. -/
theorem parse_eq_some_iff {bytes : List UInt8} {t : Tree} :
    parse bytes = some t ↔ t.Spelled bytes := by
  constructor
  · intro h
    obtain ⟨tokens, htokens, ht⟩ := Option.bind_eq_some_iff.mp h
    obtain rfl := ofTokens?_eq_some_iff.mp ht
    exact spaced_of_tokens? htokens
  · exact parse_of_spelled

end Tree

end UnaryRpc.Json
