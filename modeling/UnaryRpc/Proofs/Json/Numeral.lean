import UnaryRpc.Proofs.Json.Spelling

namespace UnaryRpc.Json

/-- The last digit is split off, and what is left is a smaller number. -/
theorem digitsOf_step (n : Nat) :
    digitsOf n = if n < 10 then [n] else digitsOf (n / 10) ++ [n % 10] := by
  have hdigit : ∀ d, d < 10 → d.digitChar.toNat - 48 = d := by decide
  unfold digitsOf
  rw [Nat.toDigits_eq_if (by decide)]
  split
  · rename_i h
    simp [hdigit n h]
  · simp [hdigit (n % 10) (Nat.mod_lt _ (by decide))]

theorem digitsValue_append (xs : List Nat) (d : Nat) :
    digitsValue (xs ++ [d]) = 10 * digitsValue xs + d := by
  simp [digitsValue]

/-- The digits of a number spell it. -/
theorem digitsValue_digitsOf (n : Nat) : digitsValue (digitsOf n) = n := by
  induction n using Nat.strongRecOn with
  | ind n ih =>
    rw [digitsOf_step]
    split
    · simp [digitsValue]
    · rw [digitsValue_append, ih (n / 10) (by omega)]
      omega

theorem digitsOf_lt_ten (n : Nat) : ∀ d ∈ digitsOf n, d < 10 := by
  induction n using Nat.strongRecOn with
  | ind n ih =>
    intro d hd
    rw [digitsOf_step] at hd
    split at hd
    · simp only [List.mem_cons, List.not_mem_nil, or_false] at hd
      omega
    · rcases List.mem_append.mp hd with hd | hd
      · exact ih (n / 10) (by omega) d hd
      · simp only [List.mem_cons, List.not_mem_nil, or_false] at hd
        omega

/-- The digits of a positive number start with one that is not zero. -/
theorem digitsOf_positive (n : Nat) (hn : 0 < n) :
    ∃ d ds, digitsOf n = d :: ds ∧ 0 < d := by
  induction n using Nat.strongRecOn with
  | ind n ih =>
    rw [digitsOf_step]
    split
    · exact ⟨n, [], rfl, hn⟩
    · obtain ⟨d, ds, hd, hpos⟩ := ih (n / 10) (by omega) (by omega)
      exact ⟨d, ds ++ [n % 10], by rw [hd, List.cons_append], hpos⟩

/-- An integer is what its numeral spells. -/
theorem Numeral.int?_ofInt (i : Int) : (ofInt i).int? = some i := by
  simp only [int?, ofInt, ne_eq, not_true_eq_false, or_self, ↓reduceIte, digitsValue_digitsOf]
  split
  · rename_i h
    have hneg : i < 0 := by simpa using h
    have hne : i.natAbs ≠ 0 := by omega
    simp only [hne, ↓reduceIte, Option.some.injEq]
    omega
  · rename_i h
    have hpos : ¬ i < 0 := by simpa using h
    simp only [Option.some.injEq]
    omega

/-- The spelling of a digit is read as that digit. -/
theorem isDigit_digit {d : Nat} (hd : d < 10) :
    isDigit (Numeral.digit d) = true ∧ digitValue (Numeral.digit d) = d := by
  have h : ∀ d, d < 10 →
      isDigit (Numeral.digit d) = true ∧ digitValue (Numeral.digit d) = d := by decide
  exact h d hd

theorem digit_eq_zero_iff {d : Nat} (hd : d < 10) : Numeral.digit d = 0x30 ↔ d = 0 := by
  have h : ∀ d, d < 10 → (Numeral.digit d = 0x30 ↔ d = 0) := by decide
  exact h d hd

/-- The first digit decides whether more digits may follow. -/
theorem extend_sign_digit (n : Numeral) {d : Nat} (hd : d < 10) :
    NumeralPart.extend .sign n (Numeral.digit d) =
      some (if d = 0 then .zero else .whole, { n with whole := [d] }) := by
  obtain ⟨hdig, hv⟩ := isDigit_digit hd
  simp only [NumeralPart.extend, digit_eq_zero_iff hd, hdig, hv, ↓reduceIte]
  split
  · rename_i h
    simp [h]
  · rfl

/-- A digit starts a numeral, as it would go on after a sign. -/
theorem Lexer.step_digit {d : Nat} (hd : d < 10) (tokens : List Token) :
    Lexer.step ⟨.between, tokens⟩ (Numeral.digit d) =
      Lexer.step ⟨.numeral .sign {}, tokens⟩ (Numeral.digit d) := by
  have h : ∀ d, d < 10 → isBlank (Numeral.digit d) = false ∧
      ∀ b ∈ [0x5b, 0x5d, 0x7b, 0x7d, 0x2c, 0x3a, 0x6e, 0x74, 0x66, 0x22, 0x2d],
        Numeral.digit d ≠ b := by decide +kernel
  obtain ⟨hblank, hne⟩ := h d hd
  simp only [List.mem_cons, List.not_mem_nil, or_false, forall_eq_or_imp, forall_eq] at hne
  obtain ⟨h1, h2, h3, h4, h5, h6, h7, h8, h9, h10, h11⟩ := hne
  simp only [Lexer.step, Lexer.start, hblank, h1, h2, h3, h4, h5, h6, h7, h8, h9, h10, h11,
    ↓reduceIte, Bool.false_eq_true]
  rw [extend_sign_digit {} hd]
  rfl

theorem Numeral.ofReversed_ofReversed (n : Numeral) : n.ofReversed.ofReversed = n := by
  simp [ofReversed]

namespace NumeralPart

/-- A part that any digits may continue. -/
def Repeats (part : NumeralPart) : Prop :=
  part = .whole ∨ part = .fraction ∨ part = .exponent

/-- A numeral after further digits of a part. -/
def push (part : NumeralPart) (n : Numeral) (ds : List Nat) : Numeral :=
  match part with
  | .whole => { n with whole := ds.reverse ++ n.whole }
  | .fraction => { n with fraction := ds.reverse ++ n.fraction }
  | .exponent => { n with exponent := ds.reverse ++ n.exponent }
  | _ => n

theorem extend_digit {part : NumeralPart} (hpart : part.Repeats) (n : Numeral) {d : Nat}
    (hd : d < 10) : part.extend n (Numeral.digit d) = some (part, part.push n [d]) := by
  obtain ⟨hdigit, hvalue⟩ := isDigit_digit hd
  rcases hpart with rfl | rfl | rfl <;> simp [extend, push, hdigit, hvalue]

theorem push_cons (part : NumeralPart) (n : Numeral) (d : Nat) (ds : List Nat) :
    part.push (part.push n [d]) ds = part.push n (d :: ds) := by
  cases part <;> simp [push]

end NumeralPart

namespace Lexer

/-- Further digits of a part of a numeral are taken one after another. -/
theorem run_digits {part : NumeralPart} (hpart : part.Repeats) (tokens : List Token) (n : Numeral)
    {ds : List Nat} (hds : ∀ d ∈ ds, d < 10) :
    Lexer.run ⟨.numeral part n, tokens⟩ (ds.map Numeral.digit) =
      some ⟨.numeral part (part.push n ds), tokens⟩ := by
  induction ds generalizing n with
  | nil => cases part <;> rfl
  | cons d ds ih =>
    simp only [List.map_cons, Lexer.run, Lexer.step, part.extend_digit hpart n (hds d (by simp))]
    rw [ih _ (fun x hx => hds x (by simp [hx])), part.push_cons]

/-- The digits before the point, where a numeral has only its sign so far. -/
theorem run_leading (tokens : List Token) (n : Numeral) {ds : List Nat}
    (hds : Leading ds) :
    ∃ part, (part = .zero ∨ part = .whole) ∧
      Lexer.run ⟨.numeral .sign n, tokens⟩ (ds.map Numeral.digit) =
        some ⟨.numeral part { n with whole := ds.reverse }, tokens⟩ := by
  rcases hds with rfl | ⟨d, ds, rfl, hpos, hlt⟩
  · exact ⟨.zero, .inl rfl, rfl⟩
  · have hd : d < 10 := hlt d (by simp)
    have hfirst := extend_sign_digit n hd
    rw [if_neg (by omega)] at hfirst
    refine ⟨.whole, .inr rfl, ?_⟩
    simp only [List.map_cons, Lexer.run, Lexer.step, hfirst]
    rw [run_digits (.inl rfl) tokens _ (fun x hx => hlt x (List.mem_cons_of_mem d hx))]
    simp [NumeralPart.push]

/-- The sign and the digits before the point start a numeral. -/
theorem run_whole (tokens : List Token) (negative : Bool) {ds : List Nat} (hds : Leading ds) :
    ∃ part, (part = .zero ∨ part = .whole) ∧
      Lexer.run ⟨.between, tokens⟩
          ((if negative then [0x2d] else []) ++ ds.map Numeral.digit) =
        some ⟨.numeral part { negative := negative, whole := ds.reverse }, tokens⟩ := by
  cases negative with
  | true => exact run_leading tokens { negative := true } hds
  | false =>
    obtain ⟨part, hpart, hrun⟩ := run_leading tokens {} hds
    refine ⟨part, hpart, ?_⟩
    rw [← hrun]
    -- without a sign the numeral begins with its first digit
    rcases hds with rfl | ⟨d, ds, rfl, hpos, hlt⟩
    · rfl
    · simp [Lexer.run, step_digit (hlt d (by simp))]

/-- The digits behind the point. -/
theorem run_fraction (tokens : List Token) {part : NumeralPart}
    (hpart : part = .zero ∨ part = .whole) {n : Numeral} (hn : n.fraction = []) {ds : List Nat}
    (hds : ∀ d ∈ ds, d < 10) :
    ∃ part', (part' = .zero ∨ part' = .whole ∨ part' = .fraction) ∧
      Lexer.run ⟨.numeral part n, tokens⟩
          (if ds = [] then [] else 0x2e :: ds.map Numeral.digit) =
        some ⟨.numeral part' { n with fraction := ds.reverse }, tokens⟩ := by
  cases ds with
  | nil =>
    have hsame : { n with fraction := [] } = n := by rw [← hn]
    exact ⟨part, hpart.imp_right .inl, by simp [Lexer.run, hsame]⟩
  | cons d ds =>
    have hpoint : Lexer.step ⟨.numeral part n, tokens⟩ 0x2e = some ⟨.numeral .point n, tokens⟩ := by
      rcases hpart with rfl | rfl <;> rfl
    obtain ⟨hdigit, hvalue⟩ := isDigit_digit (hds d (by simp))
    have hfirst : Lexer.step ⟨.numeral .point n, tokens⟩ (Numeral.digit d) =
        some ⟨.numeral .fraction { n with fraction := [d] }, tokens⟩ := by
      simp [Lexer.step, NumeralPart.extend, hdigit, hvalue]
    refine ⟨.fraction, .inr (.inr rfl), ?_⟩
    simp only [reduceCtorEq, ↓reduceIte, List.map_cons, Lexer.run, hpoint, hfirst]
    rw [run_digits (.inr (.inl rfl)) tokens _ (fun x hx => hds x (List.mem_cons_of_mem d hx))]
    simp [NumeralPart.push]

theorem run_exponent (tokens : List Token) {part : NumeralPart}
    (hpart : part = .zero ∨ part = .whole ∨ part = .fraction) {n : Numeral} (hn : n.exponent = [])
    (hsign : n.exponentNegative = false) {negative : Bool} {ds : List Nat} {form : List UInt8}
    (h : SpellsExponent negative ds form) :
    ∃ part', part'.mayEnd = true ∧
      Lexer.run ⟨.numeral part n, tokens⟩ form =
        some ⟨.numeral part' { n with exponentNegative := negative, exponent := ds.reverse },
          tokens⟩ := by
  cases h with
  | absent =>
    have hsame : { n with exponentNegative := false, exponent := [] } = n := by rw [← hn, ← hsign]
    exact ⟨part, by rcases hpart with rfl | rfl | rfl <;> rfl, by simp [Lexer.run, hsame]⟩
  | @present _ _ mark sign isMark isSign nonempty digit =>
    have hmark : Lexer.step ⟨.numeral part n, tokens⟩ mark = some ⟨.numeral .mark n, tokens⟩ := by
      rcases hpart with rfl | rfl | rfl <;> rcases isMark with rfl | rfl <;> rfl
    obtain ⟨d, ds, rfl⟩ := List.exists_cons_of_ne_nil nonempty
    obtain ⟨hdigit, hvalue⟩ := isDigit_digit (digit d (by simp))
    have hfirst : Lexer.run ⟨.numeral .mark n, tokens⟩ (sign ++ [Numeral.digit d]) =
        some ⟨.numeral .exponent { n with exponentNegative := negative, exponent := [d] },
          tokens⟩ := by
      have hplus : isDigit 0x2b = false := by decide
      have hminus : isDigit 0x2d = false := by decide
      cases isSign with
      | absent => simp [Lexer.run, Lexer.step, NumeralPart.extend, hdigit, hvalue, hsign]
      | plus => simp [Lexer.run, Lexer.step, NumeralPart.extend, hdigit, hvalue, hsign, hplus]
      | minus => simp [Lexer.run, Lexer.step, NumeralPart.extend, hdigit, hvalue, hminus]
    have hsplit : mark :: sign ++ (d :: ds).map Numeral.digit =
        [mark] ++ (sign ++ [Numeral.digit d]) ++ ds.map Numeral.digit := by simp
    refine ⟨.exponent, rfl, ?_⟩
    rw [hsplit, run_append, run_append, Lexer.run, hmark]
    simp only [Lexer.run, Option.bind_some, hfirst]
    rw [run_digits (.inr (.inr rfl)) tokens _ (fun x hx => digit x (List.mem_cons_of_mem d hx))]
    simp [NumeralPart.push]

/-- Whatever spells a numeral is read as that numeral, which may end there. -/
theorem run_numeral (tokens : List Token) {n : Numeral} {form : List UInt8} (h : n.Spelled form) :
    ∃ part, part.mayEnd = true ∧
      Lexer.run ⟨.between, tokens⟩ form = some ⟨.numeral part n.ofReversed, tokens⟩ := by
  obtain ⟨hwhole, hfraction, exponent, hexponent, rfl⟩ := h
  obtain ⟨part₁, hpart₁, hrun₁⟩ := run_whole tokens n.negative hwhole
  obtain ⟨part₂, hpart₂, hrun₂⟩ := run_fraction tokens hpart₁
    (n := { negative := n.negative, whole := n.whole.reverse }) rfl hfraction
  obtain ⟨part₃, hpart₃, hrun₃⟩ := run_exponent tokens hpart₂
    (n := { negative := n.negative, whole := n.whole.reverse, fraction := n.fraction.reverse })
    rfl rfl hexponent
  refine ⟨part₃, hpart₃, ?_⟩
  rw [Numeral.significand, run_append, run_append, hrun₁, Option.bind_some, hrun₂,
    Option.bind_some, hrun₃]
  rfl

end Lexer

theorem leading_digitsOf (k : Nat) : Leading (digitsOf k) := by
  by_cases hk : k = 0
  · exact .inl (by rw [hk]; rfl)
  · obtain ⟨d, ds, hd, hpos⟩ := digitsOf_positive k (by omega)
    exact .inr ⟨d, ds, hd, hpos, digitsOf_lt_ten k⟩

/-- The numeral of an integer is spelled by its sign and its digits. -/
theorem Numeral.spelled_ofInt (i : Int) : (ofInt i).Spelled (ofInt i).render := by
  refine ⟨leading_digitsOf i.natAbs, by simp [ofInt], [], .absent, ?_⟩
  simp [render, significand, ofInt]

end UnaryRpc.Json
