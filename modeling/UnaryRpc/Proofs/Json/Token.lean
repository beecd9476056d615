import UnaryRpc.Proofs.Json.Numeral
import UnaryRpc.Proofs.Json.RawText

namespace UnaryRpc.Json

/-- A token that is spelled as it is written here: an integer, or a text of plain parts. -/
def Token.Plain : Token → Prop
  | .number n => ∃ i, n = Numeral.ofInt i
  | .text raw => ∀ p ∈ raw, p.Plain
  | _ => True

/-- Whether a token is a number. -/
def Token.isNumber : Token → Bool
  | .number _ => true
  | _ => false

/-- No two numbers stand side by side; `after` tells whether a number stands before them. -/
def Apart (after : Bool) : List Token → Prop
  | [] => True
  | t :: ts => (after && t.isNumber) = false ∧ Apart t.isNumber ts

theorem Apart.weaken {after : Bool} {ts : List Token} (h : Apart true ts) : Apart after ts := by
  cases ts with
  | nil => trivial
  | cons t ts =>
    obtain ⟨hn, ht⟩ := h
    refine ⟨?_, ht⟩
    cases after with
    | false => rfl
    | true => exact hn

namespace Lexer

/-- A reader that may stop here goes on with a byte that no numeral takes as it would between
tokens. -/
theorem step_settled {l : Lexer} {read : List Token} {b : UInt8}
    (hl : l.finish = some read.reverse)
    (hb : l.mode = .between ∨ ∀ part n, part.mayEnd = true → NumeralPart.extend part n b = none) :
    l.step b = Lexer.step ⟨.between, read⟩ b := by
  obtain ⟨mode, tokens⟩ := l
  cases mode with
  | between =>
    simp only [finish, Option.some.injEq, List.reverse_inj] at hl
    subst hl
    rfl
  | numeral part n =>
    simp only [finish] at hl
    split at hl
    · rename_i hend
      simp only [Option.some.injEq, List.reverse_inj] at hl
      subst hl
      rcases hb with hb | hb
      · contradiction
      · simp only [step, hb part n hend, hend, ↓reduceIte]
    · contradiction
  | word rest t => simp [finish] at hl
  | text raw => simp [finish] at hl
  | escape raw => simp [finish] at hl
  | unit raw left value => simp [finish] at hl

/-- A numeral that may end goes on with digits, a point or an exponent only. -/
theorem extend_eq_none {part : NumeralPart} (n : Numeral) {b : UInt8}
    (hpart : part.mayEnd = true) (hdigit : isDigit b = false)
    (hpoint : b ≠ 0x2e) (hmark : b ≠ 0x65 ∧ b ≠ 0x45) : part.extend n b = none := by
  cases part
  all_goals first
    | contradiction
    | simp [NumeralPart.extend, hdigit, hpoint, hmark.1, hmark.2]

/-- What spells a token other than a number begins with a byte that ends a numeral. -/
theorem spelled_ends_numeral {t : Token} {form : List UInt8} (h : t.Spelled form)
    (ht : t.isNumber = false) :
    ∃ b bs, form = b :: bs ∧
      ∀ part n, part.mayEnd = true → NumeralPart.extend part n b = none := by
  have hends : ∀ b ∈ [0x5b, 0x5d, 0x7b, 0x7d, 0x2c, 0x3a, 0x6e, 0x74, 0x66, 0x22],
      ∀ part n, part.mayEnd = true → NumeralPart.extend part n b = none := by
    intro b hb part n hpart
    have hbyte : ∀ b ∈ [0x5b, 0x5d, 0x7b, 0x7d, 0x2c, 0x3a, 0x6e, 0x74, 0x66, 0x22],
        isDigit b = false ∧ b ≠ 0x2e ∧ b ≠ 0x65 ∧ b ≠ 0x45 := by decide +kernel
    obtain ⟨hdigit, hpoint, hmark⟩ := hbyte b hb
    exact extend_eq_none n hpart hdigit hpoint hmark
  cases t with
  | number n => contradiction
  | text raw =>
    obtain ⟨inside, -, rfl⟩ := h
    exact ⟨_, _, rfl, hends _ (by decide)⟩
  | bool b =>
    obtain rfl : form = (Token.bool b).render := h
    cases b <;> exact ⟨_, _, rfl, hends _ (by decide)⟩
  | _ =>
    subst h
    exact ⟨_, _, rfl, hends _ (by decide)⟩

/-- What spells a token, read between tokens, adds that token. Only after a number does the reader
not stand between tokens. -/
theorem run_token (read : List Token) {t : Token} {form : List UInt8} (h : t.Spelled form) :
    ∃ l, Lexer.run ⟨.between, read⟩ form = some l ∧
      l.finish = some (t :: read).reverse ∧ (l.mode = .between ∨ t.isNumber = true) := by
  cases t with
  | number n =>
    obtain ⟨part, hend, hrun⟩ := run_numeral read h
    refine ⟨_, hrun, ?_, .inr rfl⟩
    simp [finish, hend, Numeral.ofReversed_ofReversed]
  | text raw =>
    obtain ⟨inside, hinside, rfl⟩ := h
    refine ⟨⟨.between, .text raw :: read⟩, ?_, rfl, .inl rfl⟩
    have hopen : Lexer.step ⟨.between, read⟩ 0x22 = some ⟨.text [], read⟩ := rfl
    simp only [List.cons_append, run, hopen]
    rw [run_append, run_raw read hinside, Option.bind_some]
    simp [run, step]
  | bool b =>
    obtain rfl : form = (Token.bool b).render := h
    cases b <;> exact ⟨_, rfl, rfl, .inl rfl⟩
  | _ =>
    subst h
    exact ⟨_, rfl, rfl, .inl rfl⟩

/-- Blanks between tokens leave no trace. -/
theorem run_blanks (read : List Token) {blanks : List UInt8}
    (h : ∀ b ∈ blanks, isBlank b = true) :
    Lexer.run ⟨.between, read⟩ blanks = some ⟨.between, read⟩ := by
  induction blanks with
  | nil => rfl
  | cons b blanks ih =>
    simp only [run, step, start, h b (by simp), ↓reduceIte]
    exact ih (fun x hx => h x (by simp [hx]))

/-- A blank ends a numeral. -/
theorem blank_ends_numeral {b : UInt8} (hb : isBlank b = true) :
    ∀ part n, part.mayEnd = true → NumeralPart.extend part n b = none := by
  intro part n hpart
  simp only [isBlank, Bool.or_eq_true, beq_iff_eq] at hb
  rcases hb with ((rfl | rfl) | rfl) | rfl <;>
    exact extend_eq_none n hpart (by decide) (by decide) (by decide)

/-- A reader that may stop goes on behind blanks as it would between tokens. -/
theorem run_settled {l : Lexer} {read : List Token} {b : UInt8} {bytes : List UInt8}
    (hl : l.finish = some read.reverse)
    (hb : l.mode = .between ∨ ∀ part n, part.mayEnd = true → NumeralPart.extend part n b = none) :
    l.run (b :: bytes) = Lexer.run ⟨.between, read⟩ (b :: bytes) := by
  simp only [run, step_settled hl hb]

theorem eq_between {l : Lexer} {read : List Token} (hl : l.finish = some read.reverse)
    (hmode : l.mode = .between) : l = ⟨.between, read⟩ := by
  obtain ⟨mode, tokens⟩ := l
  subst hmode
  simp only [finish, Option.some.injEq, List.reverse_inj] at hl
  rw [hl]

/-- Behind blanks, a reader that may stop stands between tokens; without any, it stops before a
token that is no number. -/
theorem run_first {l : Lexer} {read : List Token} (hl : l.finish = some read.reverse) {t : Token}
    (hmode : l.mode = .between ∨ t.isNumber = false) {blanks form : List UInt8}
    (blank : ∀ b ∈ blanks, isBlank b = true) (first : t.Spelled form) :
    l.run (blanks ++ form) = Lexer.run ⟨.between, read⟩ form := by
  cases blanks with
  | nil =>
    rcases hmode with hmode | hother
    · rw [eq_between hl hmode, List.nil_append]
    · obtain ⟨b, bs, rfl, hends⟩ := spelled_ends_numeral first hother
      exact run_settled hl (.inr hends)
  | cons b blanks =>
    rw [List.cons_append, run_settled hl (.inr (blank_ends_numeral (blank b (by simp)))),
      ← List.cons_append, run_append, run_blanks read blank, Option.bind_some]

/-- Tokens are read from whatever spells them, from wherever the reader may stop. -/
theorem run_tokens {ts : List Token} {bytes : List UInt8} (h : Spaced ts bytes) (l : Lexer)
    (read : List Token) (after : Bool) (hl : l.finish = some read.reverse)
    (hmode : l.mode = .between ∨ after = true) (hapart : Apart after ts) :
    ∃ l', l.run bytes = some l' ∧ l'.finish = some (read.reverse ++ ts) := by
  induction h generalizing l read after with
  | @nil blanks blank =>
    cases blanks with
    | nil => exact ⟨l, rfl, by simpa using hl⟩
    | cons b blanks =>
      rw [run_settled hl (.inr (blank_ends_numeral (blank b (by simp)))), run_blanks read blank]
      exact ⟨_, rfl, by simp [finish]⟩
  | @cons t ts blanks form bytes blank first _ ih =>
    obtain ⟨hn, hrest⟩ := hapart
    obtain ⟨l₁, hrun, hfin, hmode₁⟩ := run_token read first
    have hother : l.mode = .between ∨ t.isNumber = false := by
      rcases hmode with hmode | rfl
      · exact .inl hmode
      · exact .inr (by simpa using hn)
    obtain ⟨l', hrun', hfin'⟩ := ih l₁ (t :: read) t.isNumber hfin hmode₁ hrest
    refine ⟨l', ?_, by simpa using hfin'⟩
    rw [run_append, run_first hl hother blank first, hrun]
    exact hrun'

end Lexer

/-- Tokens are read from whatever spells them. -/
theorem tokens?_spaced {ts : List Token} {bytes : List UInt8} (h : Spaced ts bytes)
    (hapart : Apart false ts) : tokens? bytes = some ts := by
  obtain ⟨l, hrun, hfin⟩ := Lexer.run_tokens h {} [] false rfl (.inl rfl) hapart
  rw [tokens?, hrun]
  simpa using hfin

/-- The spelling of a plain token spells it. -/
theorem Token.Plain.spelled {t : Token} (ht : t.Plain) : t.Spelled t.render := by
  cases t with
  | number n =>
    obtain ⟨i, rfl⟩ := ht
    exact Numeral.spelled_ofInt i
  | text raw => exact ⟨_, RawText.spelled_render ht, rfl⟩
  | _ => rfl

theorem spaced_render {ts : List Token} (hts : ∀ t ∈ ts, t.Plain) :
    Spaced ts (ts.flatMap Token.render) := by
  induction ts with
  | nil => exact .nil (by simp)
  | cons t ts ih =>
    have hfirst : Spaced (t :: ts) ([] ++ t.render ++ ts.flatMap Token.render) :=
      .cons (by simp) (hts t (by simp)).spelled (ih (fun x hx => hts x (by simp [hx])))
    simpa using hfirst

end UnaryRpc.Json
