import Mathlib.Tactic.SplitIfs
import UnaryRpc.Proofs.Json.Reading

namespace UnaryRpc.Json

namespace Lexer

/-- A reader that had read tokens before. -/
def behind (read : List Token) (l : Lexer) : Lexer := ⟨l.mode, l.tokens ++ read⟩

variable (read : List Token)

theorem start_behind (tokens : List Token) (b : UInt8) :
    start (tokens ++ read) b = (start tokens b).map (behind read) := by
  simp only [start, apply_ite (Option.map (behind read)), Option.map_some, Option.map_map]
  rfl

theorem step_behind (l : Lexer) (b : UInt8) :
    (l.behind read).step b = (l.step b).map (behind read) := by
  obtain ⟨mode, tokens⟩ := l
  cases mode with
  | between => exact start_behind read tokens b
  | word rest token =>
    cases rest with
    | nil => exact start_behind read (token :: tokens) b
    | cons c rest =>
      simp only [behind, step]
      split_ifs <;> rfl
  | numeral part n =>
    simp only [behind, step]
    cases part.extend n b with
    | some next => rfl
    | none =>
      dsimp only
      split_ifs
      · exact start_behind read (.number n.ofReversed :: tokens) b
      · rfl
  | text raw =>
    simp only [behind, step]
    split_ifs <;> rfl
  | escape raw =>
    simp only [behind, step]
    split_ifs
    · rfl
    · cases escapedByte? b <;> rfl
  | unit raw left value =>
    simp only [behind, step]
    cases hexValue? b with
    | none => rfl
    | some d =>
      simp only [Option.map_some]
      split_ifs <;> rfl

theorem run_behind (l : Lexer) (bytes : List UInt8) :
    (l.behind read).run bytes = (l.run bytes).map (behind read) := by
  induction bytes generalizing l with
  | nil => rfl
  | cons b bytes ih =>
    rw [run, run, step_behind]
    cases l.step b with
    | none => rfl
    | some l => exact ih l

theorem finish_behind (l : Lexer) :
    (l.behind read).finish = l.finish.map (fun tokens => read.reverse ++ tokens) := by
  obtain ⟨mode, tokens⟩ := l
  cases mode with
  | between => simp [behind, finish]
  | numeral part n =>
    simp only [behind, finish]
    split_ifs <;> simp
  | _ => rfl

end Lexer

/-- A reader that stops behind a token that is no number stands between tokens. -/
theorem Lexer.between_of_finish {l : Lexer} {tokens : List Token} {last : Token}
    (h : l.finish = some (tokens ++ [last])) (hlast : last.isNumber = false) :
    l.mode = .between := by
  obtain ⟨mode, read⟩ := l
  cases mode with
  | between => rfl
  | numeral part n =>
    simp only [finish] at h
    split at h
    · have hnumber : Token.number n.ofReversed = last := by
        simpa using congrArg List.getLast? (Option.some.inj h)
      rw [← hnumber] at hlast
      cases hlast
    · cases h
  | _ => cases h

/-- Behind tokens of which the last is no number, others are read as they are by themselves. -/
theorem tokens?_append {bytes : List UInt8} {tokens : List Token} {last : Token}
    (h : tokens? bytes = some (tokens ++ [last])) (hlast : last.isNumber = false)
    (more : List UInt8) :
    tokens? (bytes ++ more) = (tokens? more).map (fun others => tokens ++ [last] ++ others) := by
  obtain ⟨l, hrun, hfinish⟩ := Option.bind_eq_some_iff.mp h
  have hstops : l.finish = some (tokens ++ [last]).reverse.reverse := by
    rw [hfinish, List.reverse_reverse]
  have hl : l = Lexer.behind (tokens ++ [last]).reverse {} :=
    Lexer.eq_between hstops (Lexer.between_of_finish hfinish hlast)
  rw [tokens?, Lexer.run_append, hrun, Option.bind_some, hl, Lexer.run_behind, Option.bind_map,
    tokens?, Option.map_bind]
  congr 1
  funext l'
  rw [Function.comp, Lexer.finish_behind, List.reverse_reverse]
  rfl

theorem tokens?_blanks {blanks : List UInt8} (h : ∀ b ∈ blanks, isBlank b = true)
    (bytes : List UInt8) : tokens? (blanks ++ bytes) = tokens? bytes := by
  rw [tokens?, Lexer.run_append, Lexer.run_blanks [] h]
  rfl

namespace Tree

theorem itemTokens_last (ts : List Tree) : ∃ front, itemTokens ts = front ++ [.closeArray] := by
  induction ts with
  | nil => exact ⟨[], rfl⟩
  | cons t ts ih =>
    obtain ⟨front, hfront⟩ := ih
    exact ⟨.comma :: (t.tokens ++ front), by simp [itemTokens, hfront]⟩

theorem memberTokens_last (ms : List (RawText × Tree)) :
    ∃ front, memberTokens ms = front ++ [.closeObject] := by
  induction ms with
  | nil => exact ⟨[], rfl⟩
  | cons m ms ih =>
    obtain ⟨k, t⟩ := m
    obtain ⟨front, hfront⟩ := ih
    exact ⟨.comma :: .text k :: .colon :: (t.tokens ++ front), by simp [memberTokens, hfront]⟩

/-- An object stands between its marks. -/
theorem tokens_object_ends (ms : List (RawText × Tree)) :
    ∃ inside, (object ms).tokens = .openObject :: inside ++ [.closeObject] := by
  cases ms with
  | nil => exact ⟨[], rfl⟩
  | cons m ms =>
    obtain ⟨k, t⟩ := m
    obtain ⟨front, hfront⟩ := memberTokens_last ms
    exact ⟨.text k :: .colon :: (t.tokens ++ front), by simp [tokens, hfront]⟩

/-- The last token of a value other than a number is no number. -/
theorem tokens_last {t : Tree} (h : ∀ n, t ≠ .number n) :
    ∃ front last, t.tokens = front ++ [last] ∧ last.isNumber = false := by
  cases t with
  | null => exact ⟨[], _, rfl, rfl⟩
  | bool b => exact ⟨[], _, rfl, rfl⟩
  | number n => exact absurd rfl (h n)
  | text raw => exact ⟨[], _, rfl, rfl⟩
  | array items =>
    cases items with
    | nil => exact ⟨[.openArray], _, rfl, rfl⟩
    | cons t ts =>
      obtain ⟨front, hfront⟩ := itemTokens_last ts
      exact ⟨.openArray :: (t.tokens ++ front), .closeArray, by simp [tokens, hfront], rfl⟩
  | object ms =>
    obtain ⟨inside, hinside⟩ := tokens_object_ends ms
    exact ⟨_, _, hinside, rfl⟩

/-- The tokens of a value with more behind them are not those of a value. -/
theorem ofTokens?_append (t : Tree) {more : List Token} (h : more ≠ []) :
    ofTokens? (t.tokens ++ more) = none := by
  obtain ⟨token, others, rfl⟩ := List.exists_cons_of_ne_nil h
  have hrun := Builder.run_tokens [] t (token :: others)
  rw [ofTokens?]
  change (Builder.run ⟨[], .value⟩ (t.tokens ++ token :: others)).bind Builder.finish = none
  rw [hrun]
  rfl

section

variable {bytes more : List UInt8} {t : Tree}

theorem parse_append (h : parse bytes = some t) (ht : ∀ n, t ≠ .number n) :
    parse (bytes ++ more) =
      (tokens? more).bind (fun others => ofTokens? (t.tokens ++ others)) := by
  obtain ⟨tokens, htokens, hread⟩ := Option.bind_eq_some_iff.mp h
  obtain rfl := ofTokens?_eq_some_iff.mp hread
  obtain ⟨front, last, hends, hlast⟩ := tokens_last ht
  rw [hends] at htokens ⊢
  rw [parse, tokens?_append htokens hlast, Option.bind_map]
  rfl

/-- Behind a value other than a number there may be blanks. -/
theorem parse_append_blanks (h : parse bytes = some t) (ht : ∀ n, t ≠ .number n)
    (hmore : ∀ b ∈ more, isBlank b = true) : parse (bytes ++ more) = some t := by
  have hnone : tokens? more = some [] := tokens?_spaced (.nil hmore) trivial
  rw [parse_append h ht, hnone, Option.bind_some, List.append_nil]
  exact ofTokens?_tokens t

/-- Behind a value other than a number there may be nothing but blanks. -/
theorem parse_append_other (h : parse bytes = some t) (ht : ∀ n, t ≠ .number n) {b : UInt8}
    (hb : b ∈ more) (hother : isBlank b = false) : parse (bytes ++ more) = none := by
  rw [parse_append h ht, Option.bind_eq_none_iff]
  intro others hothers
  apply ofTokens?_append
  rintro rfl
  cases spaced_of_tokens? hothers with
  | nil hblank =>
    rw [hblank b hb] at hother
    cases hother

theorem parse_blanks {blanks : List UInt8} (h : ∀ b ∈ blanks, isBlank b = true)
    (bytes : List UInt8) : parse (blanks ++ bytes) = parse bytes := by
  rw [parse, tokens?_blanks h, parse]

/-- What starts with the mark of an object is no number. -/
theorem ne_number_of_parse (h : parse (0x7b :: bytes) = some t) (n : Numeral) : t ≠ .number n := by
  rintro rfl
  obtain ⟨tokens, htokens, hread⟩ := Option.bind_eq_some_iff.mp h
  have hmark : tokens? [0x7b] = some ([] ++ [.openObject]) := rfl
  have hfirst := tokens?_append hmark rfl bytes
  rw [List.singleton_append, htokens, ofTokens?_eq_some_iff.mp hread] at hfirst
  obtain ⟨others, -, hothers⟩ := Option.map_eq_some_iff.mp hfirst.symm
  cases hothers

/-- The text of an object starts with no other text of a value. -/
theorem parse_prefix {inside part : List UInt8} (h : parse (0x7b :: inside ++ [0x7d]) = some t)
    (hpart : part <+: 0x7b :: inside ++ [0x7d]) (hne : part ≠ 0x7b :: inside ++ [0x7d]) :
    parse part = none := by
  obtain ⟨more, hmore⟩ := hpart
  cases part with
  | nil => rfl
  | cons b part =>
    obtain rfl : b = 0x7b := (List.cons.inj hmore).1
    rw [Option.eq_none_iff_forall_ne_some]
    intro t' ht'
    -- what is missing ends with the mark of the object, which is no blank
    have hmark : (0x7d : UInt8) ∈ more := by
      rcases List.eq_nil_or_concat more with rfl | ⟨front, last, rfl⟩
      · rw [List.append_nil] at hmore
        exact absurd hmore hne
      · rw [List.concat_eq_append, ← List.append_assoc] at hmore
        obtain ⟨-, hlast⟩ := List.append_inj' hmore rfl
        simp [List.singleton_inj.mp hlast]
    have hnone := parse_append_other ht' (ne_number_of_parse ht') hmark rfl
    rw [hmore, h] at hnone
    cases hnone

end

/-- The text of an object between its marks. -/
theorem render_object (ms : List (RawText × Tree)) :
    ∃ inside, (object ms).render = 0x7b :: inside ++ [0x7d] := by
  obtain ⟨inside, hinside⟩ := tokens_object_ends ms
  refine ⟨inside.flatMap Token.render, ?_⟩
  rw [render, hinside, List.flatMap_append, List.flatMap_cons]
  rfl

end Tree

/-- What becomes of a text when its end is lost, or when something other than blanks gets behind
it. -/
inductive Damaged (text : List UInt8) : List UInt8 → Prop
  | cut {part : List UInt8} (front : part <+: text) (short : part ≠ text) : Damaged text part
  | padded {more : List UInt8} {b : UInt8} (behind : b ∈ more) (other : isBlank b = false) :
      Damaged text (text ++ more)

/-- A text with blanks around it. -/
structure Surrounded (text bytes : List UInt8) : Prop where
  blanks : ∃ before after, bytes = before ++ text ++ after ∧ ∀ b ∈ before ++ after, isBlank b = true

section

variable {ms : List (RawText × Tree)} {bytes : List UInt8} (h : (Tree.object ms).Plain)
include h

/-- The text of an object is no value's text any more once it is damaged. -/
theorem Damaged.parse (hd : Damaged (Tree.object ms).render bytes) : Tree.parse bytes = none := by
  have hparse := Tree.parse_render h
  cases hd with
  | cut front short =>
    obtain ⟨inside, hinside⟩ := Tree.render_object ms
    rw [hinside] at hparse front short
    exact Tree.parse_prefix hparse front short
  | padded behind other => exact Tree.parse_append_other hparse nofun behind other

theorem Surrounded.parse (hs : Surrounded (Tree.object ms).render bytes) :
    Tree.parse bytes = some (.object ms) := by
  obtain ⟨before, after, rfl, hblank⟩ := hs.blanks
  obtain ⟨hbefore, hafter⟩ := List.forall_mem_append.mp hblank
  rw [List.append_assoc, Tree.parse_blanks hbefore]
  exact Tree.parse_append_blanks (Tree.parse_render h) nofun hafter

end

end UnaryRpc.Json
