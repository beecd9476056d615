import UnaryRpc.Json.Tree
import UnaryRpc.Proofs.Json.Token

namespace UnaryRpc.Json

namespace Tree

theorem tokens_cons (t : Tree) :
    ∃ first more, t.tokens = first :: more ∧ first ≠ .closeArray := by
  cases t with
  | array items => cases items <;> exact ⟨_, _, rfl, by simp⟩
  | object members =>
    cases members with
    | nil => exact ⟨_, _, rfl, by simp⟩
    | cons m ms => exact ⟨_, _, rfl, by simp⟩
  | _ => exact ⟨_, _, rfl, by simp⟩

end Tree

namespace Builder

/-- The first item of an array is read as a further one would be, after nothing. -/
theorem run_firstItem (opened : List Frame) (t : Tree) (rest : List Token) :
    Builder.run ⟨opened, .firstItem⟩ (t.tokens ++ rest) =
      Builder.run ⟨.array [] :: opened, .value⟩ (t.tokens ++ rest) := by
  obtain ⟨first, more, ht, hne⟩ := t.tokens_cons
  rw [ht]
  cases first with
  | closeArray => exact absurd rfl hne
  | _ => rfl

mutual
/-- The tokens of a value complete that value. -/
theorem run_tokens (opened : List Frame) (t : Tree) (rest : List Token) :
    Builder.run ⟨opened, .value⟩ (t.tokens ++ rest) =
      Builder.run (complete opened t) rest := by
  match t with
  | .null => rfl
  | .bool b => rfl
  | .number n => rfl
  | .text raw => rfl
  | .array [] => rfl
  | .array (t :: ts) =>
    simp only [Tree.tokens, List.cons_append, List.append_assoc]
    rw [run]
    change Builder.run ⟨opened, .firstItem⟩ (t.tokens ++ (Tree.itemTokens ts ++ rest)) = _
    rw [run_firstItem, run_tokens, complete, run_itemTokens]
    rfl
  | .object [] => rfl
  | .object ((k, t) :: ms) =>
    simp only [Tree.tokens, List.cons_append, List.append_assoc]
    change Builder.run ⟨.object [] k :: opened, .value⟩
      (t.tokens ++ (Tree.memberTokens ms ++ rest)) = _
    rw [run_tokens, complete, run_memberTokens]
    rfl

theorem run_itemTokens (opened : List Frame) (items ts : List Tree) (rest : List Token) :
    Builder.run ⟨opened, .itemEnd items⟩ (Tree.itemTokens ts ++ rest) =
      Builder.run (complete opened (.array (items.reverse ++ ts))) rest := by
  match ts with
  | [] => simp [Tree.itemTokens, run, step]
  | t :: ts =>
    simp only [Tree.itemTokens, List.cons_append, List.append_assoc]
    change Builder.run ⟨.array items :: opened, .value⟩
      (t.tokens ++ (Tree.itemTokens ts ++ rest)) = _
    rw [run_tokens, complete, run_itemTokens]
    simp

theorem run_memberTokens (opened : List Frame) (members ms : List (RawText × Tree))
    (rest : List Token) :
    Builder.run ⟨opened, .memberEnd members⟩ (Tree.memberTokens ms ++ rest) =
      Builder.run (complete opened (.object (members.reverse ++ ms))) rest := by
  match ms with
  | [] => simp [Tree.memberTokens, run, step]
  | (k, t) :: ms =>
    simp only [Tree.memberTokens, List.cons_append, List.append_assoc]
    change Builder.run ⟨.object members k :: opened, .value⟩
      (t.tokens ++ (Tree.memberTokens ms ++ rest)) = _
    rw [run_tokens, complete, run_memberTokens]
    simp
end

end Builder

namespace Tree

/-- A value is put together again from its tokens. -/
theorem ofTokens?_tokens (t : Tree) : ofTokens? t.tokens = some t := by
  have h := Builder.run_tokens [] t []
  simp only [List.append_nil] at h
  rw [ofTokens?]
  change (Builder.run ⟨[], .value⟩ t.tokens).bind Builder.finish = some t
  rw [h]
  rfl

mutual
/-- Within a value every number is followed by a mark. -/
theorem apart_tokens (t : Tree) {rest : List Token} (hrest : Apart true rest) :
    Apart false (t.tokens ++ rest) := by
  match t with
  | .null => exact ⟨rfl, hrest.weaken⟩
  | .bool b => exact ⟨rfl, hrest.weaken⟩
  | .number n => exact ⟨rfl, hrest⟩
  | .text raw => exact ⟨rfl, hrest.weaken⟩
  | .array [] => exact ⟨rfl, rfl, hrest.weaken⟩
  | .array (t :: ts) =>
    simp only [tokens, List.cons_append, List.append_assoc]
    exact ⟨rfl, apart_tokens t (apart_itemTokens ts hrest)⟩
  | .object [] => exact ⟨rfl, rfl, hrest.weaken⟩
  | .object ((k, t) :: ms) =>
    simp only [tokens, List.cons_append, List.append_assoc]
    exact ⟨rfl, rfl, rfl, apart_tokens t (apart_memberTokens ms hrest)⟩

theorem apart_itemTokens (ts : List Tree) {rest : List Token} (hrest : Apart true rest) :
    Apart true (itemTokens ts ++ rest) := by
  match ts with
  | [] => exact ⟨rfl, hrest.weaken⟩
  | t :: ts =>
    simp only [itemTokens, List.cons_append, List.append_assoc]
    exact ⟨rfl, apart_tokens t (apart_itemTokens ts hrest)⟩

theorem apart_memberTokens (ms : List (RawText × Tree)) {rest : List Token}
    (hrest : Apart true rest) : Apart true (memberTokens ms ++ rest) := by
  match ms with
  | [] => exact ⟨rfl, hrest.weaken⟩
  | (k, t) :: ms =>
    simp only [memberTokens, List.cons_append, List.append_assoc]
    exact ⟨rfl, rfl, rfl, apart_tokens t (apart_memberTokens ms hrest)⟩
end

/-- A value is read from whatever spells it. -/
theorem parse_of_spelled {t : Tree} {bytes : List UInt8} (h : t.Spelled bytes) :
    parse bytes = some t := by
  have hapart : Apart false (t.tokens ++ []) := t.apart_tokens trivial
  rw [List.append_nil] at hapart
  rw [parse, tokens?_spaced h hapart]
  exact ofTokens?_tokens t

/-- A value whose every token is spelled as it is written here. -/
def Plain (t : Tree) : Prop := ∀ token ∈ t.tokens, token.Plain

theorem plain_null : Plain .null := by
  simp [Plain, tokens, Token.Plain]

theorem plain_ofText (s : String) : (ofText s).Plain := by
  intro token h
  simp only [ofText, tokens, List.mem_cons, List.not_mem_nil, or_false] at h
  subst h
  exact RawText.plain_ofText s

theorem plain_ofInt (i : Int) : Plain (.number (.ofInt i)) := by
  intro token h
  simp only [tokens, List.mem_cons, List.not_mem_nil, or_false] at h
  subst h
  exact ⟨i, rfl⟩

theorem plain_itemTokens {ts : List Tree} (h : ∀ t ∈ ts, Plain t) :
    ∀ token ∈ itemTokens ts, token.Plain := by
  induction ts with
  | nil => simp [itemTokens, Token.Plain]
  | cons t ts ih =>
    intro token hm
    simp only [itemTokens, List.mem_cons, List.mem_append] at hm
    rcases hm with rfl | hm | hm
    · trivial
    · exact h t (by simp) token hm
    · exact ih (fun x hx => h x (by simp [hx])) token hm

theorem plain_array {ts : List Tree} (h : ∀ t ∈ ts, Plain t) : Plain (.array ts) := by
  intro token hm
  cases ts with
  | nil =>
    simp only [tokens, List.mem_cons, List.not_mem_nil, or_false] at hm
    rcases hm with rfl | rfl <;> trivial
  | cons t ts =>
    simp only [tokens, List.mem_cons, List.mem_append] at hm
    rcases hm with rfl | hm | hm
    · trivial
    · exact h t (by simp) token hm
    · exact plain_itemTokens (fun x hx => h x (by simp [hx])) token hm

theorem plain_memberTokens {ms : List (RawText × Tree)}
    (h : ∀ m ∈ ms, (∀ p ∈ m.1, p.Plain) ∧ Plain m.2) :
    ∀ token ∈ memberTokens ms, token.Plain := by
  induction ms with
  | nil => simp [memberTokens, Token.Plain]
  | cons m ms ih =>
    obtain ⟨k, t⟩ := m
    obtain ⟨hk, ht⟩ := h (k, t) (by simp)
    intro token hm
    simp only [memberTokens, List.mem_cons, List.mem_append] at hm
    rcases hm with rfl | rfl | rfl | hm | hm
    · trivial
    · exact hk
    · trivial
    · exact ht token hm
    · exact ih (fun x hx => h x (by simp [hx])) token hm

theorem plain_object {ms : List (RawText × Tree)}
    (h : ∀ m ∈ ms, (∀ p ∈ m.1, p.Plain) ∧ Plain m.2) : Plain (.object ms) := by
  intro token hm
  cases ms with
  | nil =>
    simp only [tokens, List.mem_cons, List.not_mem_nil, or_false] at hm
    rcases hm with rfl | rfl <;> trivial
  | cons m ms =>
    obtain ⟨k, t⟩ := m
    obtain ⟨hk, ht⟩ := h (k, t) (by simp)
    simp only [tokens, List.mem_cons, List.mem_append] at hm
    rcases hm with rfl | rfl | rfl | hm | hm
    · trivial
    · exact hk
    · trivial
    · exact ht token hm
    · exact plain_memberTokens (fun x hx => h x (by simp [hx])) token hm

/-- A plain value is read back from its compact text. -/
theorem parse_render {t : Tree} (ht : t.Plain) : parse t.render = some t :=
  parse_of_spelled (spaced_render ht)

end Tree

end UnaryRpc.Json
