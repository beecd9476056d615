import UnaryRpc.Http.Headers

namespace UnaryRpc

namespace Http

/-- The character of a byte below 128. -/
def asciiChar (b : UInt8) : Char := Char.ofNat b.toNat

theorem utf8EncodeChar_asciiChar {b : UInt8} (hb : b < 128) :
    String.utf8EncodeChar (asciiChar b) = [b] := by
  have h : ∀ n : Fin 128, String.utf8EncodeChar (Char.ofNat n.val) = [n.val.toUInt8] := by decide
  have hlt : b.toNat < 128 := by simpa [UInt8.lt_iff_toNat_lt] using hb
  rw [asciiChar, h ⟨b.toNat, hlt⟩]
  simp

theorem flatMap_asciiChar {v : List UInt8} (h : ∀ b ∈ v, b < 128) :
    (v.map asciiChar).flatMap String.utf8EncodeChar = v := by
  induction v with
  | nil => rfl
  | cons b v ih =>
    rw [List.map_cons, List.flatMap_cons, utf8EncodeChar_asciiChar (h b (by simp)),
      ih (fun b' hb' => h b' (List.mem_cons_of_mem _ hb')), List.singleton_append]

/-- Whether a header value has visible characters, blanks and tabs only. -/
def HeaderValue.Visible (v : HeaderValue) : Prop := ∀ b ∈ v, (32 ≤ b ∧ b ≤ 126) ∨ b = 9

instance (v : HeaderValue) : Decidable v.Visible :=
  inferInstanceAs (Decidable (∀ b ∈ v, (32 ≤ b ∧ b ≤ 126) ∨ b = 9))

theorem HeaderValue.visible_iff (v : HeaderValue) :
    v.all (fun b => (32 ≤ b && b < 127) || b == 9) = true ↔ Visible v := by
  rw [List.all_eq_true]
  constructor
  · intro h b hb
    have hb := h b hb
    simp only [Bool.or_eq_true, Bool.and_eq_true, decide_eq_true_eq, beq_iff_eq] at hb
    rcases hb with ⟨hlow, hhigh⟩ | htab
    · left
      refine ⟨hlow, ?_⟩
      simp only [UInt8.lt_iff_toNat_lt, UInt8.le_iff_toNat_le] at hhigh ⊢
      exact Nat.le_of_lt_succ hhigh
    · exact .inr htab
  · intro h b hb
    simp only [Bool.or_eq_true, Bool.and_eq_true, decide_eq_true_eq, beq_iff_eq]
    rcases h b hb with ⟨hlow, hhigh⟩ | htab
    · left
      refine ⟨hlow, ?_⟩
      simp only [UInt8.lt_iff_toNat_lt, UInt8.le_iff_toNat_le] at hhigh ⊢
      exact Nat.lt_succ_of_le hhigh
    · exact .inr htab

/-- A visible value is the text of its bytes. -/
theorem HeaderValue.text?_visible {v : HeaderValue} (h : Visible v) :
    HeaderValue.text? v = some (String.ofList (v.map asciiChar)) := by
  have hbytes : (v.map asciiChar).flatMap String.utf8EncodeChar = v := by
    apply flatMap_asciiChar
    intro b hb
    rcases h b hb with ⟨_, hhigh⟩ | htab
    · exact UInt8.lt_of_le_of_lt hhigh (by decide)
    · rw [htab]
      decide
  rw [text?, if_pos ((visible_iff v).mpr h)]
  conv => lhs; rw [← hbytes]
  exact Text.ofBytes?_ofList _

theorem HeaderValue.text?_invisible {v : HeaderValue} (h : ¬Visible v) :
    HeaderValue.text? v = none := by
  rw [text?, if_neg (fun hv => h ((visible_iff v).mp hv))]

end Http

end UnaryRpc
