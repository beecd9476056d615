import Mathlib.Logic.Function.Iterate
import UnaryRpc.Proofs.Envelope

namespace UnaryRpc

namespace WireCode

theorem codeOf_ne_ok (text : String) : codeOf text ≠ .ok := by
  have hrows : ∀ w ∈ table, w.code ≠ .ok := by decide
  unfold codeOf
  cases hf : find? text with
  | none => decide
  | some w => exact hrows w (List.mem_of_find?_eq_some hf)

theorem ofCode_ne_empty (code : Code) : ofCode code ≠ "" := by
  cases code <;> decide

/-- A wire text that comes back from its code is that of a public row. -/
theorem ofCode_codeOf_iff (text : String) :
    ofCode (codeOf text) = text ↔ ∃ w ∈ table, w.reserved = false ∧ w.text = text := by
  constructor
  · intro h
    have hpublic : ∀ code, ∃ w ∈ table, w.reserved = false ∧ w.text = ofCode code := by
      intro code
      cases code <;> decide
    rw [← h]
    exact hpublic (codeOf text)
  · rintro ⟨w, hw, hpublic, rfl⟩
    have hrows : ∀ w ∈ table, w.reserved = false → ofCode (codeOf w.text) = w.text := by decide
    exact hrows w hw hpublic

/-- The wire texts that do not come back from their codes: the two reserved ones, and those that
are not registered. -/
theorem ofCode_codeOf_ne_iff (text : String) :
    ofCode (codeOf text) ≠ text ↔
      text = "malformed" ∨ text = "bad_route" ∨ ∀ w ∈ table, w.text ≠ text := by
  rw [Ne, ofCode_codeOf_iff]
  have hrows : ∀ w ∈ table,
      w.reserved = true ↔ w.text = "malformed" ∨ w.text = "bad_route" := by
    decide
  have hreserved : ∀ v ∈ table, v.reserved = true → ∀ w ∈ table, w.text = v.text →
      w.reserved = true := by
    decide
  constructor
  · intro hnone
    by_cases hrow : ∃ w ∈ table, w.text = text
    · obtain ⟨w, hw, rfl⟩ := hrow
      have hw' : w.reserved = true := by
        simpa using fun h => hnone ⟨w, hw, h, rfl⟩
      rcases (hrows w hw).mp hw' with h | h
      · exact .inl h
      · exact .inr (.inl h)
    · exact .inr (.inr (fun w hw h => hrow ⟨w, hw, h⟩))
  · rintro h ⟨w, hw, hpublic, rfl⟩
    have hpublic' : ¬w.reserved = true := by simp [hpublic]
    rcases h with h | h | h
    · exact hpublic' ((hrows w hw).mpr (.inl h))
    · exact hpublic' ((hrows w hw).mpr (.inr h))
    · exact h w hw rfl

end WireCode

namespace Envelope

open Http Json

/-- The status that is read from the error response of a status. -/
def relay (s : Status) : Status := decode (write s {})

theorem relay_eq (s : Status) : relay s = sent s := decode_sent s {}

theorem sentMetadata_sent (s : Status) : sentMetadata (sent s) = sentMetadata s := by
  apply Table.erase_of_get?_none
  rw [sent, sentMetadata, Table.get?_erase, if_pos rfl]

theorem override?_sent (s : Status) : (sent s).override? = none := by
  rw [Status.override?, sent, sentMetadata, Table.get?_erase, if_pos rfl]

/-- A status that was sent is spelled by the public text of its code. -/
theorem wireText_sent (s : Status) :
    (sent s).wireText = WireCode.ofCode (WireCode.codeOf s.wireText) := by
  rw [Status.wireText_eq, override?_sent, Option.getD_none, sent]

/-- Only an empty message with an empty override is sent without any message. -/
theorem sentMessage_eq_empty_iff (s : Status) :
    sentMessage s = "" ↔ s.override? = some "" ∧ s.message = "" := by
  unfold sentMessage
  split
  · rename_i hmessage
    rw [Status.wireText_eq]
    cases s.override? with
    | none => simp [WireCode.ofCode_ne_empty]
    | some text => simp [hmessage]
  · rename_i hmessage
    simp [hmessage]

/-- A status that was sent is sent as it is exactly if it has a message. -/
theorem sent_sent_iff (s : Status) : sent (sent s) = sent s ↔ sentMessage s ≠ "" := by
  constructor
  · intro h hempty
    have hwire : sentMessage (sent s) = (sent s).wireText := if_pos hempty
    have hmessage : sentMessage (sent s) = sentMessage s := congrArg Status.message h
    rw [hwire, wireText_sent, hempty] at hmessage
    exact WireCode.ofCode_ne_empty _ hmessage
  · intro h
    have hcode : WireCode.codeOf (sent s).wireText = WireCode.codeOf s.wireText := by
      rw [wireText_sent, WireCode.codeOf_ofCode (WireCode.codeOf_ne_ok _)]
    have hmessage : sentMessage (sent s) = sentMessage s := if_neg h
    rw [sent, hcode, hmessage, sentMetadata_sent]
    rfl

/-- A status is spelled alike after a hop exactly if its wire text comes back from its code. -/
theorem encode_sent_iff (s : Status) :
    encode (sent s) = encode s ↔ WireCode.ofCode (WireCode.codeOf s.wireText) = s.wireText := by
  rw [← wireText_sent, encode_eq_iff]
  constructor
  · exact And.left
  · intro hwire
    have hmessage : sentMessage (sent s) = sentMessage s := by
      have hnonempty : s.wireText ≠ "" := by
        rw [← hwire, wireText_sent]
        exact WireCode.ofCode_ne_empty _
      have hsome : sentMessage s ≠ "" := by
        unfold sentMessage
        split
        · exact hnonempty
        · assumption
      exact if_neg hsome
    exact ⟨hwire, hmessage, sentMetadata_sent s⟩

/-- However often an error is passed on, the first hop settles it, unless it has neither a message nor
a wire text. It is written as before exactly if its wire text is that of a public row. -/
theorem relay_settles (s : Status) :
    let w := (s.metadata.get? "twirp_status").getD (WireCode.ofCode s.code)
    ((∀ n, 1 ≤ n → relay^[n] s = relay s) ↔
      ¬(s.metadata.get? "twirp_status" = some "" ∧ s.message = "")) ∧
    (relay s).metadata.get? "twirp_status" = none ∧
    (encode (relay s) = encode s ↔
      ∃ row ∈ WireCode.table, row.reserved = false ∧ row.text = w) ∧
    (encode (relay s) ≠ encode s ↔
      w = "malformed" ∨ w = "bad_route" ∨ ∀ row ∈ WireCode.table, row.text ≠ w) := by
  intro w
  have hwire : s.wireText = w := s.wireText_eq
  have hencode : encode (relay s) = encode s ↔ WireCode.ofCode (WireCode.codeOf w) = w := by
    rw [relay_eq, ← hwire]
    exact encode_sent_iff s
  have hfixed : relay (relay s) = relay s ↔
      ¬(s.metadata.get? "twirp_status" = some "" ∧ s.message = "") := by
    rw [relay_eq, relay_eq, sent_sent_iff]
    exact not_congr (sentMessage_eq_empty_iff s)
  refine ⟨?_, ?_, ?_, ?_⟩
  · rw [← hfixed]
    constructor
    · intro h
      have hsecond : relay^[1 + 1] s = relay s := h (1 + 1) (by decide)
      rwa [Function.iterate_succ_apply, Function.iterate_one] at hsecond
    · intro h n hn
      obtain ⟨n, rfl⟩ := Nat.exists_eq_add_of_le' hn
      rw [Function.iterate_succ_apply]
      exact Function.iterate_fixed h n
  · rw [relay_eq]
    exact override?_sent s
  · rw [hencode, WireCode.ofCode_codeOf_iff]
  · rw [Ne, hencode]
    exact WireCode.ofCode_codeOf_ne_iff w

end Envelope

end UnaryRpc
