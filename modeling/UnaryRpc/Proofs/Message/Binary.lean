import UnaryRpc.Proofs.Message.Lawful
import UnaryRpc.Proofs.Protobuf.Record

namespace UnaryRpc

open Protobuf

namespace Scalar

theorem ofInt_signExtend (n : Int32) : Int32.ofInt (signExtend n) = n := by
  have hlow := n.le_toInt
  have hhigh := n.toInt_lt
  have hval : (signExtend n : Int) = n.toInt % 0x10000000000000000 := by
    rw [signExtend, Int.toNat_of_nonneg (by omega)]
  apply Int32.toInt_inj.mp
  rw [Int32.toInt_ofInt, hval, show Int32.size = 4294967296 from rfl, Int.bmod_def]
  omega

theorem merge_texts (l xs : List String) :
    (xs.map (fun s => Payload.chunk (Text.bytes s))).foldlM (merge .texts) l = some (l ++ xs) := by
  induction xs generalizing l with
  | nil => simp
  | cons x xs ih =>
    simp only [List.map_cons, List.foldlM_cons, merge, Text.ofBytes?_bytes, Option.map_some]
    change List.foldlM (merge .texts) (l ++ [x]) _ = _
    rw [ih (l ++ [x])]
    simp

/-- A value is merged from the payloads that write it. -/
theorem merge_payloads (kind : Scalar) (v : kind.Value) :
    (kind.payloads v).foldlM kind.merge kind.initial = some v := by
  cases kind with
  | text =>
    simp only [payloads]
    split
    · rename_i h
      simp [initial, h]
    · simp [merge]
  | uint64 =>
    simp only [payloads]
    split
    · rename_i h
      simp [initial, h]
    · simp [merge]
  | int32 =>
    simp only [payloads]
    split
    · rename_i h
      simp [initial, h]
    · simp [merge, ofInt_signExtend]
  | texts => exact merge_texts [] v

theorem payloads_written (kind : Scalar) (v : kind.Value) :
    ∀ p ∈ kind.payloads v, p.Written := by
  intro p hp
  cases kind with
  | text =>
    simp only [payloads] at hp
    split at hp
    · contradiction
    · simp only [List.mem_cons, List.not_mem_nil, or_false] at hp
      subst hp
      trivial
  | uint64 =>
    simp only [payloads] at hp
    split at hp
    · contradiction
    · simp only [List.mem_cons, List.not_mem_nil, or_false] at hp
      subst hp
      exact v.toNat_lt
  | int32 =>
    simp only [payloads] at hp
    split at hp
    · contradiction
    · simp only [List.mem_cons, List.not_mem_nil, or_false] at hp
      subst hp
      simp only [Payload.Written, signExtend]
      omega
  | texts =>
    obtain ⟨s, _, rfl⟩ := List.mem_map.mp hp
    trivial

end Scalar

namespace Schema

/-- A record carries the number of a field, and a payload as messages are written with. -/
theorem records_written (s : Schema) (v : s.Value) {r : Record} (hr : r ∈ s.records v) :
    (∃ label ∈ s.labels, label.number = r.number) ∧ r.payload.Written := by
  induction s with
  | nil => simp [records] at hr
  | field label kind rest ih =>
    obtain ⟨v, vs⟩ := v
    simp only [records] at hr
    rcases List.mem_append.mp hr with hr | hr
    · obtain ⟨p, hp, rfl⟩ := List.mem_map.mp hr
      exact ⟨⟨label, by simp [labels], rfl⟩, kind.payloads_written v p hp⟩
    · obtain ⟨⟨l, hl, hn⟩, hw⟩ := ih vs hr
      exact ⟨⟨l, by simp [labels, hl], hn⟩, hw⟩
  | message label inner rest _ ih =>
    obtain ⟨v, vs⟩ := v
    have hrest : r ∈ rest.records vs →
        (∃ l ∈ labels (.message label inner rest), l.number = r.number) ∧ r.payload.Written := by
      intro h
      obtain ⟨⟨l, hl, hn⟩, hw⟩ := ih vs h
      exact ⟨⟨l, by simp [labels, hl], hn⟩, hw⟩
    cases v with
    | none => exact hrest hr
    | some m =>
      simp only [records, List.mem_cons] at hr
      rcases hr with rfl | hr
      · exact ⟨⟨label, by simp [labels], rfl⟩, trivial⟩
      · exact hrest hr

theorem labels_bounds {s : Schema} (hs : s.Lawful) :
    ∀ label ∈ s.labels, 0 < label.number ∧ label.number < 0x20000000 := by
  induction s with
  | nil => simp [labels]
  | field label kind rest ih =>
    obtain ⟨hl, hrest⟩ := hs
    intro l h
    rcases List.mem_cons.mp h with rfl | h
    · exact ⟨hl.positive, hl.bounded⟩
    · exact ih hrest l h
  | message label inner rest _ ih =>
    obtain ⟨hl, _, hrest⟩ := hs
    intro l h
    rcases List.mem_cons.mp h with rfl | h
    · exact ⟨hl.positive, hl.bounded⟩
    · exact ih hrest l h

/-- The records of contents can be read back if their text is no longer than a length can tell. -/
theorem readRecords_toBinary {s : Schema} (hs : s.Lawful) (v : s.Value)
    (hlen : (s.toBinary v).length < 0x10000000000000000) :
    readRecords (s.toBinary v) = some (s.records v) := by
  apply readRecords_write
  intro r hr
  obtain ⟨⟨label, hl, hn⟩, hw⟩ := s.records_written v hr
  obtain ⟨hpos, hbound⟩ := labels_bounds hs label hl
  refine ⟨by omega, by omega, ?_⟩
  obtain ⟨number, payload⟩ := r
  cases payload with
  | varint n => exact hw
  | chunk bytes => exact Nat.lt_of_le_of_lt (chunk_length_le hr) hlen
  | _ => exact hw.elim

theorem merge_field_own {label : Label} {kind : Scalar} {rest : Schema} (depth : Nat)
    (v : kind.Value) (vs : rest.Value) {r : Record} (hr : r.number = label.number) :
    (Schema.field label kind rest).merge depth (v, vs) r =
      (kind.merge v r.payload).map (fun v => (v, vs)) :=
  if_pos hr

theorem merge_field_other {label : Label} {kind : Scalar} {rest : Schema} (depth : Nat)
    (v : kind.Value) (vs : rest.Value) {r : Record} (hr : r.number ≠ label.number) :
    (Schema.field label kind rest).merge depth (v, vs) r =
      (rest.merge depth vs r).map (fun vs => (v, vs)) :=
  if_neg hr

theorem merge_message_other {label : Label} {inner rest : Schema} (depth : Nat)
    (v : Option inner.Value) (vs : rest.Value) {r : Record} (hr : r.number ≠ label.number) :
    (Schema.message label inner rest).merge depth (v, vs) r =
      (rest.merge depth vs r).map (fun vs => (v, vs)) :=
  if_neg hr

/-- Merges the message that a payload holds into another one. -/
def mergePart (inner : Schema) : (depth : Nat) → inner.Value → Payload → Option inner.Value
  | depth + 1, m, .chunk bytes =>
    (readRecords bytes).bind fun records =>
      (outermost depth records).bind fun outside => outside.foldlM (inner.merge depth) m
  | _, _, _ => none

/-- Merges the message that a payload holds into one that may be there. -/
def mergePresent (inner : Schema) (depth : Nat) (v : Option inner.Value) (p : Payload) :
    Option (Option inner.Value) :=
  (inner.mergePart depth (v.getD inner.initial) p).map some

theorem merge_message_own {label : Label} {inner rest : Schema} (depth : Nat)
    (v : Option inner.Value) (vs : rest.Value) {r : Record} (hr : r.number = label.number) :
    (Schema.message label inner rest).merge depth (v, vs) r =
      (inner.mergePresent depth v r.payload).map (fun v => (v, vs)) := by
  refine (if_pos hr).trans ?_
  obtain ⟨number, payload⟩ := r
  cases depth with
  | zero => rfl
  | succ depth =>
    cases payload with
    | chunk bytes =>
      simp only [mergePresent, mergePart, Option.map_eq_bind, Option.bind_assoc]
      exact rfl
    | _ => rfl

/-- The payloads of the records of a number. -/
def payloadsOf (number : Nat) (records : List Record) : List Payload :=
  (records.filter (fun r => r.number = number)).map Record.payload

/-- The records of other numbers. -/
def othersOf (number : Nat) (records : List Record) : List Record :=
  records.filter (fun r => r.number ≠ number)

/-- Steps that each work on one of two parts can be taken part by part. -/
theorem foldlM_split {α β ρ : Type} {whole : α × β → ρ → Option (α × β)} (isLeft : ρ → Bool)
    (left : α → ρ → Option α) (right : β → ρ → Option β)
    (hleft : ∀ r a b, isLeft r = true → whole (a, b) r = (left a r).map (fun a => (a, b)))
    (hright : ∀ r a b, isLeft r = false → whole (a, b) r = (right b r).map (fun b => (a, b)))
    (l : List ρ) (a : α) (b : β) :
    l.foldlM whole (a, b) =
      ((l.filter isLeft).foldlM left a).bind fun a =>
        ((l.filter (fun r => !isLeft r)).foldlM right b).map fun b => (a, b) := by
  induction l generalizing a b with
  | nil => rfl
  | cons r l ih =>
    rw [List.foldlM_cons]
    cases hr : isLeft r with
    | true =>
      rw [hleft r a b hr, List.filter_cons_of_pos hr, List.filter_cons_of_neg (by simp [hr]),
        List.foldlM_cons]
      cases left a r with
      | none => rfl
      | some a' => exact ih a' b
    | false =>
      rw [hright r a b hr, List.filter_cons_of_neg (by simp [hr]),
        List.filter_cons_of_pos (by simp [hr]), List.foldlM_cons]
      cases right b r with
      | none => simp
      | some b' => exact ih a b'

/-- The fields are merged apart from each other: the first one from its own payloads, and the others
from the records of other numbers. -/
theorem foldlM_merge_field (label : Label) (kind : Scalar) (rest : Schema) (depth : Nat)
    (v : kind.Value) (vs : rest.Value) (records : List Record) :
    records.foldlM ((Schema.field label kind rest).merge depth) (v, vs) =
      ((payloadsOf label.number records).foldlM kind.merge v).bind fun v =>
        ((othersOf label.number records).foldlM (rest.merge depth) vs).map fun vs => (v, vs) := by
  refine (foldlM_split (fun r => decide (r.number = label.number))
    (fun v r => kind.merge v r.payload) (rest.merge depth)
    (fun r v vs hr => merge_field_own depth v vs (of_decide_eq_true hr))
    (fun r v vs hr => merge_field_other depth v vs (of_decide_eq_false hr)) records v vs).trans ?_
  simp only [payloadsOf, othersOf, List.foldlM_map, decide_not]

theorem foldlM_merge_message (label : Label) (inner rest : Schema) (depth : Nat)
    (v : Option inner.Value) (vs : rest.Value) (records : List Record) :
    records.foldlM ((Schema.message label inner rest).merge depth) (v, vs) =
      ((payloadsOf label.number records).foldlM (inner.mergePresent depth) v).bind fun v =>
        ((othersOf label.number records).foldlM (rest.merge depth) vs).map fun vs => (v, vs) := by
  refine (foldlM_split (fun r => decide (r.number = label.number))
    (fun v r => inner.mergePresent depth v r.payload) (rest.merge depth)
    (fun r v vs hr => merge_message_own depth v vs (of_decide_eq_true hr))
    (fun r v vs hr => merge_message_other depth v vs (of_decide_eq_false hr)) records v vs).trans ?_
  simp only [payloadsOf, othersOf, List.foldlM_map, decide_not]

theorem records_apart {label : Label} {rest : Schema} (h : label.ApartFrom rest.labels)
    (vs : rest.Value) : ∀ r ∈ rest.records vs, r.number ≠ label.number := by
  intro r hr
  obtain ⟨⟨l, hl, hn⟩, _⟩ := rest.records_written vs hr
  rw [← hn]
  exact h.numbers l hl

/-- Of the records that write contents, a field gets those that write it. -/
theorem payloadsOf_append {number : Nat} (payloads : List Payload) {records : List Record}
    (h : ∀ r ∈ records, r.number ≠ number) :
    payloadsOf number (payloads.map (fun p => ⟨number, p⟩) ++ records) = payloads ∧
      othersOf number (payloads.map (fun p => ⟨number, p⟩) ++ records) = records := by
  have hown : records.filter (fun r => r.number = number) = [] := by
    simpa [List.filter_eq_nil_iff] using h
  have hothers : records.filter (fun r => r.number ≠ number) = records := by
    simpa [List.filter_eq_self] using h
  constructor
  · simp [payloadsOf, hown, List.filter_map, Function.comp_def]
  · rw [othersOf, List.filter_append, hothers]
    simp

/-- Contents are merged from the records that write them. -/
theorem foldlM_merge_records (s : Schema) (depth : Nat) (v : s.Value) (hs : s.Lawful)
    (hd : s.depth ≤ depth) (hlen : (s.toBinary v).length < 0x10000000000000000) :
    (s.records v).foldlM (s.merge depth) s.initial = some v := by
  induction s generalizing depth with
  | nil => rfl
  | field label kind rest ih =>
    obtain ⟨v, vs⟩ := v
    obtain ⟨hl, hrest⟩ := hs
    have hlen' : (rest.toBinary vs).length < 0x10000000000000000 := by
      simp only [toBinary, records, writeRecords, List.flatMap_append, List.length_append]
        at hlen ⊢
      omega
    obtain ⟨hown, hothers⟩ := payloadsOf_append (kind.payloads v) (records_apart hl vs)
    refine (foldlM_merge_field label kind rest depth kind.initial rest.initial _).trans ?_
    rw [records, hown, hothers, kind.merge_payloads, ih depth vs hrest hd hlen']
    rfl
  | message label inner rest ihm ih =>
    obtain ⟨v, vs⟩ := v
    obtain ⟨hl, hinner, hrest⟩ := hs
    simp only [Schema.depth, Nat.max_le] at hd
    obtain ⟨hdi, hdr⟩ := hd
    refine (foldlM_merge_message label inner rest depth none rest.initial _).trans ?_
    cases v with
    | none =>
      obtain ⟨hown, hothers⟩ := payloadsOf_append [] (records_apart hl vs)
      have hthere : (Schema.message label inner rest).records (none, vs) =
        [].map (fun p => ⟨label.number, p⟩) ++ rest.records vs := rfl
      rw [hthere, hown, hothers, ih depth vs hrest hdr hlen]
      rfl
    | some m =>
      obtain ⟨depth, rfl⟩ : ∃ d, depth = d + 1 := ⟨depth - 1, by omega⟩
      have hleninner : (inner.toBinary m).length < 0x10000000000000000 := by
        have hmem : ⟨label.number, .chunk (inner.toBinary m)⟩ ∈
            (Schema.message label inner rest).records (some m, vs) := by
          simp [records, toBinary]
        exact Nat.lt_of_le_of_lt (chunk_length_le hmem) hlen
      have hlenrest : (rest.toBinary vs).length < 0x10000000000000000 := by
        simp only [toBinary, records, writeRecords, List.flatMap_cons, List.length_append]
          at hlen ⊢
        omega
      have hgroups : outermost depth (inner.records m) = some (inner.records m) :=
        outermost_written depth (fun r hr => (inner.records_written m hr).2)
      have hpart : inner.mergePart (depth + 1) inner.initial (.chunk (inner.toBinary m)) =
          some m := by
        simp only [mergePart, readRecords_toBinary hinner m hleninner, hgroups, Option.bind_some]
        exact ihm depth m hinner (by omega) hleninner
      obtain ⟨hown, hothers⟩ := payloadsOf_append [.chunk (inner.toBinary m)] (records_apart hl vs)
      have hthere : (Schema.message label inner rest).records (some m, vs) =
        [.chunk (inner.toBinary m)].map (fun p => ⟨label.number, p⟩) ++ rest.records vs := rfl
      have hpresent : [Payload.chunk (inner.toBinary m)].foldlM (inner.mergePresent (depth + 1))
          none = some (some m) := by
        simp [mergePresent, hpart]
      rw [hthere, hown, hothers, hpresent, ih (depth + 1) vs hrest hdr hlenrest]
      rfl

/-- The binary form of contents is read back as those contents. -/
theorem ofBinary?_toBinary {s : Schema} (hs : s.Lawful) (hd : s.depth ≤ maxDepth) (v : s.Value)
    (hlen : (s.toBinary v).length < 0x10000000000000000) : s.ofBinary? (s.toBinary v) = some v := by
  have hgroups : outermost maxDepth (s.records v) = some (s.records v) :=
    outermost_written maxDepth (fun r hr => (s.records_written v hr).2)
  rw [ofBinary?, readRecords_toBinary hs v hlen]
  simp only [Option.bind_eq_bind, Option.bind_some, hgroups]
  exact s.foldlM_merge_records maxDepth v hs hd hlen

end Schema

end UnaryRpc
