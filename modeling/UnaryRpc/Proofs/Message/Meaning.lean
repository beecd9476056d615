import Mathlib.Data.List.Forall2
import UnaryRpc.Proofs.Message.Body

namespace UnaryRpc

open Protobuf

/-- Steps that all succeed or fail by themselves succeed together if each of them does. -/
theorem foldlM_eq_some_iff {α ρ : Type} {step : α → ρ → Option α} {takes : ρ → Prop}
    (h : ∀ x r, (∃ y, step x r = some y) ↔ takes r) (l : List ρ) (x : α) :
    (∃ y, l.foldlM step x = some y) ↔ ∀ r ∈ l, takes r := by
  induction l generalizing x with
  | nil => simp
  | cons r l ih =>
    simp only [List.foldlM_cons, Option.bind_eq_bind, List.forall_mem_cons]
    constructor
    · rintro ⟨z, hz⟩
      obtain ⟨y, hy, hz⟩ := Option.bind_eq_some_iff.mp hz
      exact ⟨(h x r).mp ⟨y, hy⟩, (ih y).mp ⟨z, hz⟩⟩
    · rintro ⟨hr, hl⟩
      obtain ⟨y, hy⟩ := (h x r).mpr hr
      rw [hy]
      exact (ih y).mpr hl

theorem exists_map_iff {α β : Type} {o : Option α} {f : α → β} :
    (∃ w, o.map f = some w) ↔ ∃ v, o = some v := by
  simp only [← Option.isSome_iff_exists, Option.isSome_map]

namespace Scalar

/-- A field takes payloads of its own wire type. What a text holds is valid. -/
def Admits : Scalar → Payload → Prop
  | .text, .chunk bytes => ∃ s, Text.bytes s = bytes
  | .uint64, .varint _ => True
  | .int32, .varint _ => True
  | .texts, .chunk bytes => ∃ s, Text.bytes s = bytes
  | _, _ => False

/-- What a single field keeps: what its last payload stands for, and its initial value if it has no
payloads. -/
def Lasting {α : Type} (initial : α) (stands : Payload → α → Prop) (ps : List Payload) (v : α) :
    Prop :=
  match ps.getLast? with
  | none => v = initial
  | some p => stands p v

/-- What the payloads of a field stand for. Of an integer of 32 bits, the low half is kept. A list
has an item for each payload. -/
def Means : (k : Scalar) → List Payload → k.Value → Prop
  | .text, ps, s => Lasting "" (fun p s => p = .chunk (Text.bytes s)) ps s
  | .uint64, ps, n => Lasting 0 (fun p n => p = .varint n.toNat) ps n
  | .int32, ps, n =>
    Lasting 0 (fun p n => ∃ k, p = .varint k ∧ n.toUInt32.toNat = k % 0x100000000) ps n
  | .texts, ps, l => ps = l.map (fun s => .chunk (Text.bytes s))

section

variable {α : Type} {initial : α} {stands : Payload → α → Prop} {v w : α}

theorem lasting_nil : Lasting initial stands [] v ↔ v = initial := Iff.rfl

theorem lasting_concat {before : List Payload} {p : Payload} :
    Lasting initial stands (before ++ [p]) v ↔ stands p v := by
  simp [Lasting]

theorem Lasting.unique {ps : List Payload} (hstands : ∀ p v w, stands p v → stands p w → v = w)
    (hv : Lasting initial stands ps v) (hw : Lasting initial stands ps w) : v = w := by
  rcases List.eq_nil_or_concat' ps with rfl | ⟨before, p, rfl⟩
  · exact (lasting_nil.mp hv).trans (lasting_nil.mp hw).symm
  · exact hstands p v w (lasting_concat.mp hv) (lasting_concat.mp hw)

end

theorem ofBytes?_isSome_iff {bytes : List UInt8} :
    (∃ s, Text.ofBytes? bytes = some s) ↔ ∃ s, Text.bytes s = bytes := by
  constructor
  · rintro ⟨s, h⟩
    exact ⟨s, Text.bytes_of_ofBytes? h⟩
  · rintro ⟨s, rfl⟩
    exact ⟨s, Text.ofBytes?_bytes s⟩

theorem merge_eq_some_iff (kind : Scalar) (v : kind.Value) (p : Payload) :
    (∃ w, kind.merge v p = some w) ↔ kind.Admits p := by
  cases kind with
  | text =>
    cases p with
    | chunk bytes => exact ofBytes?_isSome_iff
    | _ => simp [merge, Admits]
  | uint64 => cases p <;> simp [merge, Admits]
  | int32 => cases p <;> simp [merge, Admits]
  | texts =>
    cases p with
    | chunk bytes =>
      rw [Admits, ← ofBytes?_isSome_iff]
      simp [merge]
    | _ => simp [merge, Admits]

theorem toUInt32_ofInt (n : Nat) : (Int32.ofInt n).toUInt32.toNat = n % 0x100000000 := by
  show (BitVec.ofInt 32 (n : Int)).toNat = n % 2 ^ 32
  rw [BitVec.toNat_ofInt]
  omega

/-- A single field keeps what it makes of its last payload. -/
theorem merge_last {kind : Scalar} {ps : List Payload} {v w : kind.Value} {p : Payload}
    (h : (ps ++ [p]).foldlM kind.merge v = some w) : ∃ u, kind.merge u p = some w := by
  rw [List.foldlM_append] at h
  obtain ⟨u, -, h⟩ := Option.bind_eq_some_iff.mp h
  simp only [List.foldlM_cons, List.foldlM_nil, Option.bind_eq_bind] at h
  obtain ⟨w', hw, heq⟩ := Option.bind_eq_some_iff.mp h
  obtain rfl := Option.some.inj heq
  exact ⟨u, hw⟩

theorem merge_texts_eq_some {ps : List Payload} {l out : List String}
    (h : ps.foldlM (merge .texts) l = some out) :
    ∃ items, out = l ++ items ∧ ps = items.map (fun s => .chunk (Text.bytes s)) := by
  induction ps generalizing l with
  | nil =>
    obtain rfl := Option.some.inj h
    exact ⟨[], by simp⟩
  | cons p ps ih =>
    simp only [List.foldlM_cons, Option.bind_eq_bind] at h
    obtain ⟨l', hp, h⟩ := Option.bind_eq_some_iff.mp h
    obtain ⟨items, rfl, rfl⟩ := ih h
    cases p with
    | chunk bytes =>
      obtain ⟨s, hs, rfl⟩ := Option.map_eq_some_iff.mp hp
      exact ⟨s :: items, by simp, by simp [Text.bytes_of_ofBytes? hs]⟩
    | _ => simp [merge] at hp

/-- A field holds what its payloads stand for. -/
theorem means_of_merge {kind : Scalar} {ps : List Payload} {v : kind.Value}
    (hsound : ∀ p ∈ ps, p.Sound) (h : ps.foldlM kind.merge kind.initial = some v) :
    kind.Means ps v := by
  cases kind with
  | texts =>
    obtain ⟨items, rfl, hps⟩ := merge_texts_eq_some h
    exact hps
  | text =>
    rcases List.eq_nil_or_concat' ps with rfl | ⟨before, p, rfl⟩
    · exact (Option.some.inj h).symm
    · obtain ⟨u, hu⟩ := merge_last h
      rw [Means, lasting_concat]
      cases p with
      | chunk bytes => rw [Text.bytes_of_ofBytes? hu]
      | _ => simp [merge] at hu
  | uint64 =>
    rcases List.eq_nil_or_concat' ps with rfl | ⟨before, p, rfl⟩
    · exact (Option.some.inj h).symm
    · obtain ⟨u, hu⟩ := merge_last h
      rw [Means, lasting_concat]
      cases p with
      | varint n =>
        obtain rfl := Option.some.inj hu
        have hn : n < 2 ^ 64 := hsound (.varint n) (by simp)
        rw [Nat.toUInt64_eq, UInt64.toNat_ofNat_of_lt' hn]
      | _ => simp [merge] at hu
  | int32 =>
    rcases List.eq_nil_or_concat' ps with rfl | ⟨before, p, rfl⟩
    · exact (Option.some.inj h).symm
    · obtain ⟨u, hu⟩ := merge_last h
      rw [Means, lasting_concat]
      cases p with
      | varint n =>
        obtain rfl := Option.some.inj hu
        exact ⟨n, rfl, toUInt32_ofInt n⟩
      | _ => simp [merge] at hu

/-- Payloads stand for one value. -/
theorem Means.unique {kind : Scalar} {ps : List Payload} {v w : kind.Value}
    (hv : kind.Means ps v) (hw : kind.Means ps w) : v = w := by
  cases kind with
  | text =>
    rw [Means] at hv hw
    refine hv.unique (fun p a b ha hb => ?_) hw
    exact Text.bytes_injective (Payload.chunk.inj (ha.symm.trans hb))
  | uint64 =>
    rw [Means] at hv hw
    refine hv.unique (fun p a b ha hb => ?_) hw
    exact UInt64.toNat_inj.mp (Payload.varint.inj (ha.symm.trans hb))
  | int32 =>
    rw [Means] at hv hw
    refine hv.unique (fun p a b ha hb => ?_) hw
    obtain ⟨k, rfl, hk⟩ := ha
    obtain ⟨k', heq, hk'⟩ := hb
    obtain rfl := Payload.varint.inj heq
    have hbits : a.toUInt32.toNat = b.toUInt32.toNat := hk.trans hk'.symm
    cases a
    cases b
    simpa [UInt32.toNat_inj] using hbits
  | texts =>
    have hinj : Function.Injective (fun s => Payload.chunk (Text.bytes s)) :=
      fun a b h => Text.bytes_injective (Payload.chunk.inj h)
    exact List.map_injective_iff.mpr hinj (hv.symm.trans hw)

end Scalar

/-- Bytes that are the records of a message, of which those outside groups are given. -/
def HoldsRecords (depth : Nat) (bytes : List UInt8) (outside : List Record) : Prop :=
  ∃ records, SpellsRecords records bytes ∧ Grouped depth records outside

theorem holdsRecords_iff {depth : Nat} {bytes : List UInt8} {outside : List Record} :
    HoldsRecords depth bytes outside ↔
      ∃ records, readRecords bytes = some records ∧ outermost depth records = some outside := by
  simp only [HoldsRecords, readRecords_eq_some_iff, outermost_eq_some_iff]

theorem HoldsRecords.unique {depth : Nat} {bytes : List UInt8} {a b : List Record}
    (ha : HoldsRecords depth bytes a) (hb : HoldsRecords depth bytes b) : a = b := by
  obtain ⟨ra, hra, ha⟩ := holdsRecords_iff.mp ha
  obtain ⟨rb, hrb, hb⟩ := holdsRecords_iff.mp hb
  obtain rfl := Option.some.inj (hra.symm.trans hrb)
  exact Option.some.inj (ha.symm.trans hb)

theorem HoldsRecords.sound {depth : Nat} {bytes : List UInt8} {outside : List Record}
    (h : HoldsRecords depth bytes outside) : ∀ r ∈ outside, r.payload.Sound := by
  obtain ⟨records, hspells, hgrouped⟩ := h
  exact fun r hr => hspells.sound r (hgrouped.mem hr)

/-- A payload that holds the records of a message. -/
def HoldsPart (depth : Nat) (p : Payload) (part : List Record) : Prop :=
  ∃ bytes, p = .chunk bytes ∧ HoldsRecords depth bytes part

theorem HoldsPart.unique {depth : Nat} {p : Payload} {a b : List Record} (ha : HoldsPart depth p a)
    (hb : HoldsPart depth p b) : a = b := by
  obtain ⟨bytes, rfl, ha⟩ := ha
  obtain ⟨bytes', heq, hb⟩ := hb
  obtain rfl := Payload.chunk.inj heq
  exact ha.unique hb

theorem HoldsPart.sound {depth : Nat} {ps : List Payload} {parts : List (List Record)}
    (h : List.Forall₂ (HoldsPart depth) ps parts) : ∀ r ∈ parts.flatten, r.payload.Sound := by
  induction h with
  | nil => simp
  | cons hpart _ ih =>
    obtain ⟨bytes, -, hholds⟩ := hpart
    rw [List.flatten_cons, List.forall_mem_append]
    exact ⟨hholds.sound, ih⟩

namespace Schema

/-- Without the records of one field, another field still has all its payloads. -/
theorem payloadsOf_othersOf {number other : Nat} (h : other ≠ number) (records : List Record) :
    payloadsOf other (othersOf number records) = payloadsOf other records := by
  simp only [payloadsOf, othersOf, List.filter_filter]
  congr 1
  apply List.filter_congr
  intro r _
  by_cases hr : r.number = other
  · simp [hr, h]
  · simp [hr]

theorem payloadsOf_sound {records : List Record} (h : ∀ r ∈ records, r.payload.Sound)
    (number : Nat) : ∀ p ∈ payloadsOf number records, p.Sound := by
  intro p hp
  obtain ⟨r, hr, rfl⟩ := List.mem_map.mp hp
  exact h r (List.mem_of_mem_filter hr)

/-- A message takes a record if the field of its number does. A field that is a message takes the
records of a message that takes them all. A record of no field is passed over. -/
def Admits : (s : Schema) → (depth : Nat) → Record → Prop
  | .nil, depth, _ => 0 < depth
  | .field label kind rest, depth, r =>
    if r.number = label.number then kind.Admits r.payload else rest.Admits depth r
  | .message label inner rest, depth, r =>
    if r.number = label.number then
      0 < depth ∧ ∃ part, HoldsPart (depth - 1) r.payload part ∧
        ∀ r ∈ part, inner.Admits (depth - 1) r
    else rest.Admits depth r

/-- What records stand for. A field holds what its payloads stand for. A field that is a message is
absent without payloads, and otherwise it holds what the records in all of them, one after another,
stand for. -/
def Means : (s : Schema) → (depth : Nat) → List Record → s.Value → Prop
  | .nil, _, _, _ => True
  | .field label kind rest, depth, records, (v, vs) =>
    kind.Means (payloadsOf label.number records) v ∧ rest.Means depth records vs
  | .message label inner rest, depth, records, (v, vs) =>
    (match v with
      | none => payloadsOf label.number records = []
      | some m => payloadsOf label.number records ≠ [] ∧
        ∃ parts,
          List.Forall₂ (HoldsPart (depth - 1)) (payloadsOf label.number records) parts ∧
          inner.Means (depth - 1) parts.flatten m) ∧
      rest.Means depth records vs

/-- Only the payloads of each field matter, not the order of different fields nor other records. -/
theorem Means.congr {s : Schema} {depth : Nat} {a b : List Record} {v : s.Value}
    (hab : ∀ label ∈ s.labels, payloadsOf label.number a = payloadsOf label.number b)
    (h : s.Means depth a v) : s.Means depth b v := by
  induction s with
  | nil => trivial
  | field label kind rest ih =>
    obtain ⟨v, vs⟩ := v
    obtain ⟨hv, hvs⟩ := h
    rw [hab label (by simp [labels])] at hv
    exact ⟨hv, ih (fun l hl => hab l (by simp [labels, hl])) hvs⟩
  | message label inner rest _ ih =>
    obtain ⟨v, vs⟩ := v
    obtain ⟨hv, hvs⟩ := h
    rw [hab label (by simp [labels])] at hv
    exact ⟨hv, ih (fun l hl => hab l (by simp [labels, hl])) hvs⟩

/-- Records stand for one message. -/
theorem Means.unique {s : Schema} {depth : Nat} {records : List Record} {v w : s.Value}
    (hv : s.Means depth records v) (hw : s.Means depth records w) : v = w := by
  induction s generalizing depth records with
  | nil => rfl
  | field label kind rest ih =>
    obtain ⟨v, vs⟩ := v
    obtain ⟨w, ws⟩ := w
    rw [hv.1.unique hw.1, ih hv.2 hw.2]
  | message label inner rest ihm ih =>
    obtain ⟨v, vs⟩ := v
    obtain ⟨w, ws⟩ := w
    obtain ⟨hv, hvs⟩ := hv
    obtain ⟨hw, hws⟩ := hw
    rw [ih hvs hws]
    cases v with
    | none =>
      cases w with
      | none => rfl
      | some m => exact absurd hv hw.1
    | some m =>
      cases w with
      | none => exact absurd hw hv.1
      | some m' =>
        obtain ⟨-, parts, hparts, hm⟩ := hv
        obtain ⟨-, parts', hparts', hm'⟩ := hw
        have hunique : Relator.RightUnique (HoldsPart (depth - 1)) :=
          fun _ _ _ ha hb => ha.unique hb
        obtain rfl := List.right_unique_forall₂' hunique hparts hparts'
        rw [ihm hm hm']

theorem mergePart_eq_some_iff {inner : Schema} {depth : Nat} {m m' : inner.Value} {p : Payload} :
    inner.mergePart depth m p = some m' ↔
      0 < depth ∧ ∃ part, HoldsPart (depth - 1) p part ∧
        part.foldlM (inner.merge (depth - 1)) m = some m' := by
  cases depth with
  | zero => simp [mergePart]
  | succ depth =>
    cases p with
    | chunk bytes =>
      simp only [mergePart, HoldsPart, Option.bind_eq_some_iff, Nat.add_sub_cancel,
        holdsRecords_iff]
      constructor
      · rintro ⟨records, hread, part, hpart, hfold⟩
        exact ⟨by omega, part, ⟨bytes, rfl, records, hread, hpart⟩, hfold⟩
      · rintro ⟨-, part, ⟨bytes', heq, records, hread, hpart⟩, hfold⟩
        obtain rfl := Payload.chunk.inj heq
        exact ⟨records, hread, part, hpart, hfold⟩
    | _ => simp [mergePart, HoldsPart]

/-- Whether a record can be merged does not depend on what it is merged into. -/
theorem merge_eq_some_iff (s : Schema) (depth : Nat) (v : s.Value) (r : Record) :
    (∃ w, s.merge depth v r = some w) ↔ s.Admits depth r := by
  induction s generalizing depth r with
  | nil =>
    rw [Admits, merge]
    split
    · simp [*]
    · exact iff_of_true ⟨(), rfl⟩ (by omega)
  | field label kind rest ih =>
    obtain ⟨v, vs⟩ := v
    by_cases hr : r.number = label.number
    · rw [merge_field_own depth v vs hr, Admits, if_pos hr]
      exact exists_map_iff.trans (kind.merge_eq_some_iff v r.payload)
    · rw [merge_field_other depth v vs hr, Admits, if_neg hr]
      exact exists_map_iff.trans (ih depth vs r)
  | message label inner rest ihm ih =>
    obtain ⟨v, vs⟩ := v
    by_cases hr : r.number = label.number
    · rw [merge_message_own depth v vs hr, Admits, if_pos hr]
      have hmerge (m : inner.Value) : (∃ m', inner.mergePart depth m r.payload = some m') ↔
          0 < depth ∧ ∃ part, HoldsPart (depth - 1) r.payload part ∧
            ∀ r ∈ part, inner.Admits (depth - 1) r := by
        simp only [mergePart_eq_some_iff, ← foldlM_eq_some_iff (ihm (depth - 1)) _ m]
        constructor
        · rintro ⟨m', hpos, part, hpart, hfold⟩
          exact ⟨hpos, part, hpart, m', hfold⟩
        · rintro ⟨hpos, part, hpart, m', hfold⟩
          exact ⟨m', hpos, part, hpart, hfold⟩
      exact exists_map_iff.trans (exists_map_iff.trans (hmerge (v.getD inner.initial)))
    · rw [merge_message_other depth v vs hr, Admits, if_neg hr]
      exact exists_map_iff.trans (ih depth vs r)

/-- The messages in the payloads of a field are merged into one, as if their records stood one after
another in a single message. -/
theorem mergePresent_eq_some {inner : Schema} {depth : Nat} {ps : List Payload}
    {v : Option inner.Value} {m : inner.Value}
    (h : ps.foldlM (inner.mergePresent depth) v = some (some m)) :
    (ps = [] → v = some m) ∧ ∃ parts, List.Forall₂ (HoldsPart (depth - 1)) ps parts ∧
      parts.flatten.foldlM (inner.merge (depth - 1)) (v.getD inner.initial) = some m := by
  induction ps generalizing v with
  | nil =>
    obtain rfl := Option.some.inj h
    exact ⟨fun _ => rfl, [], .nil, rfl⟩
  | cons p ps ih =>
    rw [List.foldlM_cons] at h
    obtain ⟨v', hp, h⟩ := Option.bind_eq_some_iff.mp h
    obtain ⟨m', hm', rfl⟩ := Option.map_eq_some_iff.mp hp
    obtain ⟨-, part, hpart, hfold⟩ := mergePart_eq_some_iff.mp hm'
    obtain ⟨-, parts, hparts, hothers⟩ := ih h
    refine ⟨nofun, part :: parts, .cons hpart hparts, ?_⟩
    rw [List.flatten_cons, List.foldlM_append, hfold]
    exact hothers

theorem mergePresent_eq_none {inner : Schema} {depth : Nat} {ps : List Payload}
    (h : ps.foldlM (inner.mergePresent depth) none = some none) : ps = [] := by
  rcases List.eq_nil_or_concat' ps with rfl | ⟨before, p, rfl⟩
  · rfl
  · rw [List.foldlM_append] at h
    obtain ⟨v, -, h⟩ := Option.bind_eq_some_iff.mp h
    simp [mergePresent] at h

/-- Merged contents are what the records stand for. -/
theorem means_of_merge {s : Schema} (hs : s.Lawful) {depth : Nat} {records : List Record}
    {v : s.Value} (hsound : ∀ r ∈ records, r.payload.Sound)
    (h : records.foldlM (s.merge depth) s.initial = some v) : s.Means depth records v := by
  induction s generalizing depth records with
  | nil => trivial
  | field label kind rest ih =>
    obtain ⟨v, vs⟩ := v
    obtain ⟨hl, hrest⟩ := hs
    have hsplit := foldlM_merge_field label kind rest depth kind.initial rest.initial records
    obtain ⟨w, hw, hothers⟩ := Option.bind_eq_some_iff.mp (hsplit.symm.trans h)
    obtain ⟨ws, hws, heq⟩ := Option.map_eq_some_iff.mp hothers
    obtain ⟨rfl, rfl⟩ := Prod.mk.inj heq
    refine ⟨kind.means_of_merge (payloadsOf_sound hsound label.number) hw, ?_⟩
    have hmeans := ih hrest (fun r hr => hsound r (List.mem_of_mem_filter hr)) hws
    exact hmeans.congr (fun l hlab => payloadsOf_othersOf (hl.numbers l hlab) records)
  | message label inner rest ihm ih =>
    obtain ⟨v, vs⟩ := v
    obtain ⟨hl, hinner, hrest⟩ := hs
    have hsplit := foldlM_merge_message label inner rest depth none rest.initial records
    obtain ⟨w, hw, hothers⟩ := Option.bind_eq_some_iff.mp (hsplit.symm.trans h)
    obtain ⟨ws, hws, heq⟩ := Option.map_eq_some_iff.mp hothers
    obtain ⟨rfl, rfl⟩ := Prod.mk.inj heq
    refine ⟨?_, ?_⟩
    · cases w with
      | none => exact mergePresent_eq_none hw
      | some m =>
        obtain ⟨hsome, parts, hparts, hfold⟩ := mergePresent_eq_some hw
        refine ⟨fun hnil => absurd (hsome hnil) nofun, parts, hparts, ?_⟩
        exact ihm hinner (HoldsPart.sound hparts) hfold
    · have hmeans := ih hrest (fun r hr => hsound r (List.mem_of_mem_filter hr)) hws
      exact hmeans.congr (fun l hlab => payloadsOf_othersOf (hl.numbers l hlab) records)

/-- Bytes that are the records of a message, all of which its fields take. -/
def Accepts (s : Schema) (depth : Nat) (bytes : List UInt8) (records : List Record) : Prop :=
  HoldsRecords depth bytes records ∧ ∀ r ∈ records, s.Admits depth r

/-- Exactly the bytes are read that are records which the fields take, as what the records stand
for. -/
theorem ofBinary?_eq_some_iff {s : Schema} (hs : s.Lawful) {bytes : List UInt8} {v : s.Value} :
    s.ofBinary? bytes = some v ↔
      ∃ records, s.Accepts maxDepth bytes records ∧ s.Means maxDepth records v := by
  have hread : s.ofBinary? bytes = some v ↔ ∃ records, HoldsRecords maxDepth bytes records ∧
      records.foldlM (s.merge maxDepth) s.initial = some v := by
    simp only [ofBinary?, Option.bind_eq_bind, Option.bind_eq_some_iff, holdsRecords_iff]
    constructor
    · rintro ⟨records, hrecords, outside, hout, hfold⟩
      exact ⟨outside, ⟨records, hrecords, hout⟩, hfold⟩
    · rintro ⟨outside, ⟨records, hrecords, hout⟩, hfold⟩
      exact ⟨records, hrecords, outside, hout, hfold⟩
  rw [hread]
  constructor
  · rintro ⟨records, hholds, hfold⟩
    have htakes :=
      (foldlM_eq_some_iff (s.merge_eq_some_iff maxDepth) records s.initial).mp ⟨v, hfold⟩
    exact ⟨records, ⟨hholds, htakes⟩, means_of_merge hs hholds.sound hfold⟩
  · rintro ⟨records, ⟨hholds, htakes⟩, hmeans⟩
    obtain ⟨w, hfold⟩ :=
      (foldlM_eq_some_iff (s.merge_eq_some_iff maxDepth) records s.initial).mpr htakes
    obtain rfl := hmeans.unique (means_of_merge hs hholds.sound hfold)
    exact ⟨records, hholds, hfold⟩

/-- What the fields take stands for some contents. -/
theorem Accepts.means {s : Schema} (hs : s.Lawful) {depth : Nat} {bytes : List UInt8}
    {records : List Record} (h : s.Accepts depth bytes records) : ∃ v, s.Means depth records v := by
  obtain ⟨hholds, htakes⟩ := h
  obtain ⟨v, hfold⟩ :=
    (foldlM_eq_some_iff (s.merge_eq_some_iff depth) records s.initial).mpr htakes
  exact ⟨v, means_of_merge hs hholds.sound hfold⟩

end Schema

namespace Message

/-- A message type whose binary form means what its records say. Records that the fields take make
a single message, which is received; no other bytes are. Bodies whose records agree in each field
are received alike, in whatever order the fields stand and whatever else stands between them. -/
def ReadsRecords (M : Type) [Message M] : Prop :=
  ∀ (body : List UInt8) (store : Store), body.length < 0x7fffffff →
    let received (body : List UInt8) : Except Status (Owned M) × Store :=
      (receive .protobuf (.ofBytes body)).outcome store
    (∀ records, (schema M).Accepts 100 body records →
      ∃ m : M, (∀ m', (schema M).Means 100 records (toValue m') ↔ m' = m) ∧
        received body = delivered store m) ∧
    ((¬∃ records, (schema M).Accepts 100 body records) →
      received body = (.error (.malformed "Can't deserialize binary request"), store)) ∧
    ∀ body' records records', body'.length < 0x7fffffff →
      (schema M).Accepts 100 body records → (schema M).Accepts 100 body' records' →
      (∀ label ∈ (schema M).labels,
        Schema.payloadsOf label.number records = Schema.payloadsOf label.number records') →
      received body = received body'

section

variable {M : Type} [Message M] [Lawful M] {body : List UInt8} {records : List Record}

theorem decode?_eq_some_iff (haccepts : (schema M).Accepts 100 body records) {m : M} :
    decode? .protobuf body = some m ↔ (schema M).Means 100 records (toValue m) := by
  have hread : decode? .protobuf body = some m ↔ (schema M).ofBinary? body = some (toValue m) := by
    rw [decode?, Option.map_eq_some_iff]
    constructor
    · rintro ⟨v, hv, rfl⟩
      rw [hv, toValue_ofValue]
    · intro h
      exact ⟨toValue m, h, ofValue_toValue m⟩
  rw [hread, Schema.ofBinary?_eq_some_iff Lawful.apart]
  constructor
  · rintro ⟨records', haccepts', hmeans⟩
    obtain rfl := haccepts.1.unique haccepts'.1
    exact hmeans
  · intro hmeans
    exact ⟨records, haccepts, hmeans⟩

theorem decode?_refused (hrefused : ¬∃ records, (schema M).Accepts 100 body records) :
    decode? (M := M) .protobuf body = none := by
  rw [decode?, Option.map_eq_none_iff, Option.eq_none_iff_forall_ne_some]
  intro v hv
  obtain ⟨records, haccepts, -⟩ := (Schema.ofBinary?_eq_some_iff Lawful.apart).mp hv
  exact hrefused ⟨records, haccepts⟩

theorem exists_decode? (haccepts : (schema M).Accepts 100 body records) :
    ∃ m : M, decode? .protobuf body = some m := by
  obtain ⟨v, hv⟩ := haccepts.means Lawful.apart
  refine ⟨ofValue v, (decode?_eq_some_iff haccepts).mpr ?_⟩
  rwa [toValue_ofValue]

theorem readsRecords_of_lawful : ReadsRecords M := by
  intro body store hlen received
  refine ⟨?_, ?_, ?_⟩
  · intro records haccepts
    obtain ⟨m, hm⟩ := exists_decode? haccepts
    refine ⟨m, fun m' => ?_, receive_of_some hlen hm store⟩
    rw [← decode?_eq_some_iff haccepts, hm, Option.some.injEq, eq_comm]
  · intro hrefused
    exact receive_of_none hlen (decode?_refused hrefused) store
  · intro body' records records' hlen' haccepts haccepts' hagree
    obtain ⟨m, hm⟩ := exists_decode? haccepts
    have hmeans := (decode?_eq_some_iff haccepts).mp hm
    have hm' := (decode?_eq_some_iff haccepts').mpr (hmeans.congr hagree)
    exact (receive_of_some hlen hm store).trans (receive_of_some hlen' hm' store).symm

end

/-- The binary forms of all message types mean what their records say. -/
theorem receive_records :
    ReadsRecords Bench.Sample ∧ ReadsRecords Bench.SensorId ∧ ReadsRecords Bench.Sensor ∧
    ReadsRecords Weather.WeatherStationId ∧ ReadsRecords Weather.WeatherStation :=
  ⟨readsRecords_of_lawful, readsRecords_of_lawful, readsRecords_of_lawful, readsRecords_of_lawful,
    readsRecords_of_lawful⟩

end Message

end UnaryRpc
