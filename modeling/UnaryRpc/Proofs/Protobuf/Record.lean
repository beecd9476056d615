import UnaryRpc.Proofs.Protobuf.Nesting
import UnaryRpc.Proofs.Protobuf.Spelling

namespace UnaryRpc.Protobuf

/-- A payload whose numbers fit 64 bits and whose fixed parts have their widths. -/
def Payload.Sound : Payload → Prop
  | .varint n => n < 0x10000000000000000
  | .fixed64 bytes => bytes.length = 8
  | .chunk bytes => bytes.length < 0x10000000000000000
  | .groupStart => True
  | .groupEnd => True
  | .fixed32 bytes => bytes.length = 4

/-- A record with a field number that fits a key, and a sound payload. -/
structure Record.Sound (r : Record) : Prop where
  positive : 0 < r.number
  bounded : r.number < 0x20000000
  payload : r.payload.Sound

theorem Payload.Sound.spelled {p : Payload} (h : p.Sound) : p.Spelled p.write := by
  cases p with
  | varint n => exact .varint (spellsVarint_writeVarint h)
  | fixed64 bytes => exact .fixed64 h
  | chunk bytes => exact .chunk (spellsVarint_writeVarint h)
  | groupStart => exact .groupStart
  | groupEnd => exact .groupEnd
  | fixed32 bytes => exact .fixed32 h

theorem Payload.Spelled.sound {p : Payload} {form : List UInt8} (h : p.Spelled form) :
    p.Sound := by
  cases h with
  | varint h => exact h.lt
  | chunk h => exact h.lt
  | fixed64 h | fixed32 h => exact h
  | groupStart => trivial
  | groupEnd => trivial

theorem Record.Sound.spelled {r : Record} (h : r.Sound) : r.Spelled r.write := by
  have hpos := h.positive
  have hbound := h.bounded
  have hwire := r.payload.wireType_lt
  have hlt : 8 * r.number + r.payload.wireType < 0x100000000 := by omega
  have hkey : 8 * r.number + r.payload.wireType < varintBound 9 := Nat.lt_trans hlt (by decide)
  exact ⟨_, _, spellsVarint_writeVarint hkey, hpos, hlt, h.payload.spelled, rfl⟩

/-- What sound records are written as spells them. -/
theorem spellsRecords_writeRecords {records : List Record} (h : ∀ r ∈ records, r.Sound) :
    SpellsRecords records (writeRecords records) := by
  induction records with
  | nil => exact .nil
  | cons r records ih =>
    rw [writeRecords, List.flatMap_cons]
    exact .cons (h r (by simp)).spelled (ih (fun x hx => h x (by simp [hx])))

theorem SpellsRecords.sound {records : List Record} {bytes : List UInt8}
    (h : SpellsRecords records bytes) : ∀ r ∈ records, r.payload.Sound := by
  induction h with
  | nil => simp
  | cons first _ ih =>
    obtain ⟨_, _, _, _, _, hpayload, _⟩ := first
    exact List.forall_mem_cons.mpr ⟨hpayload.sound, ih⟩

/-- Sound records are read back from their text. -/
theorem readRecords_write {records : List Record} (h : ∀ r ∈ records, r.Sound) :
    readRecords (writeRecords records) = some records :=
  readRecords_eq_some_iff.mpr (spellsRecords_writeRecords h)

/-- A chunk is no longer than the text of the records around it. -/
theorem chunk_length_le {records : List Record} {number : Nat} {bytes : List UInt8}
    (h : ⟨number, .chunk bytes⟩ ∈ records) : bytes.length ≤ (writeRecords records).length := by
  obtain ⟨before, after, rfl⟩ := List.append_of_mem h
  simp only [writeRecords, List.flatMap_append, List.flatMap_cons, List.length_append,
    Record.write, Payload.write]
  omega

/-- A payload as messages are written with: a number or a chunk. -/
def Payload.Written : Payload → Prop
  | .varint n => n < 0x10000000000000000
  | .chunk _ => True
  | _ => False

theorem Payload.Written.single {p : Payload} (h : p.Written) : p.Single := by
  cases p with
  | varint n => exact ⟨nofun, nofun⟩
  | chunk bytes => exact ⟨nofun, nofun⟩
  | _ => exact h.elim

/-- No written record is part of a group. -/
theorem outermost_written (depth : Nat) {records : List Record}
    (hr : ∀ r ∈ records, r.payload.Written) : outermost depth records = some records :=
  outermost_eq_some_iff.mpr (grouped_single depth (fun r h => (hr r h).single))

end UnaryRpc.Protobuf
