import UnaryRpc.Protobuf.Record

namespace UnaryRpc.Protobuf

/-- Bytes that spell a number, where so many bytes may follow the first one. Every byte but the last
is marked; one that nothing may follow adds a single bit. -/
inductive SpellsVarint : (left : Nat) → Nat → List UInt8 → Prop
  | last {left : Nat} {b : UInt8} (unmarked : b < 128) (bit : left = 0 → b ≤ 1) :
      SpellsVarint left b.toNat [b]
  | more {left n : Nat} {b : UInt8} {bytes : List UInt8} (marked : 128 ≤ b)
      (others : SpellsVarint left n bytes) :
      SpellsVarint (left + 1) (b.toNat - 128 + 128 * n) (b :: bytes)

theorem SpellsVarint.readVarintWithin {left n : Nat} {form : List UInt8}
    (h : SpellsVarint left n form) (rest : List UInt8) :
    readVarintWithin (left + 1) (form ++ rest) = some (n, rest) := by
  induction h with
  | @last left b unmarked bit =>
    simp only [List.cons_append, List.nil_append, Protobuf.readVarintWithin]
    by_cases hleft : left = 0
    · simp [hleft, bit hleft]
    · rw [if_neg (by omega), if_pos unmarked]
  | @more left n b bytes marked _ ih =>
    simp only [List.cons_append, Protobuf.readVarintWithin]
    rw [if_neg (by omega), if_neg (UInt8.not_lt.mpr marked), Nat.add_sub_cancel, ih]
    rfl

theorem spellsVarint_of_readVarintWithin {left n : Nat} {bytes rest : List UInt8}
    (h : readVarintWithin (left + 1) bytes = some (n, rest)) :
    ∃ form, SpellsVarint left n form ∧ bytes = form ++ rest := by
  induction bytes generalizing left n with
  | nil => simp [readVarintWithin] at h
  | cons b bytes ih =>
    rw [readVarintWithin] at h
    cases left with
    | zero =>
      rw [if_pos (by omega)] at h
      split at h
      · rename_i hb
        simp only [Option.some.injEq, Prod.mk.injEq] at h
        obtain ⟨rfl, rfl⟩ := h
        exact ⟨[b], .last (UInt8.lt_of_le_of_lt hb.2 (by decide)) (fun _ => hb.2), rfl⟩
      · contradiction
    | succ left =>
      rw [if_neg (by omega)] at h
      split at h
      · rename_i hb
        simp only [Option.some.injEq, Prod.mk.injEq] at h
        obtain ⟨rfl, rfl⟩ := h
        exact ⟨[b], .last hb (fun h => absurd h (by omega)), rfl⟩
      · rename_i hb
        obtain ⟨⟨m, rest'⟩, hread, heq⟩ := Option.map_eq_some_iff.mp h
        simp only [Prod.mk.injEq] at heq
        obtain ⟨rfl, rfl⟩ := heq
        obtain ⟨form, hform, rfl⟩ := ih hread
        exact ⟨b :: form, .more (UInt8.not_lt.mp hb) hform, rfl⟩

/-- A number is read from its forms of at most ten bytes, and from no other bytes. -/
theorem readVarint_eq_some_iff {bytes rest : List UInt8} {n : Nat} :
    readVarint bytes = some (n, rest) ↔ ∃ form, SpellsVarint 9 n form ∧ bytes = form ++ rest := by
  constructor
  · exact spellsVarint_of_readVarintWithin
  · rintro ⟨form, hform, rfl⟩
    exact hform.readVarintWithin rest

/-- The least number that has no form of so many bytes behind the first one: seven bits fit each
byte, and one bit the last. -/
def varintBound : Nat → Nat
  | 0 => 2
  | left + 1 => varintBound left * 128

theorem SpellsVarint.lt {left n : Nat} {form : List UInt8} (h : SpellsVarint left n form) :
    n < varintBound left := by
  induction h with
  | @last left b unmarked bit =>
    have hb : b.toNat < 128 := UInt8.lt_iff_toNat_lt.mp unmarked
    cases left with
    | zero =>
      have hle : b.toNat ≤ 1 := UInt8.le_iff_toNat_le.mp (bit rfl)
      rw [varintBound]
      omega
    | succ left =>
      have hpos : 0 < varintBound left := by
        induction left with
        | zero => decide
        | succ left ih => rw [varintBound]; omega
      rw [varintBound]
      omega
  | @more left n b bytes marked _ ih =>
    have hb := b.toNat_lt
    rw [varintBound]
    omega

theorem toNat_toUInt8 {n : Nat} (h : n < 256) : n.toUInt8.toNat = n := by
  simp [Nat.mod_eq_of_lt h]

theorem SpellsVarint.length_le {left n : Nat} {form : List UInt8} (h : SpellsVarint left n form) :
    form.length ≤ left + 1 := by
  induction h with
  | last _ _ => exact Nat.le_add_left 1 _
  | more _ _ ih => exact Nat.succ_le_succ ih

/-- The shortest form of a number spells it. -/
theorem spellsVarint_writeVarint {left n : Nat} (hn : n < varintBound left) :
    SpellsVarint left n (writeVarint n) := by
  induction left generalizing n with
  | zero =>
    have hlt : n < 2 := hn
    have hbyte := toNat_toUInt8 (by omega : n < 256)
    rw [writeVarint, if_pos (by omega)]
    have hspell : SpellsVarint 0 n.toUInt8.toNat [n.toUInt8] := by
      refine .last ?_ (fun _ => ?_)
      · rw [UInt8.lt_iff_toNat_lt, hbyte]
        exact Nat.lt_trans hlt (by decide)
      · rw [UInt8.le_iff_toNat_le, hbyte]
        exact Nat.le_of_lt_succ hlt
    rwa [hbyte] at hspell
  | succ left ih =>
    rw [writeVarint]
    split
    · rename_i hsmall
      have hbyte := toNat_toUInt8 (by omega : n < 256)
      have hspell : SpellsVarint (left + 1) n.toUInt8.toNat [n.toUInt8] := by
        refine .last ?_ (fun h => absurd h (by omega))
        rw [UInt8.lt_iff_toNat_lt, hbyte]
        exact hsmall
      rwa [hbyte] at hspell
    · have hbyte := toNat_toUInt8 (by omega : n % 128 + 128 < 256)
      have hless : n / 128 < varintBound left := by
        rw [Nat.div_lt_iff_lt_mul (by decide)]
        exact hn
      have hspell : SpellsVarint (left + 1) _ (_ :: writeVarint (n / 128)) :=
        .more (b := (n % 128 + 128).toUInt8) (by
          rw [UInt8.le_iff_toNat_le, hbyte]
          exact Nat.le_add_left 128 _) (ih hless)
      rw [hbyte] at hspell
      have hvalue : n % 128 + 128 - 128 + 128 * (n / 128) = n := by omega
      rwa [hvalue] at hspell

theorem takeExactly_eq_some_iff {n : Nat} {bytes front rest : List UInt8} :
    takeExactly n bytes = some (front, rest) ↔ front.length = n ∧ bytes = front ++ rest := by
  simp only [takeExactly, List.splitAt_eq]
  constructor
  · intro h
    split at h
    · rename_i hlen
      simp only [Option.some.injEq, Prod.mk.injEq] at h
      obtain ⟨rfl, rfl⟩ := h
      exact ⟨hlen, (List.take_append_drop n bytes).symm⟩
    · contradiction
  · rintro ⟨rfl, rfl⟩
    simp

/-- Bytes that spell a payload: a number, bytes of a fixed width, or bytes behind their length. The
start and the end of a group have none. -/
inductive Payload.Spelled : Payload → List UInt8 → Prop
  | varint {n : Nat} {form : List UInt8} (h : SpellsVarint 9 n form) : Spelled (.varint n) form
  | fixed64 {bytes : List UInt8} (h : bytes.length = 8) : Spelled (.fixed64 bytes) bytes
  | chunk {bytes form : List UInt8} (h : SpellsVarint 9 bytes.length form) :
      Spelled (.chunk bytes) (form ++ bytes)
  | groupStart : Spelled .groupStart []
  | groupEnd : Spelled .groupEnd []
  | fixed32 {bytes : List UInt8} (h : bytes.length = 4) : Spelled (.fixed32 bytes) bytes

theorem Payload.wireType_lt (p : Payload) : p.wireType < 8 := by
  cases p <;> simp [wireType]

theorem Payload.Spelled.readPayload {p : Payload} {form : List UInt8} (h : p.Spelled form)
    (rest : List UInt8) : readPayload p.wireType (form ++ rest) = some (p, rest) := by
  cases h with
  | varint h =>
    simp only [wireType, Protobuf.readPayload, readVarint_eq_some_iff.mpr ⟨_, h, rfl⟩,
      Option.map_some]
  | chunk h =>
    simp only [wireType, Protobuf.readPayload, List.append_assoc,
      readVarint_eq_some_iff.mpr ⟨_, h, rfl⟩, Option.bind_eq_bind, Option.bind_some,
      takeExactly_eq_some_iff.mpr ⟨rfl, rfl⟩]
  | fixed64 h | fixed32 h =>
    simp only [wireType, Protobuf.readPayload, takeExactly_eq_some_iff.mpr ⟨h, rfl⟩,
      Option.map_some]
  | groupStart => rfl
  | groupEnd => rfl

/-- A payload is read from its forms, by its wire type, and from no other bytes. -/
theorem readPayload_eq_some_iff {wireType : Nat} {bytes rest : List UInt8} {p : Payload} :
    readPayload wireType bytes = some (p, rest) ↔
      p.wireType = wireType ∧ ∃ form, p.Spelled form ∧ bytes = form ++ rest := by
  constructor
  · intro h
    unfold readPayload at h
    split at h
    · obtain ⟨⟨n, r⟩, hread, heq⟩ := Option.map_eq_some_iff.mp h
      obtain ⟨form, hform, rfl⟩ := readVarint_eq_some_iff.mp hread
      simp only [Prod.mk.injEq] at heq
      obtain ⟨rfl, rfl⟩ := heq
      exact ⟨rfl, form, .varint hform, rfl⟩
    · obtain ⟨⟨front, r⟩, hread, heq⟩ := Option.map_eq_some_iff.mp h
      obtain ⟨hlen, rfl⟩ := takeExactly_eq_some_iff.mp hread
      simp only [Prod.mk.injEq] at heq
      obtain ⟨rfl, rfl⟩ := heq
      exact ⟨rfl, front, .fixed64 hlen, rfl⟩
    · obtain ⟨⟨n, r⟩, hread, h⟩ := Option.bind_eq_some_iff.mp h
      obtain ⟨⟨front, r'⟩, htake, h⟩ := Option.bind_eq_some_iff.mp h
      simp only [Option.some.injEq, Prod.mk.injEq] at h
      obtain ⟨rfl, rfl⟩ := h
      obtain ⟨form, hform, rfl⟩ := readVarint_eq_some_iff.mp hread
      obtain ⟨rfl, rfl⟩ := takeExactly_eq_some_iff.mp htake
      exact ⟨rfl, form ++ front, .chunk hform, by rw [List.append_assoc]⟩
    · simp only [Option.some.injEq, Prod.mk.injEq] at h
      obtain ⟨rfl, rfl⟩ := h
      exact ⟨rfl, [], .groupStart, rfl⟩
    · simp only [Option.some.injEq, Prod.mk.injEq] at h
      obtain ⟨rfl, rfl⟩ := h
      exact ⟨rfl, [], .groupEnd, rfl⟩
    · obtain ⟨⟨front, r⟩, hread, heq⟩ := Option.map_eq_some_iff.mp h
      obtain ⟨hlen, rfl⟩ := takeExactly_eq_some_iff.mp hread
      simp only [Prod.mk.injEq] at heq
      obtain ⟨rfl, rfl⟩ := heq
      exact ⟨rfl, front, .fixed32 hlen, rfl⟩
    · contradiction
  · rintro ⟨rfl, form, hform, rfl⟩
    exact hform.readPayload rest

/-- Bytes that spell a record: a key of 32 bits that holds a field number, which is not zero, and a
wire type, and behind it the payload. -/
def Record.Spelled (r : Record) (bytes : List UInt8) : Prop :=
  ∃ key form, SpellsVarint 9 (8 * r.number + r.payload.wireType) key ∧ 0 < r.number ∧
    8 * r.number + r.payload.wireType < 0x100000000 ∧ r.payload.Spelled form ∧
    bytes = key ++ form

/-- A record is read from its forms, and from no other bytes. -/
theorem readRecord_eq_some_iff {bytes rest : List UInt8} {r : Record} :
    readRecord bytes = some (r, rest) ↔ ∃ form, r.Spelled form ∧ bytes = form ++ rest := by
  constructor
  · intro h
    obtain ⟨⟨key, behind⟩, hkey, h⟩ := Option.bind_eq_some_iff.mp h
    dsimp only at h
    split at h
    · contradiction
    · rename_i hbounds
      obtain ⟨⟨p, behind'⟩, hpayload, h⟩ := Option.bind_eq_some_iff.mp h
      simp only [Option.some.injEq, Prod.mk.injEq] at h
      obtain ⟨rfl, rfl⟩ := h
      obtain ⟨keyForm, hkeyForm, rfl⟩ := readVarint_eq_some_iff.mp hkey
      obtain ⟨hwire, form, hform, rfl⟩ := readPayload_eq_some_iff.mp hpayload
      have hsum : 8 * (key / 8) + p.wireType = key := by omega
      rw [keyBound] at hbounds
      refine ⟨keyForm ++ form, ⟨keyForm, form, ?_, ?_, ?_, hform, rfl⟩, by simp⟩
      · rwa [hsum]
      · dsimp only
        omega
      · dsimp only
        omega
  · rintro ⟨_, ⟨key, form, hkey, hpos, hbound, hform, rfl⟩, rfl⟩
    have hwire := r.payload.wireType_lt
    have hdiv : (8 * r.number + r.payload.wireType) / 8 = r.number := by omega
    have hmod : (8 * r.number + r.payload.wireType) % 8 = r.payload.wireType := by omega
    have hbounds : ¬(keyBound ≤ 8 * r.number + r.payload.wireType ∨ r.number = 0) := by
      rw [keyBound]
      omega
    rw [readRecord, List.append_assoc, readVarint_eq_some_iff.mpr ⟨key, hkey, rfl⟩]
    simp only [Option.bind_eq_bind, Option.bind_some, hmod, hdiv, hbounds, ↓reduceIte,
      hform.readPayload]

/-- Bytes that spell records in a row. -/
inductive SpellsRecords : List Record → List UInt8 → Prop
  | nil : SpellsRecords [] []
  | cons {r : Record} {records : List Record} {form bytes : List UInt8} (first : r.Spelled form)
      (others : SpellsRecords records bytes) : SpellsRecords (r :: records) (form ++ bytes)

theorem SpellsVarint.ne_nil {left n : Nat} {form : List UInt8} (h : SpellsVarint left n form) :
    form ≠ [] := by
  cases h <;> simp

theorem Record.Spelled.ne_nil {r : Record} {form : List UInt8} (h : r.Spelled form) :
    form ≠ [] := by
  obtain ⟨key, payload, hkey, -, -, -, rfl⟩ := h
  simp [hkey.ne_nil]

theorem SpellsRecords.readRecordsAfter {records : List Record} {bytes : List UInt8}
    (h : SpellsRecords records bytes) (read : List Record) :
    readRecordsAfter read bytes = some (read.reverse ++ records) := by
  induction h generalizing read with
  | nil => simp [Protobuf.readRecordsAfter]
  | @cons r records form bytes first _ ih =>
    have hread : readRecord (form ++ bytes) = some (r, bytes) :=
      readRecord_eq_some_iff.mpr ⟨form, first, rfl⟩
    rw [Protobuf.readRecordsAfter, if_neg (by simp [first.ne_nil])]
    split
    · rename_i h
      rw [hread] at h
      contradiction
    · rename_i r' rest h
      rw [hread] at h
      simp only [Option.some.injEq, Prod.mk.injEq] at h
      obtain ⟨rfl, rfl⟩ := h
      rw [ih (r :: read)]
      simp

theorem spellsRecords_of_readRecordsAfter {read records : List Record} {bytes : List UInt8}
    (h : readRecordsAfter read bytes = some records) :
    ∃ others, records = read.reverse ++ others ∧ SpellsRecords others bytes := by
  fun_induction readRecordsAfter read bytes with
  | case1 read =>
    simp only [Option.some.injEq] at h
    exact ⟨[], by simp [h], .nil⟩
  | case2 read bytes hne hread => contradiction
  | case3 read bytes hne r rest hread ih =>
    obtain ⟨others, rfl, hothers⟩ := ih h
    obtain ⟨form, hform, rfl⟩ := readRecord_eq_some_iff.mp hread
    exact ⟨r :: others, by simp, .cons hform hothers⟩

/-- Records are read from the bytes that spell them in a row, and from no others. -/
theorem readRecords_eq_some_iff {bytes : List UInt8} {records : List Record} :
    readRecords bytes = some records ↔ SpellsRecords records bytes := by
  constructor
  · intro h
    obtain ⟨others, rfl, hothers⟩ := spellsRecords_of_readRecordsAfter h
    simpa using hothers
  · intro h
    exact h.readRecordsAfter []

end UnaryRpc.Protobuf
