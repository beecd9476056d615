import UnaryRpc.Protobuf.Varint

namespace UnaryRpc.Protobuf

/-- What a record holds, by wire type. The start and the end of a group are records of their
own. -/
inductive Payload where
  | varint (n : Nat)
  | fixed64 (bytes : List UInt8)
  | chunk (bytes : List UInt8)
  | groupStart
  | groupEnd
  | fixed32 (bytes : List UInt8)
deriving DecidableEq

/-- A part of a binary message: a field number and what stands under it. -/
structure Record where
  number : Nat
  payload : Payload
deriving DecidableEq

def Payload.wireType : Payload → Nat
  | varint _ => 0
  | fixed64 _ => 1
  | chunk _ => 2
  | groupStart => 3
  | groupEnd => 4
  | fixed32 _ => 5

def Payload.write : Payload → List UInt8
  | varint n => writeVarint n
  | fixed64 bytes => bytes
  | chunk bytes => writeVarint bytes.length ++ bytes
  | groupStart => []
  | groupEnd => []
  | fixed32 bytes => bytes

def Record.write (r : Record) : List UInt8 :=
  writeVarint (8 * r.number + r.payload.wireType) ++ r.payload.write

/-- The first `n` bytes and the rest, if there are as many. -/
def takeExactly (n : Nat) (bytes : List UInt8) : Option (List UInt8 × List UInt8) :=
  let (front, rest) := bytes.splitAt n
  if front.length = n then some (front, rest) else none

def readPayload (wireType : Nat) (bytes : List UInt8) : Option (Payload × List UInt8) :=
  match wireType with
  | 0 => (readVarint bytes).map (fun (n, rest) => (.varint n, rest))
  | 1 => (takeExactly 8 bytes).map (fun (front, rest) => (.fixed64 front, rest))
  | 2 => do
    let (n, rest) ← readVarint bytes
    let (front, rest) ← takeExactly n rest
    some (.chunk front, rest)
  | 3 => some (.groupStart, bytes)
  | 4 => some (.groupEnd, bytes)
  | 5 => (takeExactly 4 bytes).map (fun (front, rest) => (.fixed32 front, rest))
  | _ => none

/-- The least number that is too large for a key: keys have 32 bits. -/
def keyBound : Nat := 0x100000000

/-- Reads a record. Its key fits 32 bits and its field number is not zero. -/
def readRecord (bytes : List UInt8) : Option (Record × List UInt8) := do
  let (key, rest) ← readVarint bytes
  if keyBound ≤ key ∨ key / 8 = 0 then none
  else
    let (payload, rest) ← readPayload (key % 8) rest
    some (⟨key / 8, payload⟩, rest)

theorem takeExactly_length {n : Nat} {bytes front rest : List UInt8}
    (h : takeExactly n bytes = some (front, rest)) : rest.length ≤ bytes.length := by
  simp only [takeExactly, List.splitAt_eq] at h
  split at h
  · simp only [Option.some.injEq, Prod.mk.injEq] at h
    simp [← h.2]
  · simp at h

theorem readPayload_length {wireType : Nat} {bytes rest : List UInt8} {p : Payload}
    (h : readPayload wireType bytes = some (p, rest)) : rest.length ≤ bytes.length := by
  unfold readPayload at h
  split at h
  · obtain ⟨⟨n, r⟩, hr, he⟩ := Option.map_eq_some_iff.1 h
    have := readVarint_shorter hr
    simp only [Prod.mk.injEq] at he
    simp only [← he.2]
    omega
  · obtain ⟨⟨f, r⟩, hr, he⟩ := Option.map_eq_some_iff.1 h
    simp only [Prod.mk.injEq] at he
    simpa only [← he.2] using takeExactly_length hr
  · obtain ⟨⟨n, r⟩, hr, h⟩ := Option.bind_eq_some_iff.1 h
    obtain ⟨⟨f, r'⟩, hr', h⟩ := Option.bind_eq_some_iff.1 h
    have h₁ := readVarint_shorter hr
    have h₂ := takeExactly_length hr'
    simp only [Option.some.injEq, Prod.mk.injEq] at h
    simp only [← h.2]
    omega
  · simp only [Option.some.injEq, Prod.mk.injEq] at h
    simp [← h.2]
  · simp only [Option.some.injEq, Prod.mk.injEq] at h
    simp [← h.2]
  · obtain ⟨⟨f, r⟩, hr, he⟩ := Option.map_eq_some_iff.1 h
    simp only [Prod.mk.injEq] at he
    simpa only [← he.2] using takeExactly_length hr
  · simp at h

/-- Reading a record uses up at least one byte. -/
theorem readRecord_shorter {bytes rest : List UInt8} {r : Record}
    (h : readRecord bytes = some (r, rest)) : rest.length < bytes.length := by
  obtain ⟨⟨key, r₁⟩, hk, h⟩ := Option.bind_eq_some_iff.1 h
  have h₁ := readVarint_shorter hk
  dsimp only at h
  split at h
  · simp at h
  · obtain ⟨⟨p, r₂⟩, hp, h⟩ := Option.bind_eq_some_iff.1 h
    have h₂ := readPayload_length hp
    simp only [Option.some.injEq, Prod.mk.injEq] at h
    simp only [← h.2]
    omega

/-- Puts the records of a text behind those already read, which are in reverse. -/
def readRecordsAfter (read : List Record) (bytes : List UInt8) : Option (List Record) :=
  if bytes = [] then some read.reverse
  else
    match _h : readRecord bytes with
    | none => none
    | some (r, rest) => readRecordsAfter (r :: read) rest
termination_by bytes.length
decreasing_by exact readRecord_shorter _h

def readRecords (bytes : List UInt8) : Option (List Record) :=
  readRecordsAfter [] bytes

def writeRecords (records : List Record) : List UInt8 :=
  records.flatMap Record.write

/-- Where the reading of a message stands: the numbers of the open groups, innermost first, and
the records outside groups in reverse. A group is skipped as a whole and left there as its start. -/
structure Nesting where
  opened : List Nat := []
  outside : List Record := []

/-- Takes one record. A group, and what is inside one, takes one level of the depth. -/
def Nesting.step (depth : Nat) (s : Nesting) (r : Record) : Option Nesting :=
  match s.opened, r.payload with
  | [], .groupStart => if depth = 0 then none else some ⟨[r.number], r :: s.outside⟩
  | [], .groupEnd => none
  | [], _ => some ⟨[], r :: s.outside⟩
  | n :: opened, .groupStart =>
    if opened.length + 1 < depth then some ⟨r.number :: n :: opened, s.outside⟩ else none
  | n :: opened, .groupEnd => if r.number = n then some ⟨opened, s.outside⟩ else none
  | n :: opened, _ => if opened.length + 1 < depth then some ⟨n :: opened, s.outside⟩ else none

def Nesting.run (depth : Nat) (s : Nesting) : List Record → Option Nesting
  | [] => some s
  | r :: rs =>
    match s.step depth r with
    | none => none
    | some s => s.run depth rs

/-- The records outside groups, if every group is closed. -/
def outermost (depth : Nat) (records : List Record) : Option (List Record) :=
  match Nesting.run depth {} records with
  | some ⟨[], outside⟩ => some outside.reverse
  | _ => none

end UnaryRpc.Protobuf
