namespace UnaryRpc.Protobuf

/-- The shortest form of a number. -/
def writeVarint (n : Nat) : List UInt8 :=
  if n < 128 then [n.toUInt8] else (n % 128 + 128).toUInt8 :: writeVarint (n / 128)

/-- Reads a number of at most `left` bytes, of which the last one may add a single bit. -/
def readVarintWithin (left : Nat) : List UInt8 → Option (Nat × List UInt8)
  | [] => none
  | b :: rest =>
    if left ≤ 1 then
      if left = 1 ∧ b ≤ 1 then some (b.toNat, rest) else none
    else if b < 128 then some (b.toNat, rest)
    else (readVarintWithin (left - 1) rest).map (fun (n, rest) => (b.toNat - 128 + 128 * n, rest))

def readVarint (bytes : List UInt8) : Option (Nat × List UInt8) :=
  readVarintWithin 10 bytes

theorem readVarintWithin_shorter {left : Nat} {bytes rest : List UInt8} {n : Nat}
    (h : readVarintWithin left bytes = some (n, rest)) : rest.length < bytes.length := by
  induction bytes generalizing left n with
  | nil => simp [readVarintWithin] at h
  | cons b bs ih =>
    unfold readVarintWithin at h
    split at h
    · split at h
      · simp only [Option.some.injEq, Prod.mk.injEq] at h
        simp [← h.2]
      · simp at h
    · split at h
      · simp only [Option.some.injEq, Prod.mk.injEq] at h
        simp [← h.2]
      · obtain ⟨⟨m, r⟩, hr, he⟩ := Option.map_eq_some_iff.1 h
        simp only [Prod.mk.injEq] at he
        obtain ⟨_, rfl⟩ := he
        have := ih hr
        simp only [List.length_cons]
        omega

/-- Reading a number uses up at least one byte. -/
theorem readVarint_shorter {bytes rest : List UInt8} {n : Nat}
    (h : readVarint bytes = some (n, rest)) : rest.length < bytes.length :=
  readVarintWithin_shorter h

end UnaryRpc.Protobuf
