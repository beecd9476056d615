import Mathlib.Data.List.Induction
import UnaryRpc.Proofs.Envelope

namespace UnaryRpc

namespace Status

/-- A write to a status: of a metadata key, or of the wire text. -/
inductive Write where
  | set (key value : String)
  | override (text : String)

namespace Write

def apply (s : Status) : Write → Status
  | set key value => s.set key value
  | override text => s.withOverride text

/-- The metadata key that a write binds. -/
def key : Write → String
  | set key _ => key
  | override _ => "twirp_status"

def value : Write → String
  | set _ value => value
  | override text => text

end Write

/-- A status after writes, one after another. -/
def writeAll (s : Status) (writes : List Write) : Status :=
  writes.foldl Write.apply s

/-- The value last written under a key, or else the one it had from the start. -/
def lastWritten? (s : Status) (writes : List Write) (key : String) : Option String :=
  ((writes.filter (fun w => w.key == key)).getLast?.map Write.value).or (s.metadata.get? key)

/-- The wire text after writes: the override last written, or else the text of the code. -/
def wireTextAfter (s : Status) (writes : List Write) : String :=
  (s.lastWritten? writes "twirp_status").getD (WireCode.ofCode s.code)

/-- The message after writes; an empty one gives way to the wire text. -/
def messageAfter (s : Status) (writes : List Write) : String :=
  if s.message = "" then s.wireTextAfter writes else s.message

section

variable (s : Status) (writes : List Write)

theorem writeAll_concat (w : Write) : s.writeAll (writes ++ [w]) = w.apply (s.writeAll writes) := by
  rw [writeAll, writeAll, List.foldl_append]
  rfl

theorem code_writeAll : (s.writeAll writes).code = s.code := by
  induction writes using List.reverseRecOn with
  | nil => rfl
  | append_singleton writes w ih =>
    rw [writeAll_concat, ← ih]
    cases w <;> rfl

theorem message_writeAll : (s.writeAll writes).message = s.message := by
  induction writes using List.reverseRecOn with
  | nil => rfl
  | append_singleton writes w ih =>
    rw [writeAll_concat, ← ih]
    cases w <;> rfl

theorem Write.metadata_apply (w : Write) :
    (w.apply s).metadata = s.metadata.insert w.key w.value := by
  cases w <;> rfl

theorem lastWritten?_concat (w : Write) (key : String) :
    s.lastWritten? (writes ++ [w]) key =
      if key = w.key then some w.value else s.lastWritten? writes key := by
  rw [lastWritten?, List.filter_append]
  split
  · rename_i hkey
    subst hkey
    simp
  · rename_i hkey
    simp [lastWritten?, Ne.symm hkey]

/-- A key is bound to what was last written under it. -/
theorem get?_writeAll (key : String) :
    (s.writeAll writes).metadata.get? key = s.lastWritten? writes key := by
  induction writes using List.reverseRecOn with
  | nil => rfl
  | append_singleton writes w ih =>
    rw [writeAll_concat, Write.metadata_apply, Table.get?_insert, ih, lastWritten?_concat]

theorem wireText_writeAll : (s.writeAll writes).wireText = s.wireTextAfter writes := by
  rw [wireText_eq, override?, get?_writeAll, code_writeAll, wireTextAfter]
  rfl

end

end Status

namespace Envelope

open Http Json Status

section

variable (s : Status) (writes : List Write)

theorem sentMessage_writeAll : sentMessage (s.writeAll writes) = s.messageAfter writes := by
  rw [sentMessage, message_writeAll, wireText_writeAll, messageAfter]

theorem get?_sentMetadata (key : String) :
    (sentMetadata (s.writeAll writes)).get? key =
      if key = "twirp_status" then none else s.lastWritten? writes key := by
  rw [sentMetadata, Table.get?_erase, get?_writeAll]
  rfl

end

theorem sentMetadata_eq_iff (s t : Status) (writes others : List Write) :
    sentMetadata (s.writeAll writes) = sentMetadata (t.writeAll others) ↔
      ∀ key, key ≠ "twirp_status" → s.lastWritten? writes key = t.lastWritten? others key := by
  constructor
  · intro h key hkey
    have hget := congrArg (fun table => Table.get? table key) h
    simpa only [get?_sentMetadata, if_neg hkey] using hget
  · intro h
    apply Table.ext
    intro key
    rw [get?_sentMetadata, get?_sentMetadata]
    split
    · rfl
    · rename_i hkey
      exact h key hkey

/-- Writes that bind each key to the same value leave the same status. -/
theorem writeAll_congr (s : Status) {writes others : List Write}
    (h : ∀ key, s.lastWritten? writes key = s.lastWritten? others key) :
    s.writeAll writes = s.writeAll others := by
  have hmetadata : (s.writeAll writes).metadata = (s.writeAll others).metadata :=
    Table.ext fun key => by rw [get?_writeAll, get?_writeAll, h]
  calc s.writeAll writes
    _ = ⟨s.code, s.message, (s.writeAll writes).metadata⟩ := by
      rw [← code_writeAll s writes, ← message_writeAll s writes]
    _ = s.writeAll others := by
      rw [hmetadata, ← code_writeAll s others, ← message_writeAll s others]

/-- A write does not show once its key is written again. -/
theorem lastWritten?_overwritten (s : Status) {before after : List Write} {w later : Write}
    (hlater : later ∈ after) (hkey : later.key = w.key) (key : String) :
    s.lastWritten? (before ++ w :: after) key = s.lastWritten? (before ++ after) key := by
  by_cases hw : w.key = key
  · have hmem : later ∈ after.filter (fun w => w.key == key) :=
      List.mem_filter.mpr ⟨hlater, by simp [hkey, hw]⟩
    have hne : after.filter (fun w => w.key == key) ≠ [] := List.ne_nil_of_mem hmem
    simp [lastWritten?, hw, List.getLast?_cons_of_ne_nil, hne]
  · simp [lastWritten?, hw]

/-- The envelope with a wire text, a message and metadata. -/
def layout (wireText message : String) (metadata : List (String × String)) : Tree :=
  .ofMembers ([("code", .ofText wireText), ("msg", .ofText message)] ++
    if metadata.isEmpty then []
    else [("meta", .ofMembers (metadata.map (fun e => (e.1, .ofText e.2))))])

theorem ofStatus_layout (s : Status) :
    ofStatus s = layout s.wireText (sentMessage s) (sentMetadata s).entries := by
  rw [ofStatus_members, members, metaMembers, Table.map, List.isEmpty_map, layout]

/-- Two error responses are the same exactly if wire text, message and the value last written under
each key but the override are, so no order of writes shows. -/
theorem encode_writes (s t : Status) (writes others : List Write) :
    (encode (s.writeAll writes) = encode (t.writeAll others) ↔
      s.wireTextAfter writes = t.wireTextAfter others ∧
      s.messageAfter writes = t.messageAfter others ∧
      ∀ key, key ≠ "twirp_status" → s.lastWritten? writes key = t.lastWritten? others key) ∧
    ((∀ key, writes.filter (fun w => w.key == key) = others.filter (fun w => w.key == key)) →
      encode (s.writeAll writes) = encode (s.writeAll others)) ∧
    (∀ before w after, writes = before ++ w :: after → (∃ later ∈ after, later.key = w.key) →
      encode (s.writeAll writes) = encode (s.writeAll (before ++ after))) ∧
    ∃ metadata : List (String × String), (metadata.map Prod.fst).Pairwise Text.Before ∧
      (∀ key value, (key, value) ∈ metadata ↔
        key ≠ "twirp_status" ∧ s.lastWritten? writes key = some value) ∧
      encode (s.writeAll writes) = (WireCode.httpStatusOf (s.wireTextAfter writes),
        (layout (s.wireTextAfter writes) (s.messageAfter writes) metadata).render) := by
  refine ⟨?_, ?_, ?_, (sentMetadata (s.writeAll writes)).entries, Table.keys_ascending _, ?_, ?_⟩
  · rw [encode_eq_iff, sentMetadata_eq_iff, wireText_writeAll, wireText_writeAll,
      sentMessage_writeAll, sentMessage_writeAll]
  · intro h
    have hlast : ∀ key, s.lastWritten? writes key = s.lastWritten? others key := by
      intro key
      rw [lastWritten?, h key]
      rfl
    rw [writeAll_congr s hlast]
  · rintro before w after rfl ⟨later, hlater, hkey⟩
    rw [writeAll_congr s (lastWritten?_overwritten s hlater hkey)]
  · intro key value
    rw [Table.mem_entries_iff, get?_sentMetadata]
    split
    · rename_i hkey
      simp [hkey]
    · rename_i hkey
      simp [hkey]
  · rw [encode, Status.httpStatus_eq, ofStatus_layout, wireText_writeAll, sentMessage_writeAll]

end Envelope

end UnaryRpc
