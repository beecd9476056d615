namespace UnaryRpc.Text

/-- The UTF-8 bytes of a text. -/
def bytes (s : String) : List UInt8 :=
  s.toByteArray.data.toList

/-- The text with the given UTF-8 bytes, if they are well formed. -/
def ofBytes? (bs : List UInt8) : Option String :=
  String.fromUTF8? ⟨bs.toArray⟩

/-- Writing a text and reading it gives the text. -/
@[simp] theorem ofBytes?_bytes (s : String) : ofBytes? (bytes s) = some s := by
  have h : String.fromUTF8? s.toByteArray = some s := by
    unfold String.fromUTF8?
    split
    · rfl
    · exact absurd s.isValidUTF8 ‹_›
  simpa [ofBytes?, bytes] using h

/-- Only the bytes of a text are read as that text. -/
theorem bytes_of_ofBytes? {bs : List UInt8} {s : String} (h : ofBytes? bs = some s) :
    bytes s = bs := by
  unfold ofBytes? String.fromUTF8? at h
  split at h
  · simp only [Option.some.injEq] at h
    subst s
    simp [bytes, String.fromUTF8]
  · simp at h

theorem bytes_injective {a b : String} (h : bytes a = bytes b) : a = b := by
  have ha := ofBytes?_bytes a
  rw [h, ofBytes?_bytes] at ha
  exact (Option.some.inj ha).symm

/-- The bytes of a text are those of its characters. -/
theorem bytes_ofList (cs : List Char) :
    bytes (String.ofList cs) = cs.flatMap String.utf8EncodeChar := by
  rw [bytes, String.toByteArray_ofList, List.utf8Encode]
  simp

theorem ofBytes?_ofList (cs : List Char) :
    ofBytes? (cs.flatMap String.utf8EncodeChar) = some (String.ofList cs) := by
  rw [← bytes_ofList, ofBytes?_bytes]

/-- Whether the UTF-8 form of one text comes before that of another. -/
def Before (a b : String) : Prop :=
  bytes a < bytes b

instance : DecidableRel Before := fun a b => inferInstanceAs (Decidable (bytes a < bytes b))

theorem Before.irrefl (a : String) : ¬Before a a :=
  List.lt_irrefl _

theorem Before.trans {a b c : String} (hab : Before a b) (hbc : Before b c) : Before a c :=
  List.lt_trans hab hbc

theorem Before.ne {a b : String} (h : Before a b) : a ≠ b := by
  intro he
  subst he
  exact Before.irrefl _ h

/-- Of two different texts one comes before the other. -/
theorem Before.of_not {a b : String} (hne : a ≠ b) (h : ¬Before a b) : Before b a := by
  have hle : bytes b ≤ bytes a := List.not_lt.1 h
  rcases List.le_iff_lt_or_eq.1 hle with hlt | heq
  · exact hlt
  · exact absurd (bytes_injective heq).symm hne

end UnaryRpc.Text
