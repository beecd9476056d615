import UnaryRpc.Proofs.Json.Spelling

namespace UnaryRpc.Json

/-- A part that a quoted text can hold: no bare control, and a unit of sixteen bits. -/
def Piece.Plain : Piece → Prop
  | .byte b => 0x20 ≤ b ∨ (escapeLetter? b).isSome
  | .unit n => n < 0x10000

theorem Piece.plain_ofByte (b : UInt8) : (Piece.ofByte b).Plain := by
  unfold Piece.ofByte
  split
  · have := b.toNat_lt
    simp only [Plain]
    omega
  · rename_i h
    simp only [Plain]
    by_cases hb : 0x20 ≤ b
    · exact .inl hb
    · right
      have hlt : b < 0x20 := UInt8.not_le.mp hb
      simpa [hlt, Option.isSome_iff_ne_none] using h

/-- A code point below 128 is a single byte. -/
theorem codePointBytes_ascii {b : UInt8} (hb : b < 0x80) : codePointBytes b.toNat = [b] := by
  have h : ∀ n : Fin 128, codePointBytes n.val = [n.val.toUInt8] := by decide
  have hlt : b.toNat < 128 := by simpa [UInt8.lt_iff_toNat_lt] using hb
  rw [h ⟨b.toNat, hlt⟩]
  simp

theorem toNat_ofNat_of_valid {n : Nat} (h : n.isValidChar) : (Char.ofNat n).toNat = n := by
  unfold Char.ofNat
  rw [dif_pos h]
  rfl

namespace RawText

/-- The bytes that parts of a quoted text stand for. A unit, or a pair of them, stands for the bytes
of a character. -/
inductive HasBytes : RawText → List UInt8 → Prop
  | nil : HasBytes [] []
  | byte {b : UInt8} {raw : RawText} {out : List UInt8} (others : HasBytes raw out) :
      HasBytes (.byte b :: raw) (b :: out)
  | unit {c : Char} {raw : RawText} {out : List UInt8} (low : c.toNat < 0x10000)
      (others : HasBytes raw out) :
      HasBytes (.unit c.toNat :: raw) (String.utf8EncodeChar c ++ out)
  | pair {c : Char} {raw : RawText} {out : List UInt8} (high : 0x10000 ≤ c.toNat)
      (others : HasBytes raw out) :
      HasBytes (.unit (0xd800 + (c.toNat - 0x10000) / 0x400) ::
        .unit (0xdc00 + (c.toNat - 0x10000) % 0x400) :: raw) (String.utf8EncodeChar c ++ out)

theorem codePointBytes_toNat (c : Char) : codePointBytes c.toNat = String.utf8EncodeChar c := by
  rw [codePointBytes, Char.ofNat_toNat]

theorem HasBytes.resolve {raw : RawText} {out : List UInt8} (h : raw.HasBytes out)
    (read : List UInt8) : RawText.resolve read raw = some (read.reverse ++ out) := by
  induction h generalizing read with
  | nil => simp [RawText.resolve]
  | byte _ ih =>
    rw [RawText.resolve, ih]
    simp
  | @unit c raw out low _ ih =>
    have hbounds : c.toNat < 0xd800 ∨ 0xdfff < c.toNat ∧ c.toNat < 0x110000 := c.valid
    have htrailing : isTrailing c.toNat = false := by
      simp only [isTrailing, Bool.and_eq_false_iff, decide_eq_false_iff_not]
      omega
    have hleading : isLeading c.toNat = false := by
      simp only [isLeading, Bool.and_eq_false_iff, decide_eq_false_iff_not]
      omega
    rw [RawText.resolve.eq_def]
    simp only [htrailing, hleading, Bool.false_eq_true, ↓reduceIte, codePointBytes_toNat]
    rw [ih]
    simp
  | @pair c raw out high _ ih =>
    have hbounds : c.toNat < 0xd800 ∨ 0xdfff < c.toNat ∧ c.toNat < 0x110000 := c.valid
    have hleads : isLeading (0xd800 + (c.toNat - 0x10000) / 0x400) = true := by
      simp only [isLeading, Bool.and_eq_true, decide_eq_true_eq]
      omega
    have hapart : isTrailing (0xd800 + (c.toNat - 0x10000) / 0x400) = false := by
      simp only [isTrailing, Bool.and_eq_false_iff, decide_eq_false_iff_not]
      omega
    have htrails : isTrailing (0xdc00 + (c.toNat - 0x10000) % 0x400) = true := by
      simp only [isTrailing, Bool.and_eq_true, decide_eq_true_eq]
      omega
    have hvalue : pairValue (0xd800 + (c.toNat - 0x10000) / 0x400)
        (0xdc00 + (c.toNat - 0x10000) % 0x400) = c.toNat := by
      unfold pairValue
      omega
    rw [RawText.resolve.eq_def]
    simp only [hleads, hapart, htrails, hvalue, Bool.false_eq_true, ↓reduceIte,
      codePointBytes_toNat]
    rw [ih]
    simp

/-- The bytes of parts whose units have sixteen bits are found as they are put together. -/
theorem hasBytes_of_resolve {read result : List UInt8} {raw : RawText}
    (hraw : ∀ n, .unit n ∈ raw → n < 0x10000) (h : resolve read raw = some result) :
    ∃ out, result = read.reverse ++ out ∧ raw.HasBytes out := by
  fun_induction resolve read raw with
  | case1 read =>
    obtain rfl := Option.some.inj h
    exact ⟨[], by simp, .nil⟩
  | case2 read b rest ih =>
    obtain ⟨out, rfl, hout⟩ := ih (fun n hn => hraw n (List.mem_cons_of_mem _ hn)) h
    exact ⟨b :: out, by simp, .byte hout⟩
  | case3 => contradiction
  | case4 read n htrailing hleading m rest hm ih =>
    obtain ⟨out, hresult, hout⟩ :=
      ih (fun k hk => hraw k (List.mem_cons_of_mem _ (List.mem_cons_of_mem _ hk))) h
    simp only [isLeading, isTrailing, Bool.and_eq_true, decide_eq_true_eq] at hleading hm
    have hvalid : (pairValue n m).isValidChar := by
      unfold pairValue
      right
      omega
    have hvalue := toNat_ofNat_of_valid hvalid
    have hpair := HasBytes.pair (c := Char.ofNat (pairValue n m)) (by
      rw [hvalue]
      unfold pairValue
      omega) hout
    have hn : 0xd800 + (pairValue n m - 0x10000) / 0x400 = n := by
      unfold pairValue
      omega
    have hm' : 0xdc00 + (pairValue n m - 0x10000) % 0x400 = m := by
      unfold pairValue
      omega
    rw [hvalue, hn, hm'] at hpair
    exact ⟨_, by simp [hresult, codePointBytes], hpair⟩
  | case5 => contradiction
  | case6 => contradiction
  | case7 read n rest htrailing hleading ih =>
    obtain ⟨out, rfl, hout⟩ := ih (fun k hk => hraw k (List.mem_cons_of_mem _ hk)) h
    have hlow : n < 0x10000 := hraw n (by simp)
    simp only [isLeading, isTrailing, Bool.and_eq_true, decide_eq_true_eq] at htrailing hleading
    have hvalid : n.isValidChar := by
      simp only [Nat.isValidChar]
      omega
    have hvalue := toNat_ofNat_of_valid hvalid
    have hunit := HasBytes.unit (c := Char.ofNat n) (by rwa [hvalue]) hout
    rw [hvalue] at hunit
    exact ⟨_, by simp [codePointBytes], hunit⟩

theorem Spells.hasBytes {raw : RawText} {cs : List Char} (h : raw.Spells cs) :
    raw.HasBytes (cs.flatMap String.utf8EncodeChar) := by
  induction h with
  | nil => exact .nil
  | @bytes c raw cs _ ih =>
    rw [List.flatMap_cons]
    generalize String.utf8EncodeChar c = bytes
    induction bytes with
    | nil => exact ih
    | cons b bytes ihBytes => exact .byte ihBytes
  | unit low _ ih => exact .unit low ih
  | pair high _ ih => exact .pair high ih

/-- Only the first byte of a character is a first byte. -/
theorem utf8EncodeChar_eq_cons (c : Char) : ∃ b more, String.utf8EncodeChar c = b :: more ∧
    b.IsUTF8FirstByte ∧ ∀ x ∈ more, ¬x.IsUTF8FirstByte := by
  have hfirst : ∀ bytes, bytes = String.utf8EncodeChar c →
      ∀ (i : Nat) (hi : i < bytes.length), bytes[i].IsUTF8FirstByte ↔ i = 0 := by
    rintro _ rfl i hi
    exact UInt8.isUTF8FirstByte_getElem_utf8EncodeChar
  cases hc : String.utf8EncodeChar c with
  | nil => exact absurd hc String.utf8EncodeChar_ne_nil
  | cons b more =>
    refine ⟨b, more, rfl, (hfirst _ hc.symm 0 (by simp)).mpr rfl, ?_⟩
    intro x hx hxfirst
    obtain ⟨i, hi, rfl⟩ := List.mem_iff_getElem.mp hx
    have hzero := (hfirst _ hc.symm (i + 1) (by simpa using hi)).mp hxfirst
    contradiction

/-- Bytes that only continue a character are given by themselves. -/
theorem HasBytes.continuation {raw : RawText} {front back : List UInt8}
    (h : raw.HasBytes (front ++ back)) (hfront : ∀ b ∈ front, ¬b.IsUTF8FirstByte) :
    ∃ others : RawText, raw = front.map .byte ++ others ∧ others.HasBytes back := by
  induction front generalizing raw with
  | nil => exact ⟨raw, rfl, h⟩
  | cons b front ih =>
    have hunit (c : Char) (out : List UInt8) :
        b :: front ++ back ≠ String.utf8EncodeChar c ++ out := by
      obtain ⟨first, more, hc, hfirst, -⟩ := utf8EncodeChar_eq_cons c
      intro heq
      rw [hc] at heq
      obtain ⟨rfl, -⟩ := List.cons.inj heq
      exact hfront _ (by simp) hfirst
    generalize hout : b :: front ++ back = out at h
    cases h with
    | nil => contradiction
    | byte others =>
      obtain ⟨rfl, rfl⟩ := List.cons.inj hout
      obtain ⟨raw', rfl, hraw'⟩ := ih others (fun x hx => hfront x (List.mem_cons_of_mem _ hx))
      exact ⟨raw', rfl, hraw'⟩
    | unit => exact absurd hout (hunit _ _)
    | pair => exact absurd hout (hunit _ _)

/-- A character is told by the bytes that start with its own. -/
theorem utf8EncodeChar_append_inj {c d : Char} {xs ys : List UInt8}
    (h : String.utf8EncodeChar c ++ xs = String.utf8EncodeChar d ++ ys) : c = d ∧ xs = ys := by
  have hdecode := congrArg (fun bytes => (List.toByteArray bytes).utf8DecodeChar? 0) h
  simp only [List.toByteArray_append, ByteArray.utf8DecodeChar?_utf8EncodeChar_append,
    Option.some.injEq] at hdecode
  subst hdecode
  exact ⟨rfl, List.append_cancel_left h⟩

/-- Parts that have the bytes of characters stand for those characters. -/
theorem HasBytes.spells {raw : RawText} {cs : List Char}
    (h : raw.HasBytes (cs.flatMap String.utf8EncodeChar)) : raw.Spells cs := by
  induction cs generalizing raw with
  | nil =>
    rw [List.flatMap_nil] at h
    generalize hout : [] = out at h
    cases h with
    | nil => exact .nil
    | byte => contradiction
    | unit => simp [String.utf8EncodeChar_ne_nil] at hout
    | pair => simp [String.utf8EncodeChar_ne_nil] at hout
  | cons c cs ih =>
    rw [List.flatMap_cons] at h
    generalize hout : String.utf8EncodeChar c ++ cs.flatMap String.utf8EncodeChar = out at h
    cases h with
    | nil => simp [String.utf8EncodeChar_ne_nil] at hout
    | @byte b raw out others =>
      obtain ⟨first, more, hc, -, hmore⟩ := utf8EncodeChar_eq_cons c
      rw [hc] at hout
      obtain ⟨rfl, rfl⟩ := List.cons.inj hout
      obtain ⟨raw', rfl, hraw'⟩ := others.continuation hmore
      have hspells := Spells.bytes (c := c) (ih hraw')
      rwa [hc] at hspells
    | unit low others =>
      obtain ⟨rfl, rfl⟩ := utf8EncodeChar_append_inj hout
      exact .unit low (ih others)
    | pair high others =>
      obtain ⟨rfl, rfl⟩ := utf8EncodeChar_append_inj hout
      exact .pair high (ih others)

/-- Parts that stand for a text are read as that text. -/
theorem Spells.text? {raw : RawText} {s : String} (h : raw.Spells s.toList) :
    RawText.text? raw = some s := by
  rw [RawText.text?, h.hasBytes.resolve]
  simpa using Text.ofBytes?_ofList s.toList

/-- Parts are read as a text exactly if they stand for it. -/
theorem text?_eq_some_iff {raw : RawText} (hraw : ∀ n, .unit n ∈ raw → n < 0x10000) {s : String} :
    raw.text? = some s ↔ raw.Spells s.toList := by
  constructor
  · intro h
    obtain ⟨bytes, hbytes, hs⟩ := Option.bind_eq_some_iff.mp h
    obtain ⟨out, rfl, hout⟩ := hasBytes_of_resolve hraw hbytes
    apply HasBytes.spells
    rw [← Text.bytes_ofList, String.ofList_toList, Text.bytes_of_ofBytes? hs]
    exact hout
  · exact Spells.text?

/-- The preferred parts of bytes stand for those bytes. -/
theorem hasBytes_ofByte (bs : List UInt8) : HasBytes (bs.map Piece.ofByte) bs := by
  induction bs with
  | nil => exact .nil
  | cons b bs ih =>
    rw [List.map_cons, Piece.ofByte]
    split
    · rename_i h
      have hlt : b.toNat < 0x20 := UInt8.lt_iff_toNat_lt.mp h.1
      have hbytes : codePointBytes b.toNat = [b] := by
        apply codePointBytes_ascii
        rw [UInt8.lt_iff_toNat_lt]
        exact Nat.lt_trans hlt (by decide)
      have hvalue : (Char.ofNat b.toNat).toNat = b.toNat :=
        toNat_ofNat_of_valid (.inl (by omega))
      have hunit := HasBytes.unit (c := Char.ofNat b.toNat) (by omega) ih
      rw [hvalue] at hunit
      rw [codePointBytes] at hbytes
      rwa [hbytes] at hunit
    · exact .byte ih

/-- The preferred spelling of a text stands for it. -/
theorem spells_ofText (s : String) : (ofText s).Spells s.toList := by
  apply HasBytes.spells
  rw [← Text.bytes_ofList, String.ofList_toList]
  exact hasBytes_ofByte (Text.bytes s)

/-- The preferred spelling of a text is read as that text. -/
@[simp] theorem text?_ofText (s : String) : (ofText s).text? = some s :=
  (spells_ofText s).text?

theorem plain_ofText (s : String) : ∀ p ∈ ofText s, p.Plain := by
  intro p hp
  obtain ⟨b, _, rfl⟩ := List.mem_map.mp hp
  exact Piece.plain_ofByte b

end RawText

/-- The four digits of a unit. -/
theorem hexValue?_hexDigit {d : Nat} (hd : d < 16) : hexValue? (hexDigit d) = some d := by
  have h : ∀ d, d < 16 → hexValue? (hexDigit d) = some d := by decide
  exact h d hd

theorem escapedByte?_escapeLetter {b letter : UInt8} (h : escapeLetter? b = some letter) :
    letter ≠ 0x75 ∧ escapedByte? letter = some b := by
  unfold escapeLetter? at h
  repeat' split at h
  all_goals first
    | (cases h; subst b; decide)
    | contradiction

/-- The preferred form of a part spells it. -/
theorem Piece.Plain.spelled {p : Piece} (hp : p.Plain) : p.Spelled p.render := by
  cases p with
  | byte b =>
    rw [render]
    cases he : escapeLetter? b with
    | some letter => exact .letter (escapedByte?_escapeLetter he).2
    | none =>
      refine .bare ?_ ?_ ?_
      · rcases hp with hp | hp
        · exact hp
        · simp [he] at hp
      · rintro rfl
        simp [escapeLetter?] at he
      · rintro rfl
        simp [escapeLetter?] at he
  | unit n =>
    have hn : n < 0x10000 := hp
    have hdigits : SpellsHex 4
        (16 * (16 * (16 * (16 * 0 + n / 4096 % 16) + n / 256 % 16) + n / 16 % 16) + n % 16)
        [hexDigit (n / 4096 % 16), hexDigit (n / 256 % 16), hexDigit (n / 16 % 16),
          hexDigit (n % 16)] :=
      .snoc (.snoc (.snoc (.snoc .nil (hexValue?_hexDigit (Nat.mod_lt _ (by decide))))
        (hexValue?_hexDigit (Nat.mod_lt _ (by decide))))
        (hexValue?_hexDigit (Nat.mod_lt _ (by decide))))
        (hexValue?_hexDigit (Nat.mod_lt _ (by decide)))
    have hvalue : 16 * (16 * (16 * (16 * 0 + n / 4096 % 16) + n / 256 % 16) + n / 16 % 16) +
        n % 16 = n := by omega
    rw [hvalue] at hdigits
    exact .unit hdigits

theorem RawText.Spelled.append {a b : RawText} {xs ys : List UInt8} (ha : RawText.Spelled a xs)
    (hb : RawText.Spelled b ys) : RawText.Spelled (a ++ b) (xs ++ ys) := by
  induction hb with
  | nil => simpa using ha
  | snoc _ last ih =>
    rw [← List.append_assoc, ← List.append_assoc]
    exact .snoc ih last

theorem RawText.spelled_render {raw : RawText} (hraw : ∀ p ∈ raw, p.Plain) :
    RawText.Spelled raw raw.render := by
  induction raw with
  | nil => exact .nil
  | cons p raw ih =>
    have hp : RawText.Spelled ([] ++ [p]) ([] ++ p.render) := .snoc .nil (hraw p (by simp)).spelled
    rw [RawText.render, List.flatMap_cons]
    exact hp.append (ih (fun q hq => hraw q (by simp [hq])))

namespace Lexer

/-- A digit of a unit is taken as long as some are missing. -/
theorem run_hex (tokens : List Token) (raw : RawText) {count n : Nat} {digits : List UInt8}
    (h : SpellsHex count n digits) (hcount : count < 4) :
    Lexer.run ⟨.unit raw 4 0, tokens⟩ digits = some ⟨.unit raw (4 - count) n, tokens⟩ := by
  induction h with
  | nil => rfl
  | @snoc count n d bytes b _ last ih =>
    rw [run_append, ih (by omega), Option.bind_some]
    have hleft : ¬4 - count ≤ 1 := by omega
    simp only [run, step, last, Option.map_some, hleft, ↓reduceIte]
    rfl

/-- A part of a quoted text is put in front of those already read. -/
theorem run_piece (tokens : List Token) (raw : RawText) {p : Piece} {form : List UInt8}
    (hp : p.Spelled form) :
    Lexer.run ⟨.text raw, tokens⟩ form = some ⟨.text (p :: raw), tokens⟩ := by
  cases hp with
  | bare high quote backslash =>
    simp [run, step, quote, backslash, UInt8.not_lt.mpr high]
  | @letter b letter escapes =>
    have hunit : letter ≠ 0x75 := by
      rintro rfl
      simp [escapedByte?] at escapes
    simp [run, step, hunit, escapes]
  | unit spells =>
    cases spells with
    | @snoc _ n d bytes b front last =>
      have hopen : Lexer.run ⟨.text raw, tokens⟩ [0x5c, 0x75] = some ⟨.unit raw 4 0, tokens⟩ := rfl
      have hfront := run_hex tokens raw front (by decide)
      have hsplit : (0x5c :: 0x75 :: (bytes ++ [b]) : List UInt8) =
          [0x5c, 0x75] ++ bytes ++ [b] := rfl
      rw [hsplit, run_append, run_append, hopen, Option.bind_some, hfront, Option.bind_some]
      simp [run, step, last]

/-- The parts of a quoted text are taken one after another. -/
theorem run_raw (tokens : List Token) {raw : RawText} {form : List UInt8} (h : raw.Spelled form) :
    Lexer.run ⟨.text [], tokens⟩ form = some ⟨.text raw.reverse, tokens⟩ := by
  induction h with
  | nil => rfl
  | snoc _ last ih =>
    rw [run_append, ih, Option.bind_some, run_piece tokens _ last, List.reverse_append]
    rfl

end Lexer

end UnaryRpc.Json
