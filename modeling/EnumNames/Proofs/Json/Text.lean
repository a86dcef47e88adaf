import EnumNames.Json.Tree
import EnumNames.Json.Value
import EnumNames.Proofs.Except
import EnumNames.Proofs.Json.Reader
import EnumNames.Proofs.Text.Utf8

/-!
# Reading a written text

A text that was written is read as it was, whatever follows it. Each character is one escape or
stands as its bytes, and the reader gathers these bytes again.

* `yields_readBytes_escapeChar`: one written character.
* `yields_text`: a written text.
-/

namespace EnumNames.Json

open Text (bytesOf)

variable {s rest before bytes : List UInt8} {text : String} {c : Char} {x : UInt8}

/-! ## Bytes that stand for themselves -/

/-- A byte that is neither a quote, a backslash nor a control character. -/
def isPlainByte (x : UInt8) : Bool :=
  !(x < 0x20) && x != 0x22 && x != 0x5c

theorem toNat_of_ofUInt8 (h : Char.ofUInt8 x = c) : x.toNat = c.toNat :=
  congrArg Char.toNat h

/-- A byte that is not escaped stands for itself. -/
theorem yields_readBytes_cons (hx : isPlainByte x)
    (h : Yields (readBytes (x :: before) s) bytes rest) :
    Yields (readBytes before (x :: s)) bytes rest := by
  obtain ⟨t, ht, hbytes, hrest⟩ := h
  simp only [isPlainByte, Bool.and_eq_true, Bool.not_eq_true', decide_eq_false_iff_not,
    bne_iff_ne] at hx
  obtain ⟨⟨hcontrol, hquote⟩, hbackslash⟩ := hx
  have hquote' : Char.ofUInt8 x ≠ '"' := fun h => hquote (UInt8.toNat_inj.1 (toNat_of_ofUInt8 h))
  have hbackslash' : Char.ofUInt8 x ≠ '\\' :=
    fun h => hbackslash (UInt8.toNat_inj.1 (toNat_of_ofUInt8 h))
  rw [readBytes, if_neg hquote', if_neg hbackslash', if_neg hcontrol, ht]
  exact ⟨_, rfl, hbytes, hrest⟩

/-- Bytes that are not escaped stand for themselves. -/
theorem yields_readBytes_append {plain : List UInt8} (hplain : ∀ x ∈ plain, isPlainByte x)
    (h : Yields (readBytes (plain.reverse ++ before) s) bytes rest) :
    Yields (readBytes before (plain ++ s)) bytes rest := by
  induction plain generalizing before with
  | nil => exact h
  | cons x plain ih =>
    apply yields_readBytes_cons (hplain x List.mem_cons_self)
    apply ih fun y hy => hplain y (List.mem_cons_of_mem x hy)
    rwa [List.reverse_cons, List.append_assoc] at h

/-! ## Escapes -/

/-- After a backslash, an escape is read as the bytes that it stands for. -/
theorem yields_readBytes_escape {escape : List UInt8}
    (hescape : Yields (readEscape s) escape rest)
    (h : Yields (readBytes (escape.reverse ++ before) rest) bytes s') :
    Yields (readBytes before (0x5c :: s)) bytes s' := by
  obtain ⟨e, he, rfl, rfl⟩ := hescape
  obtain ⟨t, ht, hbytes, hrest⟩ := h
  rw [readBytes, if_neg (by decide), if_pos (by decide), he]
  dsimp only
  rw [ht]
  exact ⟨_, rfl, hbytes, hrest⟩

/-- The code of a character is written with its own bytes. -/
theorem utf8_toNat (c : Char) : utf8 c.toNat = bytesOf [c] := by
  rw [utf8, Char.ofNat_toNat, String.singleton_eq_ofList, Text.toList_toUTF8_ofList]

/-- A short escape stands for its character. -/
theorem yields_readEscape_short (h : shortEscape? (Char.ofUInt8 x) = some c) (s : List UInt8) :
    Yields (readEscape (x :: s)) (bytesOf [c]) s := by
  rw [readEscape, h, ← utf8_toNat]
  exact ⟨_, rfl, rfl, rfl⟩

/-- The byte of a hexadecimal digit. -/
def hexByte (d : Nat) : UInt8 :=
  UInt8.ofNat d.digitChar.toNat

/-- A digit below sixteen is read back. -/
theorem hexDigit?_hexByte : ∀ d < 16, hexDigit? (hexByte d) = some d := by
  decide +kernel

/-- Four hexadecimal digits are read as the code of a control character. -/
theorem yields_readUnit {n : Nat} (h : n < 0x20) (s : List UInt8) :
    Yields (readUnit (0x30 :: 0x30 :: hexByte (n / 16) :: hexByte (n % 16) :: s)) n s := by
  have hzero : hexDigit? 0x30 = some 0 := rfl
  rw [readUnit, hzero, hexDigit?_hexByte (n / 16) (by omega), hexDigit?_hexByte (n % 16) (by omega)]
  refine ⟨_, rfl, ?_, rfl⟩
  show ((0 * 16 + 0) * 16 + n / 16) * 16 + n % 16 = n
  omega

/-- A long escape stands for its control character. -/
theorem yields_readEscape_unit {n : Nat} (h : n < 0x20) (s : List UInt8) :
    Yields (readEscape (0x75 :: 0x30 :: 0x30 :: hexByte (n / 16) :: hexByte (n % 16) :: s)) (utf8 n)
      s := by
  obtain ⟨t, ht, hvalue, hrest⟩ := yields_readUnit h s
  -- a number this small is no half of a pair
  have hpoint : readCodePoint (0x30 :: 0x30 :: hexByte (n / 16) :: hexByte (n % 16) :: s)
      = .ok t := by
    rw [readCodePoint, ht]
    show (if _ then _ else if _ then _ else _) = _
    rw [if_neg (by omega), if_neg (by omega)]
    rfl
  have hshort : shortEscape? (Char.ofUInt8 0x75) = none := rfl
  rw [readEscape, hshort]
  dsimp only
  rw [if_pos (by decide), hpoint]
  exact ⟨_, rfl, congrArg utf8 hvalue, hrest⟩

/-- The escape of a control character without a letter of its own. -/
theorem bytesOf_unitEscape : ∀ n < 0x20,
    bytesOf ('\\' :: 'u' :: List.replicate (4 - (Nat.toDigits 16 n).length) '0'
        ++ Nat.toDigits 16 n)
      = [0x5c, 0x75, 0x30, 0x30, hexByte (n / 16), hexByte (n % 16)] := by
  decide +kernel

/-! ## Texts -/

/-- A character is written by an escape of one letter, by one of four digits, or as it is. -/
theorem escapeChar_cases (c : Char) :
    (∃ letter, escapeChar c = ['\\', letter] ∧ shortEscape? letter = some c ∧ letter.toNat < 0x80)
      ∨ c.toNat < 0x20 ∧ escapeChar c = '\\' :: 'u'
        :: List.replicate (4 - (Nat.toDigits 16 c.toNat).length) '0' ++ Nat.toDigits 16 c.toNat
      ∨ escapeChar c = [c] ∧ 0x20 ≤ c.toNat ∧ c ≠ '"' ∧ c ≠ '\\' := by
  fun_cases escapeChar c
  -- two marks and five control characters have a letter
  iterate 7 exact .inl ⟨_, rfl, rfl, by decide⟩
  · next hcontrol _ => exact .inr (.inl ⟨hcontrol, rfl⟩)
  · next hquote hbackslash _ _ _ _ _ hcontrol =>
    exact .inr (.inr ⟨rfl, Nat.le_of_not_lt hcontrol, hquote, hbackslash⟩)

/-- The bytes of characters without an escape are not escaped. -/
theorem isPlainByte_of_mem (hlow : 0x20 ≤ c.toNat) (hquote : c ≠ '"') (hbackslash : c ≠ '\\')
    (hx : x ∈ bytesOf [c]) : isPlainByte x := by
  rw [Text.bytesOf_cons, Text.bytesOf_nil, List.append_nil] at hx
  simp only [isPlainByte, Bool.and_eq_true, Bool.not_eq_true', decide_eq_false_iff_not, bne_iff_ne]
  by_cases hascii : c.toNat < 0x80
  · rw [Text.utf8EncodeChar_of_lt hascii, List.mem_singleton] at hx
    have hchar : Char.ofUInt8 x = c := by rw [hx, Text.ofUInt8_ofNat hascii]
    have hval := toNat_of_ofUInt8 hchar
    refine ⟨⟨?_, ?_⟩, ?_⟩
    · rw [UInt8.lt_iff_toNat_lt, hval]
      exact Nat.not_lt_of_le hlow
    · rintro rfl
      exact hquote hchar.symm
    · rintro rfl
      exact hbackslash hchar.symm
  · -- the bytes of other characters are above all that mean something in a text
    have hle : 0x80 ≤ x.toNat :=
      UInt8.le_iff_toNat_le.1 (Text.le_of_mem_utf8EncodeChar (Nat.le_of_not_lt hascii) hx)
    refine ⟨⟨?_, ?_⟩, ?_⟩
    · rw [UInt8.lt_iff_toNat_lt]
      exact Nat.not_lt_of_le (Nat.le_trans (by decide) hle)
    · rintro rfl
      exact absurd hle (by decide)
    · rintro rfl
      exact absurd hle (by decide)

/-- A written character is read as its bytes. -/
theorem yields_readBytes_escapeChar (c : Char)
    (h : Yields (readBytes ((bytesOf [c]).reverse ++ before) s) bytes rest) :
    Yields (readBytes before (bytesOf (escapeChar c) ++ s)) bytes rest := by
  rcases escapeChar_cases c with ⟨letter, heq, hletter, hascii⟩ | ⟨hcontrol, heq⟩
    | ⟨heq, hlow, hquote, hbackslash⟩
  · have hbytes : bytesOf ['\\', letter] = [0x5c, UInt8.ofNat letter.toNat] := by
      rw [Text.bytesOf_cons, Text.bytesOf_cons, Text.utf8EncodeChar_of_lt hascii]
      rfl
    rw [← Text.ofUInt8_ofNat hascii] at hletter
    rw [heq, hbytes]
    exact yields_readBytes_escape (yields_readEscape_short hletter s) h
  · rw [heq, bytesOf_unitEscape _ hcontrol]
    rw [← utf8_toNat] at h
    exact yields_readBytes_escape (yields_readEscape_unit hcontrol s) h
  · rw [heq]
    exact yields_readBytes_append (fun x hx => isPlainByte_of_mem hlow hquote hbackslash hx) h

/-- The characters of a written text are read as their bytes, up to the quote after them. -/
theorem yields_readBytes (cs : List Char) (before s : List UInt8) :
    Yields (readBytes before (bytesOf (cs.flatMap escapeChar) ++ 0x22 :: s))
      (before.reverse ++ bytesOf cs) s := by
  -- the reader keeps the bytes that it has gathered in reverse
  induction cs generalizing before with
  | nil =>
    rw [List.flatMap_nil, Text.bytesOf_nil, List.nil_append, List.append_nil, readBytes,
      if_pos (by decide)]
    exact ⟨_, rfl, rfl, rfl⟩
  | cons c cs ih =>
    rw [List.flatMap_cons, Text.bytesOf_append, List.append_assoc]
    apply yields_readBytes_escapeChar c
    have h := ih ((bytesOf [c]).reverse ++ before)
    rwa [List.reverse_append, List.reverse_reverse, List.append_assoc, ← Text.bytesOf_append] at h

/-- A text is read back from its escapes. -/
theorem yields_readText (text : String) (s : List UInt8) :
    Yields (readText (bytesOf (text.toList.flatMap escapeChar) ++ 0x22 :: s)) text s := by
  obtain ⟨t, ht, hvalue, hrest⟩ := yields_readBytes text.toList [] s
  rw [List.reverse_nil, List.nil_append] at hvalue
  refine ⟨t.map fun _ => text, bind_eq_ok_iff.2 ⟨t, ht, ?_⟩, rfl, hrest⟩
  rw [hvalue, Text.ofUtf8?_bytesOf]
  rfl

/-- A text is written between quotes. -/
theorem bytesOf_textLiteral (text : String) (s : List UInt8) :
    bytesOf (textLiteral text) ++ s
      = 0x22 :: (bytesOf (text.toList.flatMap escapeChar) ++ 0x22 :: s) := by
  rw [textLiteral, Text.bytesOf_append, List.append_assoc]
  rfl

/-- A written text is read. -/
theorem yields_text (expected text : String) (s : List UInt8) :
    Yields (Reader.text expected (bytesOf (textLiteral text) ++ s)) text s := by
  obtain ⟨p, hp, hchar, hrest, -⟩ := exists_peek? (bytesOf_textLiteral text s) rfl
  rw [Reader.text, hp]
  dsimp only
  rw [if_pos (hchar.trans (by decide))]
  have h := yields_readText text s
  rw [← hrest] at h
  exact h.map (fun _ => id) fun _ => rfl

end EnumNames.Json
