import EnumNames.Proofs.Code.ReadItem
import EnumNames.Proofs.NameTable
import EnumNames.Proofs.Text.Utf8

/-!
# What a text between quotes denotes

A text that is emitted between quotes is one token, and it stands for the text that was written. It
does not matter which of its characters are written as escapes, as long as those are that would end
the token, begin an escape or break the line. So a blob keeps its bytes, and the offsets of its names
stay valid.

* `Denotes`: what is asked of the characters between the quotes.
* `denotes_of_written`: every way of writing a text denotes it.
* `NameTable.reread?`: a table with the blob that is read back from emitted text.
* `quoted_denotes`: the token, the declaration of a blob and the names that are cut out of it.
-/

namespace EnumNames

open Layout Target Text

/-- A table with the blob that characters between quotes stand for, and with its offsets as they
are. -/
def NameTable.reread? (t : NameTable) (inside : List Char) : Option NameTable :=
  (decode inside).map fun cs => ⟨String.ofList cs, t.offsets⟩

namespace Code

variable {s : String} {inside : List Char}

/-- What is asked of the characters between the quotes of a text. -/
structure Denotes (inside : List Char) (s : String) : Prop where
  /-- A quote among them follows a backslash, and no escape before this backslash is incomplete. -/
  backslash_of_quote : ∀ front back, inside = front ++ '"' :: back →
    ∃ front', front = front' ++ ['\\'] ∧ (decode front').isSome
  lineFeed_notMem : '\n' ∉ inside
  return_notMem : '\r' ∉ inside
  decode_eq : decode inside = some s.toList
  bytes_eq : (decode inside).map bytesOf = some s.toUTF8.toList
  /-- The quotes make one token of them, before anything that is not joined to it. -/
  element?_eq : ∀ rest, isApart rest →
    element? ('"' :: inside ++ '"' :: rest) = some ([.literal .text], rest)
  /-- The token stands for the text. -/
  lexemes?_eq : ∀ rest, isApart rest →
    lexemes? ('"' :: inside ++ '"' :: rest) = (lexemes? rest).map (.text s :: ·)

/-- A literal is one lexeme, which holds the text that is written. -/
theorem lexemes?_written (h : Written s.toList inside) {rest : List Char} (hrest : isApart rest) :
    lexemes? ('"' :: inside ++ '"' :: rest) = (lexemes? rest).map (.text s :: ·) := by
  have hcut := cut_written h hrest
  rw [String.ofList_toList] at hcut
  rw [hcut.lexemes?_eq]
  rfl

/-- However it is written, a text is denoted by what stands between the quotes. -/
theorem denotes_of_written (h : Written s.toList inside) : Denotes inside s where
  backslash_of_quote _ _ heq := h.backslash_of_quote heq
  lineFeed_notMem := h.notMem (by decide)
  return_notMem := h.notMem (by decide)
  decode_eq := h.decode_eq
  bytes_eq := by rw [h.decode_eq, Option.map_some, toList_toUTF8]
  element?_eq _ hrest := element?_written h hrest
  lexemes?_eq _ hrest := lexemes?_written h hrest

/-- A table is read back from its literal with the same offsets. -/
theorem reread?_written {t : NameTable} (h : Written t.blob.toList inside) :
    t.reread? inside = some t := by
  rw [NameTable.reread?, h.decode_eq, Option.map_some, String.ofList_toList]

/-- The text that is emitted for `s` stands between quotes, in one of the ways of writing it, and so
it does where a blob is declared. In whichever of these ways it is written, it is one token that
denotes `s`, and the declaration is read back as the blob `s`. If `s` is the blob of a table, every
offset is valid in what is read back, and every name is cut out of it. -/
theorem quoted_denotes (s : String) :
    (∃ inside, (quoted s).toList = '"' :: inside ++ ['"'] ∧ Written s.toList inside
        ∧ ∀ name, (Item.blob name s).steps = blobSteps name inside)
      ∧ ∀ inside, Written s.toList inside →
          Denotes inside s
            ∧ (∀ name depth, isPlainIdentifier name →
                read? (textAt depth (blobSteps name inside)) = some [.blob name s])
            ∧ ∀ names, (NameTable.ofNames names).blob = s →
                ∃ t, (NameTable.ofNames names).reread? inside = some t ∧ t.Indexes names
                  ∧ ∀ i, t.get? i = names[i]? := by
  refine ⟨⟨encode s.toList, toList_quoted s, written_encode s.toList, fun name => steps_blob name s⟩,
    fun inside h => ⟨denotes_of_written h, fun name depth hname => read?_blobSteps hname h depth, ?_⟩⟩
  rintro names rfl
  exact ⟨_, reread?_written h, NameTable.indexes_ofNames names, NameTable.get?_ofNames names⟩

/-- A text in which a digit follows a zero character, a letter follows a backslash and a quote comes
last. -/
def mixedText : String := "\x000\\né\""

/-- The text with codes for the zero character and for the letter, one with digits more than it needs
and one with a capital letter. -/
def mixedInside : List Char := "\\u\x7b0000\x7d0\\\\\\u\x7b6E\x7dé\\\"".toList

/-- A text with a null character, quotes, a backslash and letters of two bytes. -/
theorem quoted_denotes_mixedText :
    Denotes mixedInside mixedText
      ∧ read? (textAt 0 (blobSteps "_Mixed_name" mixedInside)) = some [.blob "_Mixed_name" mixedText]
      ∧ ∃ t, (NameTable.ofNames ["\x000\\", "né", "", "\""]).reread? mixedInside = some t
        ∧ t.get? 1 = some "né" := by
  have hzero : hexValue? '0' = some 0 := by decide
  have hsix : hexValue? '6' = some 6 := by decide
  have hfourteen : hexValue? 'E' = some 14 := by decide
  have hnul : IsHexCode ['0', '0', '0', '0'] (Char.ofNat 0).toNat :=
    ⟨by simp [hzero], by decide, by decide, by decide⟩
  have hletter : IsHexCode ['6', 'E'] 'n'.toNat :=
    ⟨by simp [hsix, hfourteen], by decide, by decide, by decide⟩
  have hquote : WrittenChar '"' ['\\', '"'] := .letter (by decide)
  have hbackslash : WrittenChar '\\' ['\\', '\\'] := .letter (by decide)
  have hwritten : Written mixedText.toList mixedInside :=
    .cons (.code hnul) (.cons (.plain (by decide)) (.cons hbackslash (.cons (.code hletter)
      (.cons (.plain (by decide)) (.cons hquote .nil)))))
  obtain ⟨hdenotes, hread, htable⟩ := (quoted_denotes mixedText).2 mixedInside hwritten
  obtain ⟨t, ht, -, hget⟩ := htable ["\x000\\", "né", "", "\""] (by decide)
  exact ⟨hdenotes, hread "_Mixed_name" 0 (by decide), t, ht, hget 1⟩

end Code

end EnumNames
