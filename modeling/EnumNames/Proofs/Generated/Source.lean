import EnumNames.Generated.File
import EnumNames.Proofs.Syntax.Item

/-!
# The source of a generated file

The text of a file is the texts of its outcomes after the header. A header without line breaks is
blank to all readers of the source, so what is read is what the outcomes hold.

* `Reads`: a text is read as a row of items.
* `reads_header`: a header is read as nothing.
* `Reads.isSourceFile` and `Reads.scan?_eq`: what the syntax check makes of readable items.
-/

namespace EnumNames

open Code Target Text

variable {s s' : String} {items items' : List Item}

/-- Wherever it stands, the text is cut into the lexemes of the items, all of which are readable. -/
structure Reads (s : String) (items : List Item) : Prop where
  isReadable : ∀ item ∈ items, item.IsReadable
  cut : ∀ rest, Cut (s.toList ++ rest) (items.flatMap Item.lexemes) rest

theorem reads_empty : Reads "" [] :=
  ⟨by simp, fun rest => .nil rest⟩

/-- Texts that are read one after the other are read as one. -/
theorem Reads.append (h : Reads s items) (h' : Reads s' items') :
    Reads (s ++ s') (items ++ items') := by
  refine ⟨fun item hitem => ?_, fun rest => ?_⟩
  · rcases List.mem_append.1 hitem with hitem | hitem
    · exact h.isReadable item hitem
    · exact h'.isReadable item hitem
  · rw [String.toList_append, List.append_assoc, List.flatMap_append]
    exact (h.cut _).trans (h'.cut rest)

theorem reads_lineFeed : Reads "\n" [] :=
  ⟨by simp, fun rest => .gap rfl (.nil rest)⟩

/-- A text of readable items is read as these items. -/
theorem reads_itemsText (h : ∀ item ∈ items, item.IsReadable) : Reads (itemsText items) items :=
  ⟨h, cut_itemsText h⟩

/-- A comment on a line of its own. -/
theorem reads_comment (h : '\n' ∉ s.toList) : Reads ("// " ++ s ++ "\n") [] := by
  refine ⟨by simp, fun rest => ?_⟩
  have hline := lineLexesTo_comment h rest
  rw [String.toList_append, List.append_assoc]
  exact hline

/-- Texts in a row are read as their items in a row. -/
theorem reads_join {texts : List String} {parts : List (List Item)}
    (h : List.Forall₂ Reads texts parts) : Reads (String.join texts) parts.flatten := by
  induction h with
  | nil => exact reads_empty
  | cons hfirst _ ih =>
    rw [String.join_cons, List.flatten_cons]
    exact hfirst.append ih

/-! ## The header -/

/-- Trimming adds no characters. -/
theorem mem_of_mem_trim {c : Char} (h : c ∈ (trim s).toList) : c ∈ s.toList := by
  obtain ⟨front, back, htrim, -⟩ := exists_eq_trimChars s.toList
  rw [trim, String.toList_ofList] at h
  rw [htrim]
  exact List.mem_append_left back (List.mem_append_right front h)

namespace Header

/-- The parts of a header that are taken from outside hold no line break. -/
structure IsOneLine (h : Header) : Prop where
  arguments : '\n' ∉ (trim h.arguments).toList
  digest : ∀ digest ∈ h.digest, '\n' ∉ digest.toList

/-- The first line of a header has no line break in it. -/
theorem lineFeed_notMem_command {h : Header} (hline : h.IsOneLine) : '\n' ∉ h.command.toList := by
  rw [command]
  split
  · decide
  · rw [String.toList_append, List.mem_append, not_or]
    exact ⟨by decide, hline.arguments⟩

end Header

/-- The first line of a header. -/
theorem reads_commandLine {command : String} (h : '\n' ∉ command.toList) :
    Reads ("// Code generated by \"" ++ command ++ "\"; DO NOT EDIT.\n") [] := by
  have hcomment : '\n' ∉ ("Code generated by \"" ++ command ++ "\"; DO NOT EDIT.").toList := by
    simp [h]
  have hbefore : "// Code generated by \"" = "// " ++ "Code generated by \"" := by decide
  have hafter : "\"; DO NOT EDIT.\n" = "\"; DO NOT EDIT." ++ "\n" := by decide
  have htext : "// Code generated by \"" ++ command ++ "\"; DO NOT EDIT.\n"
      = "// " ++ ("Code generated by \"" ++ command ++ "\"; DO NOT EDIT.") ++ "\n" := by
    rw [hbefore, hafter]
    simp only [String.append_assoc]
  rw [htext]
  exact reads_comment hcomment

/-- The line with the digest is a comment. -/
theorem reads_digestLine {digest : String} (h : '\n' ∉ digest.toList) :
    Reads ("// Input sha256: " ++ digest ++ "\n") [] := by
  have hcomment : '\n' ∉ ("Input sha256: " ++ digest).toList := by
    simp [h]
  have hbefore : "// Input sha256: " = "// " ++ "Input sha256: " := by decide
  have htext : "// Input sha256: " ++ digest ++ "\n" = "// " ++ ("Input sha256: " ++ digest) ++ "\n" := by
    rw [hbefore]
    simp only [String.append_assoc]
  rw [htext]
  exact reads_comment hcomment

/-- Whatever it says on its lines, a header is read as nothing. -/
theorem reads_header {h : Header} (hline : h.IsOneLine) : Reads h.text [] := by
  have hcommand := reads_commandLine (Header.lineFeed_notMem_command hline)
  obtain ⟨arguments, digest⟩ := h
  cases digest with
  | none => exact hcommand.append reads_empty
  | some digest => exact hcommand.append (reads_digestLine (hline.digest digest rfl))

/-! ## The syntax check -/

/-- A source begins with its header, which is a comment. -/
theorem exists_toList_header (h : Header) (body : String) :
    ∃ cs, (h.text ++ body).toList = '/' :: '/' :: cs := by
  have hbegin : "// Code generated by \"" = "//" ++ " Code generated by \"" := by decide
  have hslashes : "//".toList = ['/', '/'] := rfl
  unfold Header.text
  rw [hbegin]
  simp only [String.toList_append, hslashes, List.append_assoc]
  exact ⟨_, rfl⟩

/-- A file with a header is checked from its first character on, with no mark to drop. -/
theorem isSourceFile_header (h : Header) (body : String) :
    isSourceFile (h.text ++ body) = match scanFrom [] (h.text ++ body).toList with
      | some tokens => accepts tokens
      | none => false := by
  obtain ⟨cs, hcs⟩ := exists_toList_header h body
  rw [isSourceFile, hcs]
  rfl

/-- A file with a header is scanned from its first character on, with no mark to drop. -/
theorem scan?_header (h : Header) (body : String) :
    scan? (h.text ++ body) = scanFrom [] (h.text ++ body).toList := by
  obtain ⟨cs, hcs⟩ := exists_toList_header h body
  rw [scan?, hcs]
  rfl

/-- A header adds nothing to what is scanned. -/
theorem scanFrom_header {h : Header} (hline : h.IsOneLine) (body : String) :
    scanFrom [] (h.text ++ body).toList = scanFrom [] body.toList := by
  have hcut := (reads_header hline).cut body.toList
  rw [String.toList_append, hcut.scanFrom_eq]
  rfl

/-- A text that is read as items has their tokens. -/
theorem Reads.scanFrom_eq (h : Reads s items) :
    scanFrom [] s.toList = some (itemsTokens items) := by
  have hcut := h.cut []
  rw [List.append_nil] at hcut
  rw [hcut.scanFrom_eq, scanFrom, itemsTokens]
  simp

end EnumNames
