import EnumNames.Proofs.Code.Item
import EnumNames.Proofs.Code.ReadExpression
import EnumNames.Proofs.Layout

/-!
# Reading the declarations of a table back

The text that declares an array of offsets is read as this array, at whatever depth it stands. The
elements are read one by one up to the closing bracket, and they are as many as the text declares.
The text that declares a blob is read as this blob.

* `readList_valuesLexemes`: numbers with commas between them.
* `readItem_offsets`: the lexemes of the declaration, whatever follows.
* `read?_offsets`, `read?_blobSteps`: the whole texts.
* `readBehind?_offsets`: the text behind the name, whatever the name is.
-/

namespace EnumNames.Code

open Layout Target

variable {values : List Nat}

/-! ## Elements -/

theorem valuesLexemes_cons_cons (n m : Nat) (ns : List Nat) :
    valuesLexemes (n :: m :: ns)
      = .number n "" :: .sign .comma false :: valuesLexemes (m :: ns) :=
  rfl

/-- Numbers with commas between them are read up to the bracket that closes them. -/
theorem readList_valuesLexemes (values : List Nat) (ts : List Lexeme) :
    readList readNat? (valuesLexemes values ++ .closing .square :: ts) = some (values, ts) := by
  induction values with
  | nil =>
    show readList readNat? (.closing .square :: ts) = _
    rw [readList]
  | cons n ns ih =>
    -- the last number stands before the bracket, every other one before a comma
    cases ns with
    | nil =>
      show readList readNat? (.number n "" :: .closing .square :: ts) = _
      rw [readList]
      · rfl
      · simp
    | cons m ns =>
      have hshorter : (valuesLexemes (m :: ns) ++ .closing .square :: ts).length
          < (Lexeme.number n "" :: .sign .comma false
            :: (valuesLexemes (m :: ns) ++ .closing .square :: ts)).length := by
        rw [List.length_cons, List.length_cons]
        omega
      rw [valuesLexemes_cons_cons]
      show readList readNat? (.number n "" :: .sign .comma false
        :: (valuesLexemes (m :: ns) ++ .closing .square :: ts)) = _
      rw [readList]
      · show (shorter? _ _).bind _ = _
        rw [shorter?_eq_some hshorter, Option.bind_some]
        simp only [ih]
        rfl
      · simp

/-- A width is found by its name. -/
theorem widthNamed?_name (width : IndexWidth) : widthNamed? width.name = some width := by
  cases width <;> rfl

/-- The elements of an array are read if they are as many as declared. -/
theorem readElements_offsets (name : String) (width : IndexWidth) (hvalues : values ≠ [])
    (ts : List Lexeme) :
    readElements name width.name values.length
        (valuesLexemes values ++ .closing .square :: .sign .semi false :: ts)
      = some (.offsets name width values, ts) := by
  have hread := readList_valuesLexemes values (.sign .semi false :: ts)
  obtain ⟨n, ns, rfl⟩ := List.exists_cons_of_ne_nil hvalues
  -- a number comes first, so these are offsets and no constants
  unfold readElements
  rw [widthNamed?_name]
  show (readList readNat? (valuesLexemes (n :: ns) ++ _)).bind _ = _
  rw [hread, Option.bind_some]
  show (pass? [.sign .semi false] ([.sign .semi false] ++ ts)).bind _ = _
  rw [pass?_append, Option.bind_some]
  exact if_pos rfl

/-! ## Declarations -/

theorem passAllowance_static (ts : List Lexeme) :
    passAllowance (.keyword .staticKw :: ts) = .keyword .staticKw :: ts :=
  rfl

/-- The declaration of an array of offsets is read behind its keyword and its name. -/
theorem readItem_static (name : String) (width : IndexWidth) (hvalues : values ≠ [])
    (ts : List Lexeme) :
    readItem (.keyword .staticKw :: .word name :: (offsetsLexemes width values ++ ts))
      = some (.offsets name width values, ts) := by
  have hlexemes : offsetsLexemes width values ++ ts
      = .sign .colon false :: .opening .square :: .word width.name :: .sign .semi false
        :: .number values.length "" :: ([.closing .square, .sign .eq false, .opening .square]
          ++ (valuesLexemes values ++ .closing .square :: .sign .semi false :: ts)) := by
    simp [offsetsLexemes]
  rw [hlexemes, readItem, passAllowance_static]
  show (readNat? (.number values.length "" :: _)).bind _ = _
  rw [readNat?_number, Option.bind_some]
  show (pass? _ _).bind _ = _
  rw [pass?_append, Option.bind_some]
  exact readElements_offsets name width hvalues ts

/-- An attribute that only silences the compiler is passed before a declaration. -/
theorem readItem_allowance (lint : String) (ts : List Lexeme) :
    readItem (allowance lint ++ .keyword .staticKw :: ts) = readItem (.keyword .staticKw :: ts) := by
  have hpass : passAllowance (allowance lint ++ .keyword .staticKw :: ts)
      = .keyword .staticKw :: ts := rfl
  rw [readItem, readItem, hpass, passAllowance_static]

/-- The lexemes of an array of offsets are read as this array. -/
theorem readItem_offsets (name : String) (width : IndexWidth) (hvalues : values ≠ [])
    (ts : List Lexeme) :
    readItem ((Item.offsets name width values).lexemes ++ ts)
      = some (.offsets name width values, ts) := by
  have hlexemes : (Item.offsets name width values).lexemes ++ ts
      = allowance "non_upper_case_globals"
        ++ .keyword .staticKw :: .word name :: (offsetsLexemes width values ++ ts) := rfl
  rw [hlexemes, readItem_allowance, readItem_static name width hvalues]

/-- The lexemes of a blob are read as this blob. -/
theorem readItem_blob (name s : String) (ts : List Lexeme) :
    readItem ((Item.blob name s).lexemes ++ ts) = some (.blob name s, ts) := by
  have hpass : passAllowance ((Item.blob name s).lexemes ++ ts)
      = .keyword .constKw :: .word name :: .sign .colon false :: .sign .amp false :: .word "str"
        :: .sign .eq false :: .text s :: .sign .semi false :: ts := rfl
  rw [readItem, hpass]
  exact if_pos rfl

/-! ## Texts -/

/-- A text with one item and nothing behind it. -/
theorem readItems_eq_singleton {ls : List Lexeme} {item : Item} (h : readItem ls = some (item, [])) :
    readItems ls = some [item] := by
  cases ls with
  | nil =>
    rw [readItem] at h
    contradiction
  | cons l ls =>
    have hnil : readItems [] = some [] := by
      rw [readItems]
      rfl
    have hshorter : ([] : List Lexeme).length < (l :: ls).length := Nat.succ_pos _
    rw [readItems, if_neg (by simp), h]
    simp only [shorter?_eq_some hshorter, hnil, Option.bind_eq_bind, Option.bind_some]
    rfl

/-- At every depth, the text that steps add is cut into their lexemes. -/
theorem LexesTo.lexemes?_textAt {steps : List Step} {ls : List Lexeme} (h : LexesTo steps ls)
    (depth : Nat) : lexemes? (textAt depth steps).toList = some ls := by
  obtain ⟨cs, hcs, hcut⟩ := h ⟨"", depth⟩
  have hcut := hcut []
  rw [foldl_apply, String.empty_append] at hcs
  rw [List.append_nil] at hcut
  have htext : (textAt depth steps).toList = cs := hcs
  rw [htext, hcut.lexemes?_eq, lexemes?_nil, Option.map_some, List.append_nil]

/-- The text of an array of offsets is read as this array. -/
theorem read?_offsets {name : String} (hname : isPlainIdentifier name) (width : IndexWidth)
    (hvalues : values ≠ []) (depth : Nat) :
    read? (textAt depth (Item.offsets name width values).steps)
      = some [.offsets name width values] := by
  have hread := readItem_offsets name width hvalues []
  rw [List.append_nil] at hread
  rw [read?, (lexesTo_offsets hname width hvalues).lexemes?_textAt]
  exact readItems_eq_singleton hread

/-- However the text of a blob is written, its declaration is read as this blob. -/
theorem read?_blobSteps {name : String} (hname : isPlainIdentifier name) {s : String}
    {inside : List Char} (h : Text.Written s.toList inside) (depth : Nat) :
    read? (textAt depth (blobSteps name inside)) = some [.blob name s] := by
  have hread := readItem_blob name s []
  rw [List.append_nil] at hread
  rw [read?, (lexesTo_blobSteps hname h).lexemes?_textAt]
  exact readItems_eq_singleton hread

/-- The array that a text declares whose name, taken as one word, stands before the text. -/
def readBehind? (name text : String) : Option Item := do
  let (item, rest) ← readItem (.keyword .staticKw :: .word name :: (← lexemes? text.toList))
  if rest.isEmpty then some item else none

/-- Behind the name, whatever it is, the text of an array of offsets is read as this array. -/
theorem readBehind?_offsets (name : String) (width : IndexWidth) (hvalues : values ≠ []) :
    readBehind? name (offsetsText width values ++ "\n") = some (.offsets name width values) := by
  have hcut := (isLine_offsetsText width hvalues).lineLexesTo []
  have hread := readItem_static name width hvalues []
  rw [piecesLexemes_offsetsPieces] at hcut
  have hlexemes : lexemes? (offsetsText width values ++ "\n").toList
      = some (offsetsLexemes width values) := by
    rw [String.toList_append]
    show lexemes? ((offsetsText width values).toList ++ ['\n']) = _
    rw [hcut.lexemes?_eq, lexemes?_nil, Option.map_some, List.append_nil]
  rw [List.append_nil] at hread
  rw [readBehind?, hlexemes]
  show (readItem (.keyword .staticKw :: .word name :: offsetsLexemes width values)).bind _ = _
  rw [hread]
  rfl

/-- The name of an array of offsets stands in the text as it is. -/
theorem textAt_offsets (name : String) (width : IndexWidth) (values : List Nat) (depth : Nat) :
    textAt depth (Item.offsets name width values).steps
      = lineText depth "#[allow(non_upper_case_globals)]" ++ margin depth ++ "static " ++ name
        ++ (offsetsText width values ++ "\n") := by
  have hline : lineText depth ("static " ++ name ++ offsetsText width values)
      = margin depth ++ ("static " ++ name ++ offsetsText width values) ++ "\n" := by
    rw [lineText, if_neg (by simp)]
  rw [steps_offsets, globalAttribute]
  show lineText depth "#[allow(non_upper_case_globals)]" ++ (lineText depth _ ++ "") = _
  rw [hline]
  simp only [String.append_empty, String.append_assoc]

end EnumNames.Code
