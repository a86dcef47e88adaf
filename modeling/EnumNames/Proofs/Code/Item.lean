import EnumNames.Proofs.Code.FunctionName
import EnumNames.Proofs.Code.Statement

/-!
# Lexemes of items

* `Item.IsReadable`: an item whose text is not read as another one.
* `Item.lexemes`: the lexemes of an item; comments and empty lines in its body have none.
* `cut_itemsText`: a text of items is cut into the lexemes of the items.
-/

namespace EnumNames.Code

open Layout Target Text

/-! ## Readable items -/

/-- The statements that are more than comments and empty lines. -/
def codeOf (body : List Stmt) : List Stmt :=
  body.filter Stmt.isCode

/-- The bodies of functions whose texts are not read as other ones. Comments may stand between their
statements. -/
structure BodyReadable (body : List Stmt) : Prop where
  comment : ∀ s, Stmt.comment s ∈ body → '\n' ∉ s.toList
  code : blockReadable (codeOf body)

/-- The assertions that compare the constant behind a path with a decimal number. -/
def Assertion.IsReadable (a : Assertion) : Prop :=
  isPath a.reference ∧ ∃ n : Int, a.operand = .literal (toString n)

/-- The items whose texts are not read as other ones. -/
def Item.IsReadable : Item → Prop
  | blank => True
  | blob name _ => isPlainIdentifier name
  | offsets name _ values => isPlainIdentifier name ∧ values ≠ []
  | constants name typeName references =>
    isPlainIdentifier name ∧ isPlainIdentifier typeName ∧ ∀ reference ∈ references, isPath reference
  | guard assertions => ∀ a ∈ assertions, a.IsReadable
  | display typeName body => isPlainIdentifier typeName ∧ BodyReadable body
  | lookup name typeName body =>
    IsFunctionName name ∧ isPlainIdentifier typeName ∧ BodyReadable body

/-! ## Lexemes -/

/-- The lexemes of a declaration of an array, up to its elements. -/
def arrayHead (name typeName : String) (length : Nat) : List Lexeme :=
  [.keyword .staticKw, .word name, .sign .colon false, .opening .square, .word typeName,
    .sign .semi false, .number length "", .closing .square, .sign .eq false, .opening .square]

/-- Numbers with commas between them. -/
def valuesLexemes : List Nat → List Lexeme
  | [] => []
  | n :: ns => .number n "" :: ns.flatMap fun m => [.sign .comma false, .number m ""]

/-- The lexemes of an element of an array of constants. -/
def referenceLexemes (reference : String) : List Lexeme :=
  pathLexemes reference ++ [.sign .comma false]

/-- The lexemes of an assertion. -/
def Assertion.lexemes (a : Assertion) : List Lexeme :=
  [.word "assert", .sign .bang false, .opening .paren] ++ pathLexemes a.reference
    ++ [.sign .dot false, .number 0 "", .sign .minus false]
    ++ (lexemes? a.operand.text.toList).getD []
    ++ [.sign .eq true, .sign .eq false, .number 0 "", .closing .paren, .sign .semi false]

/-- The lexemes of an item. -/
def Item.lexemes : Item → List Lexeme
  | blank => []
  | blob name s =>
    allowance "non_upper_case_globals" ++ [.keyword .constKw, .word name, .sign .colon false,
      .sign .amp false, .word "str", .sign .eq false, .text s, .sign .semi false]
  | offsets name width values =>
    allowance "non_upper_case_globals" ++ (arrayHead name width.name values.length
      ++ valuesLexemes values ++ [.closing .square, .sign .semi false])
  | constants name typeName references =>
    allowance "non_upper_case_globals" ++ arrayHead name typeName references.length
      ++ references.flatMap referenceLexemes ++ [.closing .square, .sign .semi false]
  | guard assertions =>
    guardHead ++ assertions.flatMap Assertion.lexemes ++ [.closing .brace, .sign .semi false]
  | display typeName body =>
    displayHead ++ [.word typeName] ++ displayMethod ++ blockLexemes (codeOf body)
      ++ [.closing .brace, .closing .brace]
  | lookup name typeName body =>
    allowance "non_snake_case" ++ [.keyword .pubKw, .keyword .fnKw, .word (identifierOf name)]
      ++ lookupParameters ++ [.word typeName, .sign .greater false, .opening .brace]
      ++ blockLexemes (codeOf body) ++ [.closing .brace]

/-! ## Bodies -/

theorem codeOf_cons_of_isCode {s : Stmt} (h : s.isCode) (body : List Stmt) :
    codeOf (s :: body) = s :: codeOf body :=
  List.filter_cons_of_pos h

/-- A body has the lexemes of its code; comments and empty lines add none. -/
theorem lexesTo_body {body : List Stmt} (h : BodyReadable body) :
    LexesTo (blockSteps body) (blockLexemes (codeOf body)) := by
  obtain ⟨hcomment, hcode⟩ := h
  induction body with
  | nil => exact LexesTo.nil
  | cons s body ih =>
    have hrest : ∀ s, Stmt.comment s ∈ body → '\n' ∉ s.toList :=
      fun s hs => hcomment s (List.mem_cons_of_mem _ hs)
    cases hs : s.isCode with
    | true =>
      rw [codeOf_cons_of_isCode hs] at hcode ⊢
      rw [blockReadable] at hcode
      exact (Stmt.lexesTo_steps s hcode.1).append (ih hrest hcode.2.2)
    | false =>
      have hdrop : codeOf (s :: body) = codeOf body :=
        List.filter_cons_of_neg (Bool.not_eq_true _ ▸ hs)
      rw [hdrop] at hcode ⊢
      have hnone : LexesTo s.steps [] := by
        cases s with
        | comment s => exact lexesTo_comment (hcomment s List.mem_cons_self)
        | blank => exact lexesTo_blank
        | _ => exact absurd hs (by simp [Stmt.isCode])
      exact hnone.append (ih hrest hcode)

/-! ## Declarations -/

section Declarations

variable {name typeName : String}

/-- An attribute that silences a lint has the lexemes of an attribute. -/
theorem lexesTo_allowance (hname : isPlainIdentifier name) {s : String}
    (hs : s = "#[allow(" ++ name ++ ")]") : LexesTo [.line s] (allowance name) := by
  have hline : IsLine s
      [.signs [('#', .pound)] false, .opening .square, .name "allow", .opening .paren, .name name,
        .closing .paren, .closing .square] := by
    refine ⟨?_, ?_, of_decide_eq_true rfl⟩
    · simp [hs, piecesChars, Piece.chars, openingChar, closingChar]
    · simp +decide [Piece.IsValid, hname]
  exact hline.lexesTo_line

theorem lexesTo_globalAttribute :
    LexesTo [globalAttribute] (allowance "non_upper_case_globals") := by
  have hlint : isPlainIdentifier "non_upper_case_globals" := by decide
  exact lexesTo_allowance hlint (by decide)

/-- The declaration of a blob, with these characters between the quotes. -/
def blobSteps (name : String) (inside : List Char) : List Step :=
  [globalAttribute,
    .line ("const " ++ name ++ ": &str = " ++ String.ofList ('"' :: inside ++ ['"']) ++ ";")]

/-- The pieces before the text of a blob. -/
def frontPieces (name : String) : List Piece :=
  [.keyword "const" .constKw, .gap, .name name, .colon, .gap, .amp, .name "str", .gap, .set]

theorem steps_blob (name s : String) :
    (Item.blob name s).steps = blobSteps name (encode s.toList) :=
  rfl

/-- However the text of a blob is written, its declaration is cut into the same lexemes. -/
theorem lexesTo_blobSteps (hname : isPlainIdentifier name) {s : String} {inside : List Char}
    (h : Written s.toList inside) : LexesTo (blobSteps name inside) (Item.blob name s).lexemes := by
  have hline : LineLexesTo
      ("const " ++ name ++ ": &str = " ++ String.ofList ('"' :: inside ++ ['"']) ++ ";")
      [.keyword .constKw, .word name, .sign .colon false, .sign .amp false, .word "str",
        .sign .eq false, .text s, .sign .semi false] := by
    intro rest
    have hfront : IsRow (frontPieces name ++ [.gap]) :=
      ⟨by simp +decide [frontPieces, Piece.IsValid, hname], of_decide_eq_true rfl⟩
    have hend : IsRow ([.semi] ++ [.newline]) :=
      ⟨by simp +decide [Piece.IsValid], of_decide_eq_true rfl⟩
    have hcutFront := cut_pieces_gap (.inl rfl) hfront.isValid hfront.isChain
      ('"' :: inside ++ '"' :: ';' :: '\n' :: rest)
    have hcutText : Cut ('"' :: inside ++ '"' :: ';' :: '\n' :: rest)
        [.text (String.ofList s.toList)] (';' :: '\n' :: rest) :=
      cut_written h rfl
    have hcutEnd := cut_pieces_gap (.inr rfl) hend.isValid hend.isChain rest
    have hall := hcutFront.trans (hcutText.trans hcutEnd)
    rw [String.ofList_toList] at hall
    have hchars : ("const " ++ name ++ ": &str = " ++ String.ofList ('"' :: inside ++ ['"'])
          ++ ";").toList ++ '\n' :: rest
        = piecesChars (frontPieces name)
          ++ (Piece.gap.chars ++ ('"' :: inside ++ '"' :: ';' :: '\n' :: rest)) := by
      simp [frontPieces, piecesChars, Piece.chars]
    rw [hchars]
    exact hall
  exact lexesTo_globalAttribute.append hline.lexesTo_line

/-- The pieces of a declaration of an array, up to its name. -/
def staticPieces (name : String) : List Piece :=
  [.keyword "static" .staticKw, .gap, .name name]

/-- The pieces of a declaration of an array behind the name, up to its elements. -/
def arrayTypePieces (typeName : String) (length : Nat) : List Piece :=
  [.colon, .gap, .opening .square, .name typeName, .semi, .gap, .number length "",
    .closing .square, .gap, .set, .gap, .opening .square]

/-- The pieces of a declaration of an array, up to its elements. -/
def arrayPieces (name typeName : String) (length : Nat) : List Piece :=
  staticPieces name ++ arrayTypePieces typeName length

/-- The pieces of numbers with commas between them. -/
def valuesPieces : List Nat → List Piece
  | [] => []
  | n :: ns => .number n "" :: ns.flatMap fun m => [.comma, .gap, .number m ""]

theorem valuesPieces_cons_cons (n m : Nat) (ns : List Nat) :
    valuesPieces (n :: m :: ns) = [.number n "", .comma, .gap] ++ valuesPieces (m :: ns) :=
  rfl

/-- Numbers with commas between them are written with the characters of their pieces. -/
theorem toList_intercalate (values : List Nat) :
    (String.intercalate ", " (values.map toString)).toList = piecesChars (valuesPieces values) := by
  have hnumber : ∀ n : Nat, (toString n).toList = (Piece.number n "").chars := by
    intro n
    simp [Piece.chars]
  induction values with
  | nil => rfl
  | cons n values ih =>
    cases values with
    | nil =>
      show (String.intercalate ", " [toString n]).toList = piecesChars [.number n ""]
      rw [String.intercalate_singleton, hnumber, piecesChars_cons]
      exact (List.append_nil _).symm
    | cons m ns =>
      rw [valuesPieces_cons_cons, piecesChars_append, ← ih]
      simp only [List.map_cons, String.intercalate_cons_cons, String.toList_append, hnumber]
      simp [piecesChars, Piece.chars]

/-- A row of numbers is an operand. -/
theorem isOperand_valuesPieces {values : List Nat} (h : values ≠ []) :
    IsOperand (valuesPieces values) := by
  induction values with
  | nil => exact absurd rfl h
  | cons n values ih =>
    have hnumber : (Piece.number n "").IsValid := by
      show isTypeSuffix "".toList
      decide
    cases values with
    | nil =>
      have hrow : IsRow [.number n ""] := isRow_singleton hnumber
      exact ⟨hrow, by simp [valuesPieces], by simp [valuesPieces, Piece.firstSign?],
        by simp [valuesPieces, Piece.endsOperand]⟩
    | cons m ns =>
      have hrest := ih (by simp)
      have hrow : IsRow [.number n "", .comma, .gap] := by
        refine ⟨?_, of_decide_eq_true rfl⟩
        simp +decide [Piece.IsValid]
      rw [valuesPieces_cons_cons]
      refine ⟨hrow.append hrest.toIsRow fun p hp q _ => ?_, by simp, by simp [Piece.firstSign?], ?_⟩
      · rw [← Option.some.inj hp]
        rfl
      · rw [List.getLast?_append_of_ne_nil _ hrest.ne_nil]
        exact hrest.last

/-- The pieces of a row of numbers have its lexemes. -/
theorem piecesLexemes_valuesPieces (values : List Nat) :
    piecesLexemes (valuesPieces values) = valuesLexemes values := by
  cases values with
  | nil => rfl
  | cons n ns =>
    show [Lexeme.number n ""] ++ (ns.flatMap fun m => [Piece.comma, .gap, .number m ""]).flatMap
      Piece.lexemes = _
    rw [List.flatMap_assoc]
    rfl

/-- A declaration of an array is made up of its pieces. -/
theorem toList_arrayHead (name typeName : String) (length : Nat) :
    ("static " ++ name ++ ": [" ++ typeName ++ "; " ++ toString length ++ "] = [").toList
      = piecesChars (arrayPieces name typeName length) := by
  simp [arrayPieces, staticPieces, arrayTypePieces, piecesChars, Piece.chars, openingChar,
    closingChar]

theorem isRow_arrayTypePieces (htype : isPlainIdentifier typeName) (length : Nat) :
    IsRow (arrayTypePieces typeName length) := by
  rw [arrayTypePieces]
  refine ⟨?_, of_decide_eq_true rfl⟩
  simp +decide [Piece.IsValid, htype]

/-- What follows the name of an array may stand behind it. -/
theorem isRow_staticPieces (hname : isPlainIdentifier name) {ps : List Piece}
    (hps : IsRow (.colon :: ps)) : IsRow (staticPieces name ++ .colon :: ps) := by
  have hbefore : IsRow (staticPieces name) := by
    rw [staticPieces]
    refine ⟨?_, of_decide_eq_true rfl⟩
    simp +decide [Piece.IsValid, hname]
  refine hbefore.append hps fun p hp q hq => ?_
  rw [← Option.some.inj hp, ← Option.some.inj hq]
  rfl

theorem isRow_arrayPieces (hname : isPlainIdentifier name) (htype : isPlainIdentifier typeName)
    (length : Nat) : IsRow (arrayPieces name typeName length) :=
  isRow_staticPieces hname (isRow_arrayTypePieces htype length)

/-- What a declaration of an array of offsets says behind the name. -/
def offsetsText (width : IndexWidth) (values : List Nat) : String :=
  ": [" ++ width.name ++ "; " ++ toString values.length ++ "] = ["
    ++ String.intercalate ", " (values.map toString) ++ "];"

theorem steps_offsets (name : String) (width : IndexWidth) (values : List Nat) :
    (Item.offsets name width values).steps
      = [globalAttribute, .line ("static " ++ name ++ offsetsText width values)] := by
  simp only [Item.steps, offsetsText, String.append_assoc]

/-- The lexemes of an array of offsets behind the name. -/
def offsetsLexemes (width : IndexWidth) (values : List Nat) : List Lexeme :=
  [.sign .colon false, .opening .square, .word width.name, .sign .semi false,
      .number values.length "", .closing .square, .sign .eq false, .opening .square]
    ++ valuesLexemes values ++ [.closing .square, .sign .semi false]

/-- The pieces of an array of offsets behind the name. -/
def offsetsPieces (width : IndexWidth) (values : List Nat) : List Piece :=
  arrayTypePieces width.name values.length ++ valuesPieces values ++ [.closing .square, .semi]

theorem piecesLexemes_offsetsPieces (width : IndexWidth) (values : List Nat) :
    piecesLexemes (offsetsPieces width values) = offsetsLexemes width values := by
  rw [offsetsPieces, piecesLexemes_append, piecesLexemes_append, piecesLexemes_valuesPieces]
  rfl

/-- The offsets of a table stand on one line. -/
theorem isLine_offsetsText (width : IndexWidth) {values : List Nat} (hvalues : values ≠ []) :
    IsLine (offsetsText width values) (offsetsPieces width values) := by
  have hwidth : isPlainIdentifier width.name := by cases width <;> decide
  have hafter : IsRow ([.closing .square, .semi] ++ [.newline]) := by
    refine ⟨?_, of_decide_eq_true rfl⟩
    simp +decide [Piece.IsValid]
  have hrow := (isOperand_valuesPieces hvalues).between
    (isRow_arrayTypePieces hwidth values.length) (by simp [arrayTypePieces, Piece.leads]) hafter
    (by simp +decide)
  rw [← List.append_assoc] at hrow
  refine ⟨?_, hrow⟩
  rw [offsetsPieces, piecesChars_append, piecesChars_append, ← toList_intercalate]
  simp [offsetsText, arrayTypePieces, piecesChars, Piece.chars, openingChar, closingChar]

/-- An array of offsets has the lexemes of its head and its numbers. -/
theorem lexesTo_offsets (hname : isPlainIdentifier name) (width : IndexWidth) {values : List Nat}
    (hvalues : values ≠ []) :
    LexesTo (Item.offsets name width values).steps (Item.offsets name width values).lexemes := by
  have htext := isLine_offsetsText width hvalues
  have hline : IsLine ("static " ++ name ++ offsetsText width values)
      (staticPieces name ++ offsetsPieces width values) := by
    refine ⟨?_, ?_⟩
    · rw [String.toList_append, htext.toList_eq, piecesChars_append]
      simp [staticPieces, piecesChars, Piece.chars]
    · rw [List.append_assoc]
      exact isRow_staticPieces hname htext.isRow
  have h := lexesTo_globalAttribute.append hline.lexesTo_line
  rw [piecesLexemes_append, piecesLexemes_offsetsPieces] at h
  rw [steps_offsets]
  exact h

theorem lexesTo_reference {reference : String} (h : isPath reference) :
    LexesTo [.line (reference ++ ",")] (referenceLexemes reference) := by
  have hrow := (isOperand_pathPieces h).append isRow_comma (by simp +decide)
  rw [← List.append_assoc] at hrow
  have hline : IsLine (reference ++ ",") (pathPieces reference ++ [.comma]) := by
    refine ⟨?_, hrow⟩
    rw [String.toList_append, toList_path h, piecesChars_append]
    rfl
  have hlexemes := hline.lexesTo_line
  rw [piecesLexemes_append] at hlexemes
  exact hlexemes

/-- An array of constants has a line for each of its elements. -/
theorem lexesTo_constants (hname : isPlainIdentifier name) (htype : isPlainIdentifier typeName)
    {references : List String} (h : ∀ reference ∈ references, isPath reference) :
    LexesTo (Item.constants name typeName references).steps
      (Item.constants name typeName references).lexemes := by
  have hhead : IsLine ("static " ++ name ++ ": [" ++ typeName ++ "; "
      ++ toString references.length ++ "] = [") (arrayPieces name typeName references.length) := by
    refine ⟨toList_arrayHead name typeName references.length, ?_⟩
    have hrow := isRow_arrayPieces hname htype references.length
    refine hrow.append (isRow_singleton trivial) fun p hp q hq => ?_
    rw [← Option.some.inj hp, ← Option.some.inj hq]
    rfl
  have hend : IsLine "];" [.closing .square, .semi] := by
    refine ⟨rfl, ?_, of_decide_eq_true rfl⟩
    simp +decide [Piece.IsValid]
  have hlines : LexesTo (references.map fun reference => .line (reference ++ ","))
      (references.flatMap referenceLexemes) :=
    lexesTo_map fun reference hreference => lexesTo_reference (h reference hreference)
  have hdeclaration := lexesTo_globalAttribute.append (hhead.lexesTo_line.append lexesTo_indent)
  have hall := (hdeclaration.append hlines).append (lexesTo_dedent.append hend.lexesTo_line)
  rw [Item.steps, Item.lexemes]
  exact hall

theorem lexesTo_display (htype : isPlainIdentifier typeName) {body : List Stmt}
    (hbody : BodyReadable body) :
    LexesTo (Item.display typeName body).steps (Item.display typeName body).lexemes := by
  have himpl : IsLine ("impl ::core::fmt::Display for " ++ typeName ++ " \x7b")
      [.keyword "impl" .implKw, .gap, .separator, .name "core", .separator, .name "fmt",
        .separator, .name "Display", .gap, .keyword "for" .forKw, .gap, .name typeName, .gap,
        .opening .brace] := by
    refine ⟨?_, ?_, of_decide_eq_true rfl⟩
    · simp [piecesChars, Piece.chars, openingChar]
    · simp +decide [Piece.IsValid, htype]
  have hmethod : IsLine
      ("fn fmt(&self, f: &mut ::core::fmt::Formatter<'_>) -> ::core::fmt::Result" ++ " \x7b")
      [.keyword "fn" .fnKw, .gap, .name "fmt", .opening .paren, .amp, .keyword "self" .selfValue,
        .comma, .gap, .name "f", .colon, .gap, .amp, .keyword "mut" .mutKw, .gap, .separator,
        .name "core", .separator, .name "fmt", .separator, .name "Formatter",
        .signs [('<', .less)] true, .lifetime "_", .signs [('>', .greater)] false,
        .closing .paren, .gap, .signs [('-', .minus), ('>', .greater)] false, .gap, .separator,
        .name "core", .separator, .name "fmt", .separator, .name "Result", .gap,
        .opening .brace] := by
    refine ⟨rfl, ?_, of_decide_eq_true rfl⟩
    simp +decide [Piece.IsValid]
  have hhead := himpl.lexesTo_openBlock.append hmethod.lexesTo_openBlock
  have hall := (hhead.append (lexesTo_body hbody)).append (lexesTo_close.append lexesTo_close)
  rw [Item.steps, Item.lexemes]
  exact hall

/-- The head of a lookup function is cut into its lexemes, whatever stands around its name. -/
theorem lineLexesTo_lookupHead (hname : IsFunctionName name) (htype : isPlainIdentifier typeName) :
    LineLexesTo ("pub fn " ++ name ++ "(name: &str) -> Option<" ++ typeName ++ ">" ++ " \x7b")
      ([.keyword .pubKw, .keyword .fnKw, .word (identifierOf name)] ++ lookupParameters
        ++ [.word typeName, .sign .greater false, .opening .brace]) := by
  have hbefore : IsRow ([.keyword "pub" .pubKw, .gap, .keyword "fn" .fnKw] ++ [.gap]) := by
    refine ⟨?_, of_decide_eq_true rfl⟩
    simp +decide [Piece.IsValid]
  have hparameters : IsLine ("(name: &str) -> Option<" ++ typeName ++ "> \x7b")
      [.opening .paren, .name "name", .colon, .gap, .amp, .name "str", .closing .paren, .gap,
        .signs [('-', .minus), ('>', .greater)] false, .gap, .name "Option",
        .signs [('<', .less)] false, .name typeName, .signs [('>', .greater)] false, .gap,
        .opening .brace] := by
    refine ⟨?_, ?_, of_decide_eq_true rfl⟩
    · simp [piecesChars, Piece.chars, openingChar, closingChar]
    · simp +decide [Piece.IsValid, htype]
  have hopening : ("(name: &str) -> Option<" ++ typeName ++ "> \x7b").toList
      = '(' :: ("name: &str) -> Option<" ++ typeName ++ "> \x7b").toList := by
    simp
  intro rest
  have hafter := hparameters.lineLexesTo rest
  have htext : ("pub fn " ++ name ++ "(name: &str) -> Option<" ++ typeName ++ ">" ++ " \x7b").toList
      ++ '\n' :: rest = piecesChars [.keyword "pub" .pubKw, .gap, .keyword "fn" .fnKw]
        ++ (Piece.gap.chars ++ (name.toList ++ '(' :: (("name: &str) -> Option<" ++ typeName
          ++ "> \x7b").toList ++ '\n' :: rest))) := by
    simp [piecesChars, Piece.chars]
  rw [hopening, List.cons_append] at hafter
  have hcut := (cut_pieces_gap (.inl rfl) hbefore.isValid hbefore.isChain _).trans
    ((hname.cut _).trans hafter)
  rw [htext]
  exact hcut

/-- A function that finds a value is declared by the identifier that its name holds. -/
theorem lexesTo_lookup (hname : IsFunctionName name) (htype : isPlainIdentifier typeName)
    {body : List Stmt} (hbody : BodyReadable body) :
    LexesTo (Item.lookup name typeName body).steps (Item.lookup name typeName body).lexemes := by
  have hlint : isPlainIdentifier "non_snake_case" := by decide
  have hallow := lexesTo_allowance hlint
    (by decide : "#[allow(non_snake_case)]" = "#[allow(" ++ "non_snake_case" ++ ")]")
  have hhead := hallow.append (lineLexesTo_lookupHead hname htype).lexesTo_openBlock
  have hall := (hhead.append (lexesTo_body hbody)).append lexesTo_close
  simp only [List.append_assoc] at hall
  rw [Item.steps, Item.lexemes]
  simp only [List.append_assoc]
  exact hall

end Declarations

/-! ## The guard -/

/-- A decimal ends in front of what does not go on with a number. -/
theorem cut_decimal (n : Nat) {rest : List Char} (hrest : endsNumber rest) :
    Cut (Nat.toDigits 10 n ++ rest) [.number n ""] rest := by
  have hdigits : (Nat.toDigits 10 n).all Char.isDigit := List.all_eq_true.2 mem_toDigits_isDigit
  have hsuffix : isTypeSuffix "".toList := rfl
  have hnumber := element?_decimal hdigits Nat.toDigits_ne_nil hsuffix hrest
  rw [token_decimal] at hnumber
  have hliteral := literal?_decimal n hsuffix
  rw [String.toList_empty, List.append_nil] at hliteral
  exact cut_singleton _ hnumber hliteral

/-- A number in decimal is cut into its sign and its digits, also at the end of a text. -/
theorem cut_int (n : Int) {rest : List Char} (hrest : endsNumber rest) :
    Cut ((toString n).toList ++ rest) (intLexemes n) rest := by
  have htext : (toString n).toList = piecesChars (intPieces n) := toList_repr_int n
  have hnumber := cut_decimal n.natAbs hrest
  rw [htext, intPieces, intLexemes]
  split
  · have hminus : Piece.IsValid (.signs [('-', .minus)] false) := by
      show areSigns [('-', .minus)]
      decide
    have hdigits : Piece.IsValid (.number n.natAbs "") := by
      show isTypeSuffix "".toList
      decide
    have hsign := cut_piece hminus hdigits rfl rest
    simpa [piecesChars, Piece.chars, Piece.lexemes, signLexemes] using hsign.trans
      (by simpa [Piece.chars] using hnumber)
  · simpa [piecesChars, Piece.chars] using hnumber

/-- An integer alone has its lexemes. -/
theorem lexemes?_int (n : Int) : lexemes? (toString n).toList = some (intLexemes n) := by
  have hcut := cut_int n (rfl : endsNumber [] = true)
  rw [List.append_nil] at hcut
  rw [hcut.lexemes?_eq, lexemes?_nil, Option.map_some, List.append_nil]

/-- The pieces of an assertion, up to the number that it compares with. -/
def assertionHead (reference : String) : List Piece :=
  [.name "assert", .signs [('!', .bang)] false, .opening .paren] ++ pathPieces reference
    ++ [.dot, .number 0 "", .gap, .signs [('-', .minus)] false, .gap]

/-- The pieces of an assertion after that number. -/
def assertionTail : List Piece :=
  [.gap, .signs [('=', .eq), ('=', .eq)] false, .gap, .number 0 "", .closing .paren, .semi]

theorem isRow_assertionHead {reference : String} (h : isPath reference) :
    IsRow (assertionHead reference) := by
  have hbefore : IsRow [.name "assert", .signs [('!', .bang)] false, .opening .paren] := by
    refine ⟨?_, of_decide_eq_true rfl⟩
    simp +decide [Piece.IsValid]
  have hafter : IsRow [.dot, .number 0 "", .gap, .signs [('-', .minus)] false, .gap] := by
    refine ⟨?_, of_decide_eq_true rfl⟩
    simp +decide [Piece.IsValid]
  have hpath := isOperand_pathPieces h
  -- a point may not stand after every operand, but it may after a name
  have hfield : IsRow (pathPieces reference
      ++ [.dot, .number 0 "", .gap, .signs [('-', .minus)] false, .gap]) := by
    refine hpath.toIsRow.append hafter fun p hp q hq => ?_
    have hname := endsPath_pathPieces reference p hp
    rw [← Option.some.inj hq]
    cases p with
    | name _ | keyword _ _ => rfl
    | _ => exact absurd hname (by simp [Piece.endsPath])
  rw [assertionHead, List.append_assoc]
  refine hbefore.append hfield ?_
  rw [List.head?_append_of_ne_nil _ hpath.ne_nil]
  exact hpath.opening_allows .paren

theorem isRow_assertionTail : IsRow (assertionTail ++ [.newline]) := by
  refine ⟨?_, of_decide_eq_true rfl⟩
  simp +decide [assertionTail, Piece.IsValid]

/-- An assertion has the lexemes of its path and its number. -/
theorem lexesTo_assertion {a : Assertion} (h : a.IsReadable) : LexesTo [a.line] a.lexemes := by
  obtain ⟨hpath, n, hn⟩ := h
  have hlead : ∀ p ∈ (assertionHead a.reference).getLast?, p.leads := by
    rw [assertionHead, List.getLast?_append_of_ne_nil _ (by simp)]
    simp [Piece.leads]
  have hrow := (isOperand_intPieces n).between (isRow_assertionHead hpath) hlead
    isRow_assertionTail (by simp +decide)
  rw [← List.append_assoc] at hrow
  have hline : IsLine ("assert!(" ++ a.reference ++ ".0 - " ++ a.operand.text ++ " == 0);")
      (assertionHead a.reference ++ intPieces n ++ assertionTail) := by
    refine ⟨?_, hrow⟩
    have hint : n.repr.toList = piecesChars (intPieces n) := toList_repr_int n
    simp only [assertionHead, piecesChars_append, ← toList_path hpath, ← hint, hn]
    simp [GuardOperand.text, assertionTail, piecesChars, Piece.chars, openingChar, closingChar]
  have hlexemes := hline.lexesTo_line
  simp only [assertionHead, piecesLexemes_append, piecesLexemes_intPieces] at hlexemes
  have hoperand : (lexemes? a.operand.text.toList).getD [] = intLexemes n := by
    rw [hn, GuardOperand.text, lexemes?_int]
    rfl
  rw [Assertion.lexemes, hoperand]
  exact hlexemes

theorem lexesTo_guardHead : LexesTo
    [.openBlock "const _: () =",
      .line "// A failed constant evaluation here means the constant values have changed.",
      .line "// Re-run the stringer command to generate them again."] guardHead := by
  have hhead : IsLine ("const _: () =" ++ " \x7b") [.keyword "const" .constKw, .gap,
      .keyword "_" .underscore, .colon, .gap, .opening .paren, .closing .paren, .gap, .set, .gap,
      .opening .brace] := by
    refine ⟨rfl, ?_, of_decide_eq_true rfl⟩
    simp +decide [Piece.IsValid]
  have hfirst : LexesTo [.line
      "// A failed constant evaluation here means the constant values have changed."] [] :=
    lexesTo_comment (s := "A failed constant evaluation here means the constant values have changed.")
      (by decide)
  have hsecond : LexesTo [.line "// Re-run the stringer command to generate them again."] [] :=
    lexesTo_comment (s := "Re-run the stringer command to generate them again.") (by decide)
  exact hhead.lexesTo_openBlock.append (hfirst.append hsecond)

/-- A guard has the lexemes of its assertions in order. -/
theorem lexesTo_guard {assertions : List Assertion} (h : ∀ a ∈ assertions, a.IsReadable) :
    LexesTo (Item.guard assertions).steps (Item.guard assertions).lexemes := by
  have hbody : LexesTo (assertions.map Assertion.line) (assertions.flatMap Assertion.lexemes) :=
    lexesTo_map fun a ha => lexesTo_assertion (h a ha)
  have hall := (lexesTo_guardHead.append hbody).append lexesTo_closeSemi
  rw [Item.steps, Item.lexemes]
  exact hall

/-! ## Whole texts -/

/-- The layout of a readable item has the lexemes of the item. -/
theorem Item.lexesTo_steps {item : Item} (h : item.IsReadable) :
    LexesTo item.steps item.lexemes := by
  cases item with
  | blank => exact lexesTo_blank
  | blob name s => exact lexesTo_blobSteps h (written_encode s.toList)
  | offsets name width values => exact lexesTo_offsets h.1 width h.2
  | constants name typeName references => exact lexesTo_constants h.1 h.2.1 h.2.2
  | guard assertions => exact lexesTo_guard h
  | display typeName body => exact lexesTo_display h.1 h.2
  | lookup name typeName body => exact lexesTo_lookup h.1 h.2.1 h.2.2

/-- A text of readable items is cut into the lexemes of the items. -/
theorem cut_itemsText {items : List Item} (h : ∀ item ∈ items, item.IsReadable) (rest : List Char) :
    Cut ((itemsText items).toList ++ rest) (items.flatMap Item.lexemes) rest := by
  have hsteps : LexesTo (itemsSteps items) (items.flatMap Item.lexemes) := by
    induction items with
    | nil => exact LexesTo.nil
    | cons item items ih =>
      have hitem := Item.lexesTo_steps (h item List.mem_cons_self)
      exact hitem.append (ih fun item hmem => h item (List.mem_cons_of_mem _ hmem))
  exact hsteps.cut_render rest

end EnumNames.Code
