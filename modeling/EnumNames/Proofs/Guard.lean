import EnumNames.Proofs.Code.Comparison
import EnumNames.Proofs.Kind
import EnumNames.Proofs.Layout

/-!
# What a guard asserts

The text of a guard is read as one comparison for each declared constant, in order of declaration,
and the comparisons hold together exactly if no constant has changed.

* `Guard.required?`: the value that a constant has to have.
* `readGuard?_item`: a guard is read line by line.
* `exists_comparisons_iff`: its comparisons hold if and only if every constant has its value.
-/

namespace EnumNames

open Code Layout

/-! ## Reading a guard line by line -/

/-- A margin adds no token. -/
theorem spells_margin (depth : Nat) {cs rest : List Char} {ss : List Spelled}
    (h : Spells cs ss rest) : Spells ((margin depth).toList ++ cs) ss rest := by
  rw [margin, String.toList_ofList]
  induction 4 * depth with
  | zero => exact h
  | succ n ih => exact .gap rfl ih

/-- A line at any depth has the tokens of the line. -/
theorem spells_lineText (depth : Nat) {s : String} {rest : List Char} {ss : List Spelled}
    (h : Spells (s.toList ++ '\n' :: rest) ss rest) :
    Spells ((lineText depth s).toList ++ rest) ss rest := by
  rw [lineText]
  split
  · next hempty =>
    rw [String.isEmpty_iff.1 hempty] at h
    exact h
  · have htext : (margin depth ++ s ++ "\n").toList ++ rest
        = (margin depth).toList ++ (s.toList ++ '\n' :: rest) := by
      simp
    rw [htext]
    exact spells_margin depth h

/-- Lines that are read as comparisons are read up to the end of the guard. -/
theorem exists_spells_lines {α : Type} {line : α → String} {a : α → Comparison} {xs : List α}
    (h : ∀ x ∈ xs, IsReadLine (line x).toList (a x)) (depth : Nat) (rest : List Char) :
    ∃ ss, Spells ((String.join (xs.map fun x => lineText depth (line x))).toList ++ rest) ss rest
      ∧ ∀ after more, passLexemes? [.closing .brace] after = some more →
        readComparisons? (ss ++ after) = some (xs.map a, more) := by
  induction xs with
  | nil =>
    refine ⟨[], .nil rest, fun after more hmore => ?_⟩
    rw [List.nil_append, readComparisons?, hmore]
    rfl
  | cons x xs ih =>
    obtain ⟨hx, hxs⟩ := List.forall_mem_cons.1 h
    obtain ⟨ssRest, hspellsRest, hreadRest⟩ := ih hxs
    obtain ⟨ss, hspells, hread, hbrace, hne⟩ := hx.exists_tokens
      ((String.join (xs.map fun x => lineText depth (line x))).toList ++ rest)
    refine ⟨ss ++ ssRest, ?_, fun after more hmore => ?_⟩
    · rw [List.map_cons, String.join_cons, String.toList_append, List.append_assoc]
      exact (spells_lineText depth hspells).trans hspellsRest
    · have hshorter : (ssRest ++ after).length < (ss ++ (ssRest ++ after)).length := by
        have hpos := List.length_pos_iff.2 hne
        simp only [List.length_append]
        omega
      rw [List.append_assoc, readComparisons?, hbrace]
      show (readComparison? _).bind _ = _
      rw [hread]
      show (if _shorter : _ then _ else _) = _
      rw [dif_pos hshorter]
      show (readComparisons? _).bind _ = _
      rw [hreadRest after more hmore]
      rfl

namespace Guard

/-- A guard is read as the comparisons that its lines are read as. -/
theorem readGuard?_item {constants : List Constant} {a : Constant → Comparison}
    (h : ∀ c ∈ constants, IsReadLine (condition c).toList (a c)) :
    readGuard? (itemsText [item constants]) = some (constants.map a) := by
  have hopening : render openingSteps = opening := by rw [render_eq, textAt_openingSteps]
  have hclosing : render [.closeWith "\x7d;"] = closing := by
    rw [render_eq]
    rfl
  have hguardHead : LexesTo openingSteps guardHead := lexesTo_guardHead
  -- the opening, the line of each constant and the closing are spelled one after the other
  obtain ⟨ssHead, hhead, hspellsHead⟩ := (hguardHead.cut_render
    ((String.join (constants.map fun c => lineText 1 (condition c))).toList
      ++ closing.toList)).spells
  obtain ⟨ssEnd, hend, hspellsEnd⟩ := (lexesTo_closeSemi.cut_render []).spells
  obtain ⟨ss, hspells, hread⟩ := exists_spells_lines h 1 closing.toList
  have hends : AreLexemes ssEnd ([.closing .brace] ++ [.sign .semi false]) := hend
  obtain ⟨ssBrace, ssSemi, rfl, hbrace, hsemi⟩ := hends.split
  rw [hopening] at hspellsHead
  rw [hclosing, List.append_nil] at hspellsEnd
  have htext : (itemsText [item constants]).toList = opening.toList
      ++ ((String.join (constants.map fun c => lineText 1 (condition c))).toList
        ++ closing.toList) := by
    have hnil : itemsText [] = "" := rfl
    rw [itemsText_item, hnil, String.append_empty, text, String.toList_append, String.toList_append,
      List.append_assoc]
  have hspelled : spelled? (itemsText [item constants]).toList
      = some (ssHead ++ (ss ++ (ssBrace ++ ssSemi))) := by
    rw [htext]
    exact (hspellsHead.trans (hspells.trans hspellsEnd)).spelled?_eq
  have hclose := passLexemes?_append hsemi []
  rw [List.append_nil] at hclose
  rw [readGuard?, hspelled]
  show (passLexemes? guardHead _).bind _ = _
  rw [passLexemes?_append hhead]
  show (readComparisons? _).bind _ = _
  rw [hread _ _ (passLexemes?_append hbrace ssSemi)]
  show (passLexemes? [.sign .semi false] ssSemi).bind _ = _
  rw [hclose]
  rfl

/-! ## What the constants have to be -/

/-- The text that a constant is compared with, without the blanks around it. -/
def trimmed (c : Constant) : List Char :=
  (Text.trim c.canonical).toList

/-- The number of a decimal literal with its sign. -/
def signedValue (isNegative : Bool) (n : Nat) : Int :=
  if isNegative then -n else n

/-- What the canonical text of a constant may be: nothing, a decimal literal, or an expression
without comments, of which only its tokens and brackets are asked. -/
def isComparable (c : Constant) : Bool :=
  (trimmed c).isEmpty || (signedDecimal? (trimmed c)).isSome
    || isCommentFree (trimmed c) && (spelled? (trimmed c)).any (closesAll [])

/-- The value that a constant has to have: the recorded one if there is no other text for it, else
the one that the text denotes. A literal with a minus sign denotes none in a kind without negative
numbers; `meaning` gives the numbers that other expressions stand for. -/
def required? (kind : Kind) (meaning : List Spelled → Option Int) (c : Constant) : Option Int :=
  if trimmed c = [] ∨ trimmed c = c.decimal.toList then some c.value
  else
    match signedDecimal? (trimmed c) with
    | some (isNegative, n) =>
      if isNegative && !kind.isSigned then none else some (signedValue isNegative n)
    | none => (spelled? (trimmed c)).bind meaning

/-- How a comparison belongs to a constant: it stands bare only if it is the recorded value or a
decimal literal, and any other text is one group. -/
structure IsComparisonOf (c : Constant) (a : Comparison) : Prop where
  reference : a.reference = c.reference
  literal : ∀ isNegative n, a.operand = .literal isNegative n →
    trimmed c = [] ∧ signedValue isNegative n = c.value
      ∨ signedDecimal? (trimmed c) = some (isNegative, n)
  group : ∀ tokens, a.operand = .group tokens →
    signedDecimal? (trimmed c) = none ∧ spelled? (trimmed c) = some tokens

/-- The operand that the text for a constant is read as. -/
def readOperand (c : Constant) : Operand :=
  if trimmed c = [] then .literal (c.value < 0) c.value.natAbs
  else
    match signedDecimal? (trimmed c) with
    | some (isNegative, n) => .literal isNegative n
    | none => .group ((spelled? (trimmed c)).getD [])

/-- A text that is neither blank nor a decimal literal is an expression. -/
theorem exists_spelled_of_isComparable {c : Constant} (h : isComparable c) (hnil : trimmed c ≠ [])
    (hdecimal : signedDecimal? (trimmed c) = none) :
    ∃ ss, spelled? (trimmed c) = some ss ∧ isCommentFree (trimmed c) ∧ closesAll [] ss := by
  rw [isComparable, hdecimal, List.isEmpty_eq_false_iff.2 hnil] at h
  obtain ⟨hfree, hany⟩ := Bool.and_eq_true_iff.1 h
  cases hspelled : spelled? (trimmed c) with
  | none => exact absurd hany (by simp [hspelled])
  | some ss =>
    rw [hspelled] at hany
    exact ⟨ss, rfl, hfree, hany⟩

/-- The comparison that the assertion for a constant is read as. -/
def comparison (c : Constant) : Comparison :=
  ⟨c.reference, readOperand c⟩

theorem plainDecimal?_toDigits (n : Nat) : plainDecimal? (Nat.toDigits 10 n) = some n := by
  have hdigits : ∀ c ∈ Nat.toDigits 10 n, c.isDigit := mem_toDigits_isDigit
  have hall : (Nat.toDigits 10 n).all (fun c => c.isDigit || c == '_') := by
    rw [List.all_eq_true]
    exact fun c hc => by rw [hdigits c hc, Bool.true_or]
  obtain ⟨c, cs, hcs⟩ := List.exists_cons_of_ne_nil (Nat.toDigits_ne_nil (n := n) (b := 10))
  have hhead : (Nat.toDigits 10 n).head?.any Char.isDigit := by
    rw [hcs]
    exact hdigits c (hcs ▸ List.mem_cons_self)
  rw [plainDecimal?, hhead, hall, digitsValue_toDigits (by decide) (by decide)]
  rfl

/-- A text without a minus sign in front. -/
theorem signedDecimal?_eq (cs : List Char) (h : cs.head? ≠ some '-') :
    signedDecimal? cs = (plainDecimal? cs).map (false, ·) := by
  unfold signedDecimal?
  split
  · exact absurd rfl h
  · rfl

/-- The decimal text of an integer is read as its sign and its digits. -/
theorem signedDecimal?_toString (n : Int) :
    signedDecimal? (toString n).toList = some (decide (n < 0), n.natAbs) := by
  have htext : (toString n).toList = piecesChars (intPieces n) := toList_repr_int n
  rw [htext, intPieces]
  split
  · next hn =>
    have hchars : piecesChars [.signs [('-', .minus)] false, .number n.natAbs ""]
        = '-' :: Nat.toDigits 10 n.natAbs := by
      simp [piecesChars, Piece.chars]
    rw [hchars, signedDecimal?, plainDecimal?_toDigits, decide_eq_true hn]
    rfl
  · next hn =>
    have hchars : piecesChars [.number n.natAbs ""] = Nat.toDigits 10 n.natAbs := by
      simp [piecesChars, Piece.chars]
    have hhead : (Nat.toDigits 10 n.natAbs).head? ≠ some '-' := by
      intro hhead
      have hdigit := mem_toDigits_isDigit '-' (List.mem_of_head? hhead)
      exact absurd hdigit (by decide)
    rw [hchars, signedDecimal?_eq _ hhead, plainDecimal?_toDigits, decide_eq_false hn]
    rfl

theorem isSome_plainDecimal? (c : Char) (cs : List Char) : (plainDecimal? (c :: cs)).isSome
    = (c.isDigit && (c :: cs).all fun c => c.isDigit || c == '_') := by
  rw [plainDecimal?, List.head?_cons, Option.any_some]
  cases c.isDigit && (c :: cs).all fun c => c.isDigit || c == '_' <;> rfl

/-- The texts that are left bare are the decimal literals with at most one minus sign. -/
theorem isDecimalLiteral_eq (cs : List Char) :
    isDecimalLiteral cs = (signedDecimal? cs).isSome := by
  by_cases hminus : ∃ ds, cs = '-' :: ds
  · obtain ⟨ds, rfl⟩ := hminus
    rw [signedDecimal?, Option.isSome_map]
    cases ds with
    | nil => rfl
    | cons c ds => exact (isSome_plainDecimal? c ds).symm
  · have hhead : cs.head? ≠ some '-' := by
      intro hhead
      obtain ⟨ds, hds⟩ := List.head?_eq_some_iff.1 hhead
      exact hminus ⟨ds, hds⟩
    rw [signedDecimal?_eq cs hhead, Option.isSome_map]
    cases cs with
    | nil => rfl
    | cons c ds =>
      rw [isSome_plainDecimal?]
      unfold isDecimalLiteral
      split
      · next heq => exact absurd (congrArg List.head? heq) hhead
      · rfl

/-- What is compared with: the decimal text, the given decimal, or the given text in parentheses. -/
theorem operand_eq (c : Constant) : (operand c).text.toList
    = if trimmed c = [] then c.decimal.toList
      else if (signedDecimal? (trimmed c)).isSome then trimmed c
      else '(' :: (trimmed c ++ [')']) := by
  have hempty : (Text.trim c.canonical).isEmpty ↔ trimmed c = [] := by
    rw [String.isEmpty_iff, trimmed, String.toList_eq_nil_iff]
  have hdecimal := isDecimalLiteral_eq (trimmed c)
  unfold operand
  by_cases hnil : trimmed c = []
  · rw [if_pos (hempty.2 hnil), if_pos hnil]
    rfl
  · rw [if_neg (fun h => hnil (hempty.1 h)), if_neg hnil, ← hdecimal]
    show (if isDecimalLiteral (trimmed c) then _ else _ : GuardOperand).text.toList = _
    split
    · rfl
    · rw [GuardOperand.text, String.toList_append, String.toList_append]
      rfl

/-- What is compared with is read back if it can be compared with. -/
theorem isRead_operand {c : Constant} (h : isComparable c) :
    IsRead (operand c).text.toList (readOperand c) := by
  rw [operand_eq, readOperand]
  split
  · exact isRead_decimal (signedDecimal?_toString c.value)
  · next hnil =>
    cases hdecimal : signedDecimal? (trimmed c) with
    | some found => exact isRead_decimal hdecimal
    | none =>
      obtain ⟨ss, hspelled, hfree, hcloses⟩ := exists_spelled_of_isComparable h hnil hdecimal
      rw [hspelled]
      exact isRead_group hspelled hfree hcloses

/-- An assertion is read back if its constant can be compared. -/
theorem isReadLine_condition {c : Constant} (hpath : isPath c.reference) (h : isComparable c) :
    IsReadLine (condition c).toList (comparison c) :=
  isReadLine_comparisonText hpath (isRead_operand h)

/-- A guard is read as one comparison for each constant. -/
theorem readGuard?_constants {constants : List Constant}
    (hpath : ∀ c ∈ constants, isPath c.reference) (h : ∀ c ∈ constants, isComparable c) :
    readGuard? (itemsText [item constants]) = some (constants.map comparison) :=
  readGuard?_item fun c hc => isReadLine_condition (hpath c hc) (h c hc)

/-! ## What a comparison does -/

section Meaning

variable {kind : Kind} {meaning : List Spelled → Option Int} {current : String → Int}

theorem contains_zero (kind : Kind) : kind.contains 0 := by
  cases kind <;> decide

/-- The difference of two numbers of a kind is tested for zero. -/
theorem truth_iff_of_pair {m n : Int} {v : Val}
    (h : (Val.number (.ofKind kind) m).pair? v = some (.ofKind kind, m, n)) :
    BinOp.equal.run? (BinOp.sub.run? (some (.number (.ofKind kind) m)) (some v)) (some (.literal 0))
      = some (.truth true) ↔ n = m := by
  have hdifference : BinOp.sub.run? (some (.number (.ofKind kind) m)) (some v)
      = Val.number? (.ofKind kind) (m - n) := by
    show ((Val.number (.ofKind kind) m).pair? v).bind _ = _
    rw [h]
    rfl
  have hzero : (IntType.ofKind kind).contains 0 := contains_zero kind
  rw [hdifference, Val.number?]
  split
  · have hpair : (Val.number (.ofKind kind) (m - n)).pair? (.literal 0)
        = some (.ofKind kind, m - n, 0) := if_pos hzero
    have htruth : BinOp.equal.run? (some (.number (.ofKind kind) (m - n))) (some (.literal 0))
        = some (.truth (decide (m - n = 0))) := by
      show ((Val.number (.ofKind kind) (m - n)).pair? (.literal 0)).bind _ = _
      rw [hpair]
      rfl
    rw [htruth]
    simp only [Option.some.injEq, Val.truth.injEq, decide_eq_true_eq]
    omega
  · next hrange =>
    have hnone : BinOp.equal.run? none (some (.literal 0)) = none := rfl
    rw [hnone]
    refine ⟨fun h => absurd h (by simp), fun hmn => absurd ?_ hrange⟩
    rwa [hmn, Int.sub_self]

/-- The difference to a literal is zero if the numbers are equal, and it stays in the type. -/
theorem truth_literal_iff {m : Int} (hm : kind.contains m) (n : Int) :
    BinOp.equal.run? (BinOp.sub.run? (some (.number (.ofKind kind) m)) (some (.literal n)))
      (some (.literal 0)) = some (.truth true) ↔ n = m := by
  by_cases hn : kind.contains n
  · exact truth_iff_of_pair (if_pos hn)
  · have hnone : BinOp.sub.run? (some (.number (.ofKind kind) m)) (some (.literal n)) = none := by
      have hpair : (Val.number (.ofKind kind) m).pair? (.literal n) = none := if_neg hn
      show ((Val.number (.ofKind kind) m).pair? (.literal n)).bind _ = _
      rw [hpair]
      rfl
    rw [hnone]
    refine ⟨fun h => absurd h (by simp [BinOp.run?]), fun hmn => absurd ?_ hn⟩
    rwa [hmn]

/-- A comparison with a literal holds if the literal may be written and is the number. -/
theorem holds_literal_iff {reference : String} (isNegative : Bool) (n : Nat)
    (hcurrent : kind.contains (current reference)) :
    Comparison.holds kind meaning current ⟨reference, .literal isNegative n⟩
      ↔ (isNegative && !kind.isSigned) = false ∧ signedValue isNegative n = current reference := by
  rw [Comparison.holds, decide_eq_true_iff]
  cases isNegative with
  | false => simp [Operand.value?, signedValue, truth_literal_iff hcurrent]
  | true =>
    cases hsigned : kind.isSigned with
    | true => simp [Operand.value?, signedValue, hsigned, truth_literal_iff hcurrent]
    | false => simp [Operand.value?, hsigned, BinOp.run?]

/-- A comparison with a group holds if the group stands for the number. -/
theorem holds_group_iff {reference : String} (tokens : List Spelled) :
    Comparison.holds kind meaning current ⟨reference, .group tokens⟩
      ↔ meaning tokens = some (current reference) := by
  rw [Comparison.holds, decide_eq_true_iff, Operand.value?]
  cases meaning tokens with
  | none => simp [BinOp.run?]
  | some n =>
    have hpair : (Val.number (.ofKind kind) (current reference)).pair? (.number (.ofKind kind) n)
        = some (.ofKind kind, current reference, n) := if_pos rfl
    rw [Option.map_some, truth_iff_of_pair hpair, Option.some.injEq]

/-- A number of a kind without negative numbers is not negative. -/
theorem not_neg_of_contains {n : Int} (h : kind.contains n) (hsigned : kind.isSigned = false) :
    ¬ n < 0 := by
  have hleast := (Kind.bounds_of_contains h).1
  rw [hsigned, if_neg Bool.false_ne_true] at hleast
  omega

/-- A sign and an absolute value make up an integer. -/
theorem signedValue_natAbs (n : Int) : signedValue (decide (n < 0)) n.natAbs = n := by
  rw [signedValue]
  split
  · next h =>
    have hn := of_decide_eq_true h
    omega
  · next h =>
    rw [decide_eq_true_iff] at h
    omega

/-- A comparison with the recorded value. -/
theorem holds_recorded_iff {reference : String} (n : Int)
    (hcurrent : kind.contains (current reference)) :
    Comparison.holds kind meaning current ⟨reference, .literal (n < 0) n.natAbs⟩
      ↔ some n = some (current reference) := by
  rw [holds_literal_iff _ _ hcurrent, signedValue_natAbs, Option.some.injEq]
  refine and_iff_right_of_imp fun hn => ?_
  cases hsigned : kind.isSigned with
  | true => simp
  | false =>
    rw [← hn] at hcurrent
    simp [not_neg_of_contains hcurrent hsigned]

/-- A comparison holds if and only if the constant has the value that it has to have. -/
theorem holds_iff {c : Constant} (h : isComparable c)
    (hcurrent : kind.contains (current c.reference)) :
    (comparison c).holds kind meaning current
      ↔ required? kind meaning c = some (current c.reference) := by
  rw [comparison, readOperand, required?]
  by_cases hnil : trimmed c = []
  · rw [if_pos hnil, if_pos (.inl hnil)]
    exact holds_recorded_iff c.value hcurrent
  rw [if_neg hnil]
  by_cases hdefault : trimmed c = c.decimal.toList
  · have hdecimal : signedDecimal? (trimmed c) = some (decide (c.value < 0), c.value.natAbs) := by
      rw [hdefault]
      exact signedDecimal?_toString c.value
    rw [if_pos (.inr hdefault), hdecimal]
    exact holds_recorded_iff c.value hcurrent
  rw [if_neg (not_or.2 ⟨hnil, hdefault⟩)]
  cases hdecimal : signedDecimal? (trimmed c) with
  | some found =>
    obtain ⟨isNegative, n⟩ := found
    simp only [holds_literal_iff isNegative n hcurrent]
    cases isNegative && !kind.isSigned <;> simp
  | none =>
    obtain ⟨tokens, hspelled, -, -⟩ := exists_spelled_of_isComparable h hnil hdecimal
    rw [hspelled]
    exact holds_group_iff tokens

end Meaning

/-- What is read back is the comparison with the given text. -/
theorem isComparisonOf {c : Constant} (h : isComparable c) : IsComparisonOf c (comparison c) := by
  rw [comparison]
  by_cases hnil : trimmed c = []
  · have hread : readOperand c = .literal (c.value < 0) c.value.natAbs := if_pos hnil
    rw [hread]
    refine ⟨rfl, fun isNegative n hliteral => .inl ⟨hnil, ?_⟩, fun tokens hgroup => nomatch hgroup⟩
    obtain ⟨rfl, rfl⟩ := Operand.literal.inj hliteral
    exact signedValue_natAbs c.value
  cases hdecimal : signedDecimal? (trimmed c) with
  | some found =>
    have hread : readOperand c = .literal found.1 found.2 := by
      rw [readOperand, if_neg hnil, hdecimal]
    rw [hread]
    refine ⟨rfl, fun isNegative n hliteral => .inr ?_, fun tokens hgroup => nomatch hgroup⟩
    obtain ⟨rfl, rfl⟩ := Operand.literal.inj hliteral
    exact hdecimal
  | none =>
    obtain ⟨ss, hspelled, -, -⟩ := exists_spelled_of_isComparable h hnil hdecimal
    have hread : readOperand c = .group ss := by
      rw [readOperand, if_neg hnil, hdecimal, hspelled]
      rfl
    rw [hread]
    refine ⟨rfl, fun isNegative n hliteral => (nomatch hliteral), fun tokens hgroup => ?_⟩
    rw [← Operand.group.inj hgroup]
    exact ⟨hdecimal, hspelled⟩

/-- The comparisons of a guard belong to the constants one by one, and they hold together if and
only if every constant has the value that it has to have. -/
theorem exists_comparisons_iff {constants : List Constant}
    (hpath : ∀ c ∈ constants, isPath c.reference) (h : ∀ c ∈ constants, isComparable c) :
    ∃ comparisons, readGuard? (itemsText [item constants]) = some comparisons
      ∧ List.Forall₂ IsComparisonOf constants comparisons
      ∧ ∀ (kind : Kind) (meaning : List Spelled → Option Int) (current : String → Int),
        (∀ c ∈ constants, kind.contains (current c.reference)) →
          ((∀ a ∈ comparisons, a.holds kind meaning current)
            ↔ ∀ c ∈ constants, required? kind meaning c = some (current c.reference)) := by
  refine ⟨constants.map comparison, readGuard?_constants hpath h, ?_, ?_⟩
  · rw [List.forall₂_map_right_iff]
    exact List.forall₂_same.2 fun c hc => isComparisonOf (h c hc)
  · intro kind meaning current hcurrent
    rw [List.forall_mem_map]
    exact forall₂_congr fun c hc => holds_iff (h c hc) (hcurrent c hc)

/-- Constants that are compared with the least number of their kind, with a literal that has blanks
around it and gaps in it, and with the sum of two literals. -/
def bounds : List Constant :=
  [⟨"Least", "Bound::LEAST", BitVec.ofInt 64 (-0x8000000000000000), true, ""⟩,
    ⟨"Lowest", "Bound::LOWEST", BitVec.ofInt 64 (-0x8000000000000000), true,
      "-9223372036854775808"⟩,
    ⟨"Low", "Bound::LOW", BitVec.ofInt 64 (-1000), true, " -1_000 "⟩,
    ⟨"High", "crate::Bound::HIGH", 8, true, "5 + 3"⟩]

/-- The values of these constants. -/
def boundValue (reference : String) : Int :=
  if reference = "Bound::LOW" then -1000
  else if reference = "crate::Bound::HIGH" then 8
  else -0x8000000000000000

/-- The guard of these constants passes with their values. If all of them are eight it does not:
the difference from the least number is out of range. -/
theorem exists_comparisons_iff_bounds : (∀ c ∈ bounds, isPath c.reference)
    ∧ (∀ c ∈ bounds, isComparable c)
    ∧ ∃ comparisons, readGuard? (itemsText [item bounds]) = some comparisons
      ∧ (∀ a ∈ comparisons, a.holds .i64 (fun _ => some 8) boundValue)
      ∧ ¬ ∀ a ∈ comparisons, a.holds .i64 (fun _ => some 8) fun _ => 8 := by
  have hpath : ∀ c ∈ bounds, isPath c.reference := by decide +kernel
  have hcomparable : ∀ c ∈ bounds, isComparable c := by decide +kernel
  obtain ⟨comparisons, hread, -, hiff⟩ := exists_comparisons_iff hpath hcomparable
  refine ⟨hpath, hcomparable, comparisons, hread, ?_, ?_⟩
  · rw [hiff .i64 _ boundValue (by decide +kernel)]
    decide +kernel
  · rw [hiff .i64 _ _ (by decide +kernel)]
    decide +kernel

/-- A constant without a sign that is compared with zero, written with a minus sign. -/
def minusZero : Constant :=
  ⟨"A", "T::A", 0, false, "-0"⟩

/-- A literal with a minus sign is refused by kinds without negative numbers, also where it denotes
the current value. -/
theorem not_holds_minusZero : isPath minusZero.reference
    ∧ (signedDecimal? (trimmed minusZero)).map (fun (isNegative, n) => signedValue isNegative n)
      = some 0
    ∧ Kind.u8.contains 0
    ∧ ∃ comparisons, readGuard? (itemsText [item [minusZero]]) = some comparisons
      ∧ ∀ meaning, ¬ ∀ a ∈ comparisons, a.holds .u8 meaning fun _ => 0 := by
  have hpath : isPath minusZero.reference := by decide +kernel
  have hcomparable : isComparable minusZero := by decide +kernel
  have hread : readGuard? (itemsText [item [minusZero]]) = some [comparison minusZero] :=
    readGuard?_constants (List.forall_mem_singleton.2 hpath)
      (List.forall_mem_singleton.2 hcomparable)
  refine ⟨hpath, by decide +kernel, by decide, _, hread, fun meaning hall => ?_⟩
  have hrequired : required? .u8 meaning minusZero = none := by
    have hdecimal : signedDecimal? (trimmed minusZero) = some (true, 0) := by decide +kernel
    rw [required?, if_neg (by decide +kernel), hdecimal]
    rfl
  have hholds := hall _ List.mem_cons_self
  rw [holds_iff hcomparable (by decide), hrequired] at hholds
  exact absurd hholds (by simp)

end Guard

end EnumNames
