import EnumNames.Code.Print
import EnumNames.Proofs.Code.Expression

/-!
# Lexemes of laid out text

A line that is cut into lexemes is cut into the same ones at whatever depth it stands, since margins
are blanks. So layout steps have lexemes of their own.

* `IsLine`: a line is made up of pieces that may stand in a row.
* `LexesTo`: the lexemes that layout steps add to a text.
-/

namespace EnumNames.Code

open Layout Target Text

variable {steps steps' : List Step} {ls ls' : List Lexeme} {s : String} {ps : List Piece}

/-- A line is made up of pieces that may stand in a row. -/
structure IsLine (s : String) (ps : List Piece) : Prop where
  toList_eq : s.toList = piecesChars ps
  isRow : IsRow (ps ++ [.newline])

/-- Whatever stands before them, layout steps add characters that are cut into these lexemes. -/
def LexesTo (steps : List Step) (ls : List Lexeme) : Prop :=
  ∀ w : Writer, ∃ cs, (steps.foldl Writer.apply w).text.toList = w.text.toList ++ cs
    ∧ ∀ rest, Cut (cs ++ rest) ls rest

theorem LexesTo.nil : LexesTo [] [] :=
  fun _ => ⟨[], (List.append_nil _).symm, fun rest => .nil rest⟩

/-- The lexemes of steps in a row are those of the steps, one after the other. -/
theorem LexesTo.append (h : LexesTo steps ls) (h' : LexesTo steps' ls') :
    LexesTo (steps ++ steps') (ls ++ ls') := by
  intro w
  obtain ⟨cs, hcs, hcut⟩ := h w
  obtain ⟨cs', hcs', hcut'⟩ := h' (steps.foldl Writer.apply w)
  refine ⟨cs ++ cs', ?_, fun rest => ?_⟩
  · rw [List.foldl_append, hcs', hcs, List.append_assoc]
  · rw [List.append_assoc]
    exact (hcut (cs' ++ rest)).trans (hcut' rest)

/-- The text of steps that start from nothing. -/
theorem LexesTo.cut_render (h : LexesTo steps ls) (rest : List Char) :
    Cut ((render steps).toList ++ rest) ls rest := by
  obtain ⟨cs, hcs, hcut⟩ := h {}
  rw [render, Layout.run, hcs]
  exact hcut rest

/-! ## Lines -/

/-- A margin adds nothing. -/
theorem cut_margin (depth : Nat) {rest tail : List Char} (h : Cut rest ls tail) :
    Cut ((margin depth).toList ++ rest) ls tail := by
  rw [margin, String.toList_ofList]
  induction 4 * depth with
  | zero => exact h
  | succ n ih => exact .gap rfl ih

/-- A line is cut into these lexemes, whatever follows it. -/
def LineLexesTo (s : String) (ls : List Lexeme) : Prop :=
  ∀ rest, Cut (s.toList ++ '\n' :: rest) ls rest

/-- The characters that a line adds to a text are cut into its lexemes. -/
theorem LineLexesTo.exists_chars (h : LineLexesTo s ls) (w : Writer) :
    ∃ cs, (w.line s).text.toList = w.text.toList ++ cs ∧ ∀ rest, Cut (cs ++ rest) ls rest := by
  obtain ⟨text, depth⟩ := w
  rw [Writer.line]
  split
  · next hempty =>
    refine ⟨['\n'], by simp, fun rest => ?_⟩
    have hline := h rest
    rw [String.isEmpty_iff.1 hempty] at hline
    exact hline
  · refine ⟨(margin depth).toList ++ (s.toList ++ ['\n']), by simp [List.append_assoc],
      fun rest => ?_⟩
    rw [List.append_assoc, List.append_assoc]
    exact cut_margin depth (h rest)

/-- A line has the lexemes of its pieces at any depth. -/
theorem IsLine.lineLexesTo (h : IsLine s ps) : LineLexesTo s (piecesLexemes ps) := by
  intro rest
  rw [h.toList_eq]
  exact cut_pieces_gap (.inr rfl) h.isRow.isValid h.isRow.isChain rest

/-- A comment has no lexemes. -/
theorem lineLexesTo_comment (h : '\n' ∉ s.toList) : LineLexesTo ("// " ++ s) [] := by
  intro rest
  have hrest : (restOfLine (' ' :: s.toList ++ '\n' :: rest)).2 = '\n' :: rest := by
    have hall : ∀ c ∈ ' ' :: s.toList, (c ≠ '\n' : Bool) = true := by
      intro c hc
      rw [decide_eq_true_iff]
      rintro rfl
      rcases List.mem_cons.1 hc with hc | hc
      · exact absurd hc (by decide)
      · exact h hc
    rw [restOfLine]
    show List.dropWhile (fun c => decide (c ≠ '\n')) (' ' :: s.toList ++ '\n' :: rest) = _
    rw [List.dropWhile_append_of_pos hall]
    rfl
  have helement : element? ("// ".toList ++ (s.toList ++ '\n' :: rest))
      = some ([], (restOfLine (' ' :: s.toList ++ '\n' :: rest)).2) := rfl
  rw [hrest] at helement
  rw [String.toList_append, List.append_assoc]
  exact .gap helement (.gap rfl (.nil rest))

/-! ## Steps -/

/-- The step that writes a line has the lexemes of the line. -/
theorem LineLexesTo.lexesTo_line (h : LineLexesTo s ls) : LexesTo [.line s] ls :=
  fun w => h.exists_chars w

theorem LineLexesTo.lexesTo_openBlock (h : LineLexesTo (s ++ " \x7b") ls) :
    LexesTo [.openBlock s] ls :=
  fun w => h.exists_chars w

theorem LineLexesTo.lexesTo_closeWith (h : LineLexesTo s ls) : LexesTo [.closeWith s] ls :=
  fun w => h.exists_chars w.shallower

theorem LineLexesTo.lexesTo_reopen (h : LineLexesTo s ls) : LexesTo [.reopen s] ls :=
  fun w => h.exists_chars w.shallower

theorem IsLine.lexesTo_line (h : IsLine s ps) : LexesTo [.line s] (piecesLexemes ps) :=
  h.lineLexesTo.lexesTo_line

theorem IsLine.lexesTo_openBlock (h : IsLine (s ++ " \x7b") ps) :
    LexesTo [.openBlock s] (piecesLexemes ps) :=
  h.lineLexesTo.lexesTo_openBlock

theorem IsLine.lexesTo_closeWith (h : IsLine s ps) : LexesTo [.closeWith s] (piecesLexemes ps) :=
  h.lineLexesTo.lexesTo_closeWith

theorem IsLine.lexesTo_reopen (h : IsLine s ps) : LexesTo [.reopen s] (piecesLexemes ps) :=
  h.lineLexesTo.lexesTo_reopen

theorem lexesTo_indent : LexesTo [.indent] [] :=
  fun w => LexesTo.nil w

theorem lexesTo_dedent : LexesTo [.dedent] [] :=
  fun w => LexesTo.nil w

theorem lexesTo_blank : LexesTo [.blank] [] := by
  have hline : IsLine "" [] := ⟨rfl, isRow_singleton trivial⟩
  exact hline.lexesTo_line

theorem lexesTo_close : LexesTo [.close] [.closing .brace] := by
  have hline : IsLine "\x7d" [.closing .brace] := by
    refine ⟨rfl, ?_, of_decide_eq_true rfl⟩
    simp [Piece.IsValid]
  exact hline.lexesTo_closeWith

/-- A comment on a line of its own has no lexemes. -/
theorem lexesTo_comment (h : '\n' ∉ s.toList) : LexesTo [.line ("// " ++ s)] [] :=
  (lineLexesTo_comment h).lexesTo_line

/-! ## Lines around an expression -/

/-- Whether any operand may stand after a piece. -/
def Piece.leads : Piece → Bool
  | gap | opening _ => true
  | _ => false

/-- An operand may stand between a row that leads to it and one that follows operands. -/
theorem IsOperand.between {before after : List Piece} (h : IsOperand ps) (hbefore : IsRow before)
    (hlead : ∀ p ∈ before.getLast?, p.leads) (hafter : IsRow after)
    (hnext : ∀ q ∈ after.head?, q.follows) : IsRow (before ++ ps ++ after) := by
  rw [List.append_assoc]
  refine hbefore.append (h.append hafter hnext) fun p hp q hq => ?_
  rw [List.head?_append_of_ne_nil ps h.ne_nil] at hq
  have hfirst := h.first q hq
  cases p with
  | gap => rfl
  | opening b => exact bne_iff_ne.2 hfirst
  | _ => exact absurd (hlead _ hp) (by simp [Piece.leads])

/-- A line of an expression with pieces before and after it. -/
theorem Expr.IsReadable.isLine {e : Expr} (h : e.IsReadable) {before after : List Piece}
    (hbefore : IsRow before) (hlead : ∀ p ∈ before.getLast?, p.leads)
    (hafter : IsRow (after ++ [.newline])) (hnext : ∀ q ∈ (after ++ [Piece.newline]).head?, q.follows)
    (hs : s.toList = piecesChars before ++ e.text.toList ++ piecesChars after) :
    IsLine s (before ++ e.pieces ++ after) := by
  refine ⟨?_, ?_⟩
  · rw [hs, Expr.toList_text h, piecesChars_append, piecesChars_append]
  · rw [List.append_assoc]
    exact (Expr.isOperand_pieces h).between hbefore hlead hafter hnext

end EnumNames.Code
