import EnumNames.Guard
import EnumNames.Code.Print

/-!
# Texts of steps in a row

What a step adds to a text depends on the depth alone. So the text of steps in a row is cut where
the depth is zero again, and the guard is a text of its own.

* `Layout.foldl_apply`: what steps add to a text.
* `Layout.render_append`: the text goes on afresh after steps that close what they open.
* `Guard.itemsText_item`: the guard is a text of its own, with a line for each assertion.
-/

namespace EnumNames

namespace Layout

/-- The text of one line with its end. -/
def lineText (depth : Nat) (s : String) : String :=
  if s.isEmpty then "\n" else margin depth ++ s ++ "\n"

/-- The depth after a step. -/
def Step.depthAfter (depth : Nat) : Step → Nat
  | .line _ | .blank => depth
  | .indent | .openBlock _ => depth + 1
  | .dedent | .close | .closeWith _ => depth - 1
  | .reopen _ => depth - 1 + 1

/-- The text that a step adds. -/
def Step.textAt (depth : Nat) : Step → String
  | .line s => lineText depth s
  | .indent | .dedent => ""
  | .blank => lineText depth ""
  | .openBlock head => lineText depth (head ++ " \x7b")
  | .close => lineText (depth - 1) "\x7d"
  | .closeWith s | .reopen s => lineText (depth - 1) s

/-- The depth after steps in a row. -/
def depthAfter (depth : Nat) : List Step → Nat
  | [] => depth
  | step :: steps => depthAfter (step.depthAfter depth) steps

/-- The text that steps in a row add. -/
def textAt (depth : Nat) : List Step → String
  | [] => ""
  | step :: steps => step.textAt depth ++ textAt (step.depthAfter depth) steps

/-- A line is added at the depth of the writer. -/
theorem line_eq (text : String) (depth : Nat) (s : String) :
    Writer.line ⟨text, depth⟩ s = ⟨text ++ lineText depth s, depth⟩ := by
  rw [Writer.line, lineText]
  split
  · rw [← String.append_singleton]
    rfl
  · rw [← String.append_singleton, String.append_assoc, String.append_assoc, String.append_assoc]
    rfl

/-- A step adds a text that depends on the depth alone. -/
theorem apply_eq (text : String) (depth : Nat) (step : Step) :
    Writer.apply ⟨text, depth⟩ step = ⟨text ++ step.textAt depth, step.depthAfter depth⟩ := by
  cases step with
  | line s => exact line_eq text depth s
  | indent | dedent => exact congrArg (Writer.mk · _) String.append_empty.symm
  | blank => exact line_eq text depth ""
  | openBlock head => exact congrArg Writer.deeper (line_eq text depth _)
  | close => exact line_eq text (depth - 1) "\x7d"
  | closeWith s => exact line_eq text (depth - 1) s
  | reopen s => exact congrArg Writer.deeper (line_eq text (depth - 1) s)

/-- Steps in a row add their texts one after the other. -/
theorem foldl_apply (text : String) (depth : Nat) (steps : List Step) :
    steps.foldl Writer.apply ⟨text, depth⟩ = ⟨text ++ textAt depth steps, depthAfter depth steps⟩ := by
  induction steps generalizing text depth with
  | nil => exact congrArg (Writer.mk · _) String.append_empty.symm
  | cons step steps ih => rw [List.foldl_cons, apply_eq, ih, textAt, depthAfter, String.append_assoc]

/-- Layout begins at depth zero. -/
theorem render_eq (steps : List Step) : render steps = textAt 0 steps := by
  show (steps.foldl Writer.apply ⟨"", 0⟩).text = _
  rw [foldl_apply]
  exact String.empty_append

/-- The text of later steps stands at the depth that earlier ones lead to. -/
theorem textAt_append (depth : Nat) (steps steps' : List Step) :
    textAt depth (steps ++ steps') = textAt depth steps ++ textAt (depthAfter depth steps) steps' := by
  induction steps generalizing depth with
  | nil => exact String.empty_append.symm
  | cons step steps ih => rw [List.cons_append, textAt, ih, textAt, depthAfter, String.append_assoc]

theorem depthAfter_append (depth : Nat) (steps steps' : List Step) :
    depthAfter depth (steps ++ steps') = depthAfter (depthAfter depth steps) steps' := by
  induction steps generalizing depth with
  | nil => rfl
  | cons step steps ih => rw [List.cons_append, depthAfter, ih, depthAfter]

/-- After steps that close what they open, the text goes on like a text of its own. -/
theorem render_append {steps : List Step} (h : depthAfter 0 steps = 0) (steps' : List Step) :
    render (steps ++ steps') = render steps ++ render steps' := by
  rw [render_eq, render_eq, render_eq, textAt_append, h]

/-- Lines in a row stay at their depth. -/
theorem depthAfter_map_line (depth : Nat) (lines : List String) :
    depthAfter depth (lines.map .line) = depth := by
  induction lines with
  | nil => rfl
  | cons s lines ih => exact ih

/-- Lines are added at one depth. -/
theorem textAt_map_line (depth : Nat) (lines : List String) :
    textAt depth (lines.map .line) = String.join (lines.map (lineText depth)) := by
  induction lines with
  | nil => rfl
  | cons s lines ih =>
    rw [List.map_cons, textAt, List.map_cons, String.join_cons, ← ih]
    rfl

end Layout

/-! ## Guards -/

namespace Guard

open Layout

/-- The steps before the assertions of a guard. -/
def openingSteps : List Step :=
  [.openBlock "const _: () =",
    .line "// A failed constant evaluation here means the constant values have changed.",
    .line "// Re-run the stringer command to generate them again."]

/-- The text before the assertions of a guard. -/
def opening : String :=
  "const _: () = \x7b\n"
    ++ "    // A failed constant evaluation here means the constant values have changed.\n"
    ++ "    // Re-run the stringer command to generate them again.\n"

/-- The text after the assertions of a guard. -/
def closing : String :=
  "\x7d;\n"

/-- The text of the assertion for a constant. -/
def condition (c : Constant) : String :=
  "assert!(" ++ c.reference ++ ".0 - " ++ (operand c).text ++ " == 0);"

/-- The text of a guard: a line for each constant. -/
def text (constants : List Constant) : String :=
  opening ++ String.join (constants.map fun c => lineText 1 (condition c)) ++ closing

/-- A guard is a block with a line for each constant. -/
theorem steps_item (constants : List Constant) : (item constants).steps
    = openingSteps ++ (constants.map condition).map .line ++ [.closeWith "\x7d;"] := by
  have hassertions : (constants.map assertion).map Code.Assertion.line
      = (constants.map condition).map .line := by
    rw [List.map_map, List.map_map]
    rfl
  rw [item, Code.Item.steps, hassertions]
  rfl

theorem depthAfter_openingSteps : depthAfter 0 openingSteps = 1 := rfl

theorem textAt_openingSteps : textAt 0 openingSteps = opening := by
  decide +kernel

/-- The guard is closed, and what follows it is a text of its own. -/
theorem itemsText_item (constants : List Constant) (items : List Code.Item) :
    Code.itemsText (item constants :: items) = text constants ++ Code.itemsText items := by
  have hdepth : depthAfter 0 (item constants).steps = 0 := by
    rw [steps_item, depthAfter_append, depthAfter_append, depthAfter_openingSteps,
      depthAfter_map_line]
    rfl
  have htext : render (item constants).steps = text constants := by
    rw [render_eq, steps_item, textAt_append, textAt_append, depthAfter_append,
      depthAfter_openingSteps, depthAfter_map_line, textAt_openingSteps, textAt_map_line,
      List.map_map]
    rfl
  rw [Code.itemsText, Code.itemsSteps, List.flatMap_cons, render_append hdepth, htext]
  rfl

end Guard

end EnumNames
