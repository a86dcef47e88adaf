/-!
# Layout of emitted text

Emitted text is laid out by a list of steps: lines, and changes of the depth at which they stand. A
block is opened by a line that ends in a brace and closed by one that begins with a brace. Depth is
four blanks for each open block; an empty line has none.

* `Layout.Writer` holds the text so far and the depth; `Writer.apply` takes a step.
* `Layout.render` gives the text of a list of steps.
-/

namespace EnumNames.Layout

/-- One step in laying out text. -/
inductive Step
  /-- A line at the current depth. -/
  | line (text : String)
  /-- One deeper. -/
  | indent
  /-- One less deep. -/
  | dedent
  /-- An empty line. -/
  | blank
  /-- A line with an opening brace at its end; what follows is one deeper. -/
  | openBlock (head : String)
  /-- One less deep, and a closing brace. -/
  | close
  /-- One less deep, and a line that closes the block. -/
  | closeWith (tail : String)
  /-- A line that closes one block and opens the next. -/
  | reopen (joint : String)
  deriving DecidableEq, Repr

/-- The text laid out so far, and the number of open blocks. -/
structure Writer where
  text : String := ""
  depth : Nat := 0
  deriving DecidableEq, Repr

/-- The blanks before a line at some depth. -/
def margin (depth : Nat) : String :=
  String.ofList (List.replicate (4 * depth) ' ')

namespace Writer

/-- Adds one line; an empty line has no margin. -/
def line : Writer → String → Writer
  | ⟨text, depth⟩, s =>
    if s.isEmpty then ⟨text.push '\n', depth⟩
    else ⟨(text ++ margin depth ++ s).push '\n', depth⟩

/-- One block deeper. -/
def deeper : Writer → Writer
  | ⟨text, depth⟩ => ⟨text, depth + 1⟩

/-- One block less deep; outside all blocks nothing changes. -/
def shallower : Writer → Writer
  | ⟨text, depth⟩ => ⟨text, depth - 1⟩

/-- Takes one step. -/
def apply (w : Writer) : Step → Writer
  | .line s => w.line s
  | .indent => w.deeper
  | .dedent => w.shallower
  | .blank => w.line ""
  | .openBlock head => (w.line (head ++ " \x7b")).deeper
  | .close => w.shallower.line "\x7d"
  | .closeWith tail => w.shallower.line tail
  | .reopen joint => (w.shallower.line joint).deeper

end Writer

/-- The writer after a list of steps. -/
def run (steps : List Step) : Writer :=
  steps.foldl Writer.apply {}

/-- The text of a list of steps. -/
def render (steps : List Step) : String :=
  (run steps).text

/-- The change of depth that a step asks for. -/
def Step.rise : Step → Int
  | .line _ | .blank | .reopen _ => 0
  | .indent | .openBlock _ => 1
  | .dedent | .close | .closeWith _ => -1

end EnumNames.Layout
