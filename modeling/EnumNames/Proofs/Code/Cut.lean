import EnumNames.Code.Lexeme

/-!
# Texts that are cut into lexemes

The same cut of a text serves its two readers: the scanner, which wants tokens, and the reader of
emitted code, which wants lexemes.

* `Lexeme.token`: the token of a lexeme.
* `Cut`: a text is cut into lexemes, up to some point.
* `Cut.lexemes?_eq` and `Cut.scanFrom_eq`: what this means for the two readers.
-/

namespace EnumNames.Code

open Target

/-- The token of a lexeme. A number may name a field if it is small and has no type at its end. -/
def Lexeme.token : Lexeme → Token
  | word name => .word name
  | keyword k => .keyword k
  | lifetime _ => .lifetime
  | number n suffix =>
    .literal (if suffix.isEmpty && n < 0x100000000 then .index else .number)
  | text _ => .literal .text
  | sign s joined => .sign s joined
  | opening b => .opening b
  | closing b => .closing b

/-- `Cut cs ls rest`: the text `cs` begins with the lexemes `ls`, and `rest` is what follows them.
Blanks and comments may stand anywhere between them. -/
inductive Cut : List Char → List Lexeme → List Char → Prop
  | nil (cs : List Char) : Cut cs [] cs
  | gap {cs mid rest : List Char} {ls : List Lexeme} (h : element? cs = some ([], mid))
      (hrest : Cut mid ls rest) : Cut cs ls rest
  | cons {spelling mid rest : List Char} {l : Lexeme} {ls : List Lexeme}
      (h : element? (spelling ++ mid) = some ([l.token], mid))
      (hl : Lexeme.ofToken? spelling l.token = some l) (hrest : Cut mid ls rest) :
      Cut (spelling ++ mid) (l :: ls) rest

namespace Cut

variable {cs mid rest : List Char} {ls ls' : List Lexeme}

/-- Texts that are cut one after the other are cut as one. -/
theorem trans (h : Cut cs ls mid) (h' : Cut mid ls' rest) : Cut cs (ls ++ ls') rest := by
  induction h with
  | nil cs => exact h'
  | gap helement _ ih => exact .gap helement (ih h')
  | cons helement hl _ ih => exact .cons helement hl (ih h')

/-- Blanks and comments after the lexemes. -/
theorem gap_right (h : Cut cs ls mid) (hgap : element? mid = some ([], rest)) :
    Cut cs ls rest := by
  have hmid := h.trans (.gap hgap (.nil rest))
  rwa [List.append_nil] at hmid

/-- The lexemes of a text go on from those that it was cut into. -/
theorem lexemes?_eq (h : Cut cs ls rest) : lexemes? cs = (lexemes? rest).map (ls ++ ·) := by
  induction h with
  | nil cs =>
    show _ = Option.map (fun ls => ls) _
    rw [Option.map_id']
  | gap helement _ ih => rw [lexemes?_gap helement, ih]
  | cons helement hl _ ih =>
    rw [lexemes?_token helement rfl hl, ih, Option.map_map]
    rfl

/-- The scanner goes on after the tokens of the lexemes. -/
theorem scanFrom_eq (h : Cut cs ls rest) (before : List Token) :
    scanFrom before cs = scanFrom ((ls.map Lexeme.token).reverse ++ before) rest := by
  induction h generalizing before with
  | nil cs => rfl
  | gap helement _ ih => rw [scanFrom_element helement, ih]; rfl
  | cons helement _ _ ih =>
    rw [scanFrom_element helement, ih, List.map_cons]
    simp only [List.reverse_cons, List.reverse_nil, List.append_assoc, List.nil_append]

end Cut

end EnumNames.Code
