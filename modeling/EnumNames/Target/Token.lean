/-!
# Tokens of the emitted language

The words, signs and brackets that a source text consists of once blanks and comments are dropped.
Signs are single characters, because what a longer one means depends on where it stands: `>>` is an
operator or closes two lists of type arguments. A literal is one token, whatever its value.
-/

namespace EnumNames.Target

/-- A word that is no identifier. -/
inductive Keyword
  | underscore | abstractKw | asKw | asyncKw | awaitKw | becomeKw | boxKw | breakKw | constKw
  | continueKw | crateKw | doKw | dynKw | elseKw | enumKw | externKw | falseKw | finalKw | fnKw
  | forKw | ifKw | implKw | inKw | letKw | loopKw | macroKw | matchKw | modKw | moveKw | mutKw
  | overrideKw | privKw | pubKw | refKw | returnKw | selfType | selfValue | staticKw | structKw
  | superKw | traitKw | trueKw | tryKw | typeKw | typeofKw | unsafeKw | unsizedKw | useKw
  | virtualKw | whereKw | whileKw | yieldKw
  deriving DecidableEq, Repr

/-- Every keyword with its spelling. -/
def keywords : List (String × Keyword) := [
  ("_", .underscore), ("abstract", .abstractKw), ("as", .asKw), ("async", .asyncKw),
  ("await", .awaitKw), ("become", .becomeKw), ("box", .boxKw), ("break", .breakKw),
  ("const", .constKw), ("continue", .continueKw), ("crate", .crateKw), ("do", .doKw),
  ("dyn", .dynKw), ("else", .elseKw), ("enum", .enumKw), ("extern", .externKw),
  ("false", .falseKw), ("final", .finalKw), ("fn", .fnKw), ("for", .forKw), ("if", .ifKw),
  ("impl", .implKw), ("in", .inKw), ("let", .letKw), ("loop", .loopKw), ("macro", .macroKw),
  ("match", .matchKw), ("mod", .modKw), ("move", .moveKw), ("mut", .mutKw),
  ("override", .overrideKw), ("priv", .privKw), ("pub", .pubKw), ("ref", .refKw),
  ("return", .returnKw), ("Self", .selfType), ("self", .selfValue), ("static", .staticKw),
  ("struct", .structKw), ("super", .superKw), ("trait", .traitKw), ("true", .trueKw),
  ("try", .tryKw), ("type", .typeKw), ("typeof", .typeofKw), ("unsafe", .unsafeKw),
  ("unsized", .unsizedKw), ("use", .useKw), ("virtual", .virtualKw), ("where", .whereKw),
  ("while", .whileKw), ("yield", .yieldKw)]

/-- A sign of one character. Longer signs are signs in a row that are joined. -/
inductive Sign
  | dot | comma | semi | colon | eq | bang | less | greater | plus | minus | star | slash | percent
  | caret | amp | pipe | question | pound | at | dollar | tilde
  deriving DecidableEq, Repr

/-- Every sign with its spelling. -/
def signs : List (Char × Sign) := [
  ('.', .dot), (',', .comma), (';', .semi), (':', .colon), ('=', .eq), ('!', .bang), ('<', .less),
  ('>', .greater), ('+', .plus), ('-', .minus), ('*', .star), ('/', .slash), ('%', .percent),
  ('^', .caret), ('&', .amp), ('|', .pipe), ('?', .question), ('#', .pound), ('@', .at),
  ('$', .dollar), ('~', .tilde)]

/-- A kind of bracket. -/
inductive Bracket
  | paren
  | square
  | brace
  deriving DecidableEq, Repr

/-- What the grammar has to know of a literal. -/
inductive LiteralKind
  /-- A text, as against bytes or a text that ends in a zero byte. -/
  | text
  /-- An integer that may name a field of a tuple: without a suffix and below 2 to the power 32. -/
  | index
  /-- A number with a point that may name a field of a field. It may end in the point. -/
  | indexPath (endsInDot : Bool)
  /-- Any other number. -/
  | number
  | other
  deriving DecidableEq, Repr

/-- Whether a literal may have a minus sign. -/
def LiteralKind.isNumber : LiteralKind → Bool
  | index | indexPath _ | number => true
  | text | other => false

/-- A token. -/
inductive Token
  /-- An identifier, raw ones with their mark. -/
  | word (name : String)
  | keyword (k : Keyword)
  | lifetime
  | literal (kind : LiteralKind)
  /-- A sign; `joined` if another sign follows at once. -/
  | sign (s : Sign) (joined : Bool)
  /-- A single quote that is part of no other token. -/
  | quote
  | opening (b : Bracket)
  | closing (b : Bracket)
  deriving DecidableEq, Repr

/-- The token of a word without a mark: a keyword or an identifier. -/
def Token.ofWord (name : String) : Token :=
  match keywords.lookup name with
  | some k => .keyword k
  | none => .word name

end EnumNames.Target
