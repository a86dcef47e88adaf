import EnumNames.Digest.Sha256
import EnumNames.Proofs.Code.Cut
import EnumNames.Proofs.Target.Scan
import Mathlib.Data.List.Chain

/-!
# Pieces of emitted text

Emitted text is put together from pieces: blanks, words, numbers, texts, signs and brackets. If each
piece may stand before the next one, the text is cut into the lexemes of its pieces.

* `Piece.allows`: whether a piece may stand before another one.
* `cut_pieces`: pieces in a row are cut into their lexemes.
-/

namespace EnumNames.Code

open Target Text

/-- Whether a text is an identifier that is no keyword and has no mark of raw ones. -/
def isPlainIdentifier (name : String) : Bool :=
  isBareWord name.toList && (keywords.lookup name).isNone

/-- A part of emitted text. -/
inductive Piece
  | gap
  | newline
  | name (x : String)
  | keyword (name : String) (k : Keyword)
  | lifetime (name : String)
  /-- A decimal integer with the type at its end, if there is one. -/
  | number (n : Nat) (suffix : String)
  /-- A number with eight hexadecimal digits. -/
  | hex (n : UInt32)
  | text (s : String)
  /-- Signs without gaps between them; `joined` if another sign follows at once. -/
  | signs (l : List (Char × Sign)) (joined : Bool)
  | opening (b : Bracket)
  | closing (b : Bracket)
  deriving DecidableEq, Repr

/-- The lexemes of signs without gaps between them. -/
def signLexemes : List (Char × Sign) → Bool → List Lexeme
  | [], _ => []
  | [p], joined => [.sign p.2 joined]
  | p :: l, joined => .sign p.2 true :: signLexemes l joined

/-- Whether signs may stand together: none of them begins a comment with the next one. -/
def areSigns (l : List (Char × Sign)) : Bool :=
  !l.isEmpty && l.all (signs.contains ·) && (l.length == 1 || l.all (·.1 != '/'))

namespace Piece

/-- The characters of a piece. -/
def chars : Piece → List Char
  | gap => [' ']
  | newline => ['\n']
  | name x => x.toList
  | keyword x _ => x.toList
  | lifetime x => '\'' :: x.toList
  | number n suffix => Nat.toDigits 10 n ++ suffix.toList
  | hex n => '0' :: 'x' :: Digest.Sha256.hexWord n
  | text s => (quoted s).toList
  | signs l _ => l.map Prod.fst
  | opening b => [openingChar b]
  | closing b => [closingChar b]

/-- The lexemes of a piece. -/
def lexemes : Piece → List Lexeme
  | gap | newline => []
  | name x => [.word x]
  | keyword _ k => [.keyword k]
  | lifetime x => [.lifetime x]
  | number n suffix => [.number n suffix]
  | hex n => [.number n.toNat ""]
  | text s => [.text s]
  | signs l joined => signLexemes l joined
  | opening b => [.opening b]
  | closing b => [.closing b]

/-- What holds of a piece wherever it stands. -/
def IsValid : Piece → Prop
  | name x => isPlainIdentifier x
  | keyword x k => (x, k) ∈ keywords
  | lifetime x => isBareWord x.toList
  | number _ suffix => isTypeSuffix suffix.toList
  | signs l _ => areSigns l
  | _ => True

/-- The sign that a piece begins with. -/
def firstSign? : Piece → Option Char
  | signs (p :: _) _ => some p.1
  | _ => none

/-- Whether a piece begins a sign for the scanner, which counts single quotes among the signs. -/
def opensSign : Piece → Bool
  | signs _ _ | lifetime _ => true
  | _ => false

/-- Whether a piece is not joined to a word, a number or a text before it. -/
def isApart : Piece → Bool
  | gap | newline | opening _ | closing _ => true
  | signs (p :: _) _ => p.1 != '#'
  | _ => false

/-- Whether a piece may stand after a number: a point has to be one of two. -/
def endsNumber : Piece → Bool
  | signs (p :: l) _ => p.1 != '.' || (l.head?.map Prod.fst) == some '.'
  | _ => true

/-- Whether a piece may stand before another one. -/
def allows (p q : Piece) : Bool :=
  match p with
  | gap | newline | closing _ => true
  | name _ | keyword _ _ | lifetime _ | hex _ | text _ => q.isApart
  | number _ _ => q.isApart && q.endsNumber
  | signs l joined =>
    joined == q.opensSign && (l.all (·.1 != '/') || q == gap) && q.firstSign? != some '/'
  | opening _ => q.firstSign? != some '/'

end Piece

/-- The characters of pieces in a row. -/
def piecesChars (ps : List Piece) : List Char :=
  ps.flatMap Piece.chars

/-- The lexemes of pieces in a row. -/
def piecesLexemes (ps : List Piece) : List Lexeme :=
  ps.flatMap Piece.lexemes

/-! ## What a piece begins with -/

/-- Which signs may stand in a row: a slash stands alone, so that no comment begins. -/
theorem areSigns_iff {l : List (Char × Sign)} : areSigns l
    ↔ l ≠ [] ∧ (∀ p ∈ l, p ∈ signs) ∧ (l.length = 1 ∨ ∀ p ∈ l, p.1 ≠ '/') := by
  simp [areSigns, and_assoc]

theorem mem_toDigits_isDigit {n : Nat} : ∀ c ∈ Nat.toDigits 10 n, c.isDigit :=
  fun _ hc => Nat.isDigit_of_mem_toDigits (by decide) (by decide) hc

namespace Piece

variable {p q : Piece}

/-- Plain identifiers are words without a mark. -/
theorem isBareWord_of_isPlainIdentifier {x : String} (h : isPlainIdentifier x) : isBareWord x.toList := by
  rw [isPlainIdentifier, Bool.and_eq_true] at h
  exact h.1

/-- Keywords are words without a mark. -/
theorem isBareWord_of_mem_keywords {x : String} {k : Keyword} (h : (x, k) ∈ keywords) :
    isBareWord x.toList := by
  have hall : ∀ p ∈ keywords, isBareWord p.1.toList := by decide
  exact hall _ h

/-- The first character of a piece. -/
theorem exists_chars (h : q.IsValid) : ∃ c cs, q.chars = c :: cs
    ∧ (q.isApart → isIdentContinue c = false ∧ c ≠ '"' ∧ c ≠ '\'' ∧ c ≠ '#')
    ∧ (q.firstSign? ≠ some '/' → c ≠ '/')
    ∧ ((c == '\'' || (Target.signs.lookup c).isSome) = q.opensSign) := by
  have hcontinue : ∀ c, isIdentContinue c → c ≠ '/'
      ∧ (c == '\'' || (Target.signs.lookup c).isSome) = false := by
    intro c hc
    refine ⟨ne_of_isIdentContinue hc (by decide), ?_⟩
    rw [beq_eq_false_iff_ne.2 (ne_of_isIdentContinue hc (by decide)), lookup_signs_eq_none hc]
    rfl
  have hword : ∀ cs, isBareWord cs → ∃ c cs', cs = c :: cs' ∧ isIdentContinue c := by
    intro cs hcs
    cases cs with
    | nil => exact absurd hcs (by simp [isBareWord])
    | cons c cs =>
      rw [isBareWord, Bool.and_eq_true] at hcs
      exact ⟨c, cs, rfl, isIdentContinue_of_isIdentStart hcs.1⟩
  cases q with
  | gap => exact ⟨' ', [], rfl, fun _ => by decide, fun _ => by decide, by decide⟩
  | newline => exact ⟨'\n', [], rfl, fun _ => by decide, fun _ => by decide, by decide⟩
  | name x =>
    obtain ⟨c, cs, hcs, hc⟩ := hword _ (isBareWord_of_isPlainIdentifier h)
    exact ⟨c, cs, hcs, fun hapart => absurd hapart (by simp [isApart]), fun _ => (hcontinue c hc).1,
      (hcontinue c hc).2⟩
  | keyword x k =>
    obtain ⟨c, cs, hcs, hc⟩ := hword _ (isBareWord_of_mem_keywords h)
    exact ⟨c, cs, hcs, fun hapart => absurd hapart (by simp [isApart]), fun _ => (hcontinue c hc).1,
      (hcontinue c hc).2⟩
  | lifetime x =>
    exact ⟨'\'', x.toList, rfl, fun hapart => absurd hapart (by simp [isApart]),
      fun _ => by decide, rfl⟩
  | number n suffix =>
    obtain ⟨c, cs, hcs⟩ := List.exists_cons_of_ne_nil (Nat.toDigits_ne_nil (n := n) (b := 10))
    have hc : isIdentContinue c := isIdentContinue_of_isDigit
      (mem_toDigits_isDigit c (by rw [hcs]; exact List.mem_cons_self))
    exact ⟨c, cs ++ suffix.toList, by rw [chars, hcs]; rfl,
      fun hapart => absurd hapart (by simp [isApart]), fun _ => (hcontinue c hc).1, (hcontinue c hc).2⟩
  | hex n =>
    exact ⟨'0', _, rfl, fun hapart => absurd hapart (by simp [isApart]), fun _ => by decide, rfl⟩
  | text s =>
    exact ⟨'"', encode s.toList ++ ['"'], by rw [chars, toList_quoted]; rfl,
      fun hapart => absurd hapart (by simp [isApart]), fun _ => by decide, rfl⟩
  | signs l joined =>
    obtain ⟨hne, hmem, -⟩ := areSigns_iff.1 h
    obtain ⟨p, l, rfl⟩ := List.exists_cons_of_ne_nil hne
    have hsigns : ∀ p ∈ Target.signs, isIdentContinue p.1 = false ∧ p.1 ≠ '"' ∧ p.1 ≠ '\''
        ∧ (Target.signs.lookup p.1).isSome = true := by decide
    obtain ⟨hcontinue, hquote, hsingle, hlookup⟩ := hsigns p (hmem p List.mem_cons_self)
    refine ⟨p.1, l.map Prod.fst, rfl, fun hapart => ?_, fun hslash => ?_, ?_⟩
    · exact ⟨hcontinue, hquote, hsingle, bne_iff_ne.1 hapart⟩
    · exact fun heq => hslash (by rw [firstSign?, heq])
    · rw [hlookup, Bool.or_true]
      rfl
  | opening b =>
    refine ⟨openingChar b, [], rfl, fun _ => ?_, fun _ => ?_, ?_⟩ <;> cases b <;> decide
  | closing b =>
    refine ⟨closingChar b, [], rfl, fun _ => ?_, fun _ => ?_, ?_⟩ <;> cases b <;> decide

section Begin

variable (hq : q.IsValid) (rest : List Char)

include hq

/-- A piece that is apart keeps the word before it apart. -/
theorem isApart_chars (h : q.isApart) : Target.isApart (q.chars ++ rest) := by
  obtain ⟨c, cs, hcs, hapart, -⟩ := exists_chars hq
  obtain ⟨hcontinue, hquote, hsingle, hhash⟩ := hapart h
  rw [hcs, List.cons_append, Target.isApart, List.head?_cons, Option.all_some, hcontinue,
    bne_iff_ne.2 hquote, bne_iff_ne.2 hsingle, bne_iff_ne.2 hhash]
  rfl

/-- Whether a sign follows at once can be seen from the next piece. -/
theorem beginsSign_chars (h : q.firstSign? ≠ some '/') :
    beginsSign (q.chars ++ rest) = q.opensSign := by
  obtain ⟨c, cs, hcs, -, hslash, hopens⟩ := exists_chars hq
  rw [hcs, List.cons_append, beginsSign, beginsComment_eq_false (hslash h), List.head?_cons,
    ← hopens]
  rfl

theorem head?_chars (h : q.firstSign? ≠ some '/') : (q.chars ++ rest).head? ≠ some '/' := by
  obtain ⟨c, cs, hcs, -, hslash, -⟩ := exists_chars hq
  rw [hcs, List.cons_append, List.head?_cons]
  exact fun heq => hslash h (Option.some.inj heq)

/-- A piece that ends numbers ends the number before it. -/
theorem endsNumber_chars (h : q.isApart) (hends : q.endsNumber) :
    Target.endsNumber (q.chars ++ rest) := by
  unfold Target.endsNumber
  rw [isApart_chars hq rest h, Bool.true_and]
  cases q with
  | signs l joined =>
    obtain ⟨p, l, rfl⟩ := List.exists_cons_of_ne_nil (areSigns_iff.1 hq).1
    split
    · next cs heq =>
      obtain ⟨hdot, rfl⟩ := List.cons.inj heq
      rw [endsNumber, hdot, Bool.or_eq_true] at hends
      have hhead := hends.resolve_left (by simp)
      cases l with
      | nil => exact absurd hhead (by simp)
      | cons r l =>
        have hr : r.1 = '.' := by simpa using hhead
        simp [hr]
    · rfl
  | gap => rfl
  | newline => rfl
  | opening b => cases b <;> rfl
  | closing b => cases b <;> rfl
  | name x => exact absurd h (by simp [isApart])
  | keyword x k => exact absurd h (by simp [isApart])
  | lifetime x => exact absurd h (by simp [isApart])
  | number n suffix => exact absurd h (by simp [isApart])
  | hex n => exact absurd h (by simp [isApart])
  | text s => exact absurd h (by simp [isApart])

end Begin

end Piece

/-! ## Literals -/

/-- The digits of a number denote it. -/
theorem digitsValue_toDigits {base : Nat} (hlow : 1 < base) (hhigh : base ≤ 16) (n : Nat) :
    digitsValue base (Nat.toDigits base n) = n :=
  foldl_toDigits hlow hhigh n

/-- A decimal with the type at its end is read as its number. -/
theorem literal?_decimal {suffix : String} (n : Nat) (h : isTypeSuffix suffix.toList) :
    literal? (Nat.toDigits 10 n ++ suffix.toList) = some (.number n suffix) := by
  have hdigits := mem_toDigits_isDigit (n := n)
  have hstop : ∀ c ∈ suffix.toList.head?, c.isDigit = false := by
    intro c hc
    rcases head?_typeSuffix h c hc with rfl | rfl <;> rfl
  have htake : (Nat.toDigits 10 n ++ suffix.toList).takeWhile Char.isDigit
      = Nat.toDigits 10 n := by
    rw [List.takeWhile_append_of_pos hdigits]
    cases hs : suffix.toList with
    | nil => simp
    | cons d cs => rw [List.takeWhile_cons, hstop d (by rw [hs]; rfl)]; simp
  have hdrop : (Nat.toDigits 10 n ++ suffix.toList).dropWhile Char.isDigit = suffix.toList := by
    rw [List.dropWhile_append_of_pos hdigits]
    cases hs : suffix.toList with
    | nil => rfl
    | cons d cs => rw [List.dropWhile_cons, hstop d (by rw [hs]; rfl)]; simp
  have hdecimal : decimal? (Nat.toDigits 10 n ++ suffix.toList) = some (.number n suffix) := by
    rw [decimal?, htake, hdrop]
    show (if (Nat.toDigits 10 n).isEmpty then _ else _) = _
    rw [if_neg (by simp), digitsValue_toDigits (by decide) (by decide), String.ofList_toList]
  obtain ⟨c, cs, hcs⟩ := List.exists_cons_of_ne_nil (Nat.toDigits_ne_nil (n := n) (b := 10))
  have hc : c.isDigit := hdigits c (by rw [hcs]; exact List.mem_cons_self)
  unfold literal?
  split
  · next heq =>
    rw [hcs] at heq
    rw [(List.cons.inj heq).1] at hc
    exact absurd hc (by decide)
  · next heq =>
    -- the letter that marks base sixteen is no digit and begins no type
    rw [hcs] at heq
    obtain ⟨-, heq⟩ := List.cons.inj heq
    cases cs with
    | nil =>
      have hx : 'x' ∈ suffix.toList.head? := by
        rw [show suffix.toList = 'x' :: _ from heq]
        rfl
      rcases head?_typeSuffix h 'x' hx with hx | hx <;> exact absurd hx (by decide)
    | cons d cs =>
      have hd : d.isDigit := hdigits d (by rw [hcs]; simp)
      rw [(List.cons.inj heq).1] at hd
      exact absurd hd (by decide)
  · exact hdecimal

theorem hexValue?_of_mem_hexWord (n : UInt32) :
    ∀ c ∈ Digest.Sha256.hexWord n, ∃ d < 16, hexValue? c = some d := by
  intro c hc
  rw [Digest.Sha256.hexWord, List.mem_append] at hc
  rcases hc with hc | hc
  · rw [List.eq_of_mem_replicate hc]
    exact ⟨0, by decide, by decide⟩
  · exact hexValue?_of_mem_toDigits (by decide) (by decide) n.toNat c hc

/-- The eight hexadecimal digits of a word denote it. -/
theorem digitsValue_hexWord (n : UInt32) : digitsValue 16 (Digest.Sha256.hexWord n) = n.toNat := by
  have hzero : hexValue? '0' = some 0 := by decide
  have hzeros : ∀ k, (List.replicate k 0).foldl (fun n d => n * 16 + d) 0 = 0 := by
    intro k
    induction k with
    | zero => rfl
    | succ k ih => exact ih
  rw [digitsValue, Digest.Sha256.hexWord, List.filterMap_append, List.foldl_append,
    List.filterMap_replicate_of_some hzero, hzeros]
  exact foldl_toDigits (by decide) (by decide) n.toNat

/-- A word in hexadecimal is read as its number. -/
theorem literal?_hex (n : UInt32) :
    literal? ('0' :: 'x' :: Digest.Sha256.hexWord n) = some (.number n.toNat "") := by
  have hall : (Digest.Sha256.hexWord n).all (isDigitOrGap 16) := by
    rw [List.all_eq_true]
    intro c hc
    obtain ⟨d, hd, hvalue⟩ := hexValue?_of_mem_hexWord n c hc
    rw [isDigitOrGap, hvalue, Option.any_some, decide_eq_true hd, Bool.or_true]
  rw [literal?, if_pos hall, digitsValue_hexWord]

/-- However a text is written, what stands between its quotes is read as the text. -/
theorem literal?_written {cs inside : List Char} (h : Written cs inside) :
    literal? ('"' :: inside ++ ['"']) = some (.text (String.ofList cs)) := by
  have hdrop : (inside ++ ['"']).dropLast = inside := by simp
  rw [List.cons_append, literal?, hdrop, h.decode_eq, Option.map_some]

/-! ## Lexemes of pieces -/

section Lexemes

variable {p q : Piece}

/-- A text that begins with one lexeme is cut into it. -/
theorem cut_singleton (spelling : List Char) {rest : List Char} {l : Lexeme}
    (h : element? (spelling ++ rest) = some ([l.token], rest))
    (hl : Lexeme.ofToken? spelling l.token = some l) : Cut (spelling ++ rest) [l] rest :=
  .cons h hl (.nil rest)

/-- However a text is written, it is cut into its lexeme. -/
theorem cut_written {cs inside rest : List Char} (h : Written cs inside) (hrest : isApart rest) :
    Cut ('"' :: inside ++ '"' :: rest) [.text (String.ofList cs)] rest := by
  have hsplit : '"' :: inside ++ '"' :: rest = '"' :: inside ++ ['"'] ++ rest := by simp
  rw [hsplit]
  refine cut_singleton _ ?_ (literal?_written h)
  rw [← hsplit]
  exact element?_written h hrest

/-- Signs in a row are joined, except the last one. -/
theorem cut_signs {l : List (Char × Sign)} (hne : l ≠ []) (hmem : ∀ p ∈ l, p ∈ signs)
    (hslash : l.length = 1 ∨ ∀ p ∈ l, p.1 ≠ '/') (rest : List Char)
    (hcomment : ∀ p ∈ l.getLast?, beginsComment (p.1 :: rest) = false) :
    Cut (l.map Prod.fst ++ rest) (signLexemes l (beginsSign rest)) rest := by
  have hsign : ∀ {p : Char × Sign} {rest : List Char}, p ∈ signs →
      beginsComment (p.1 :: rest) = false →
        Cut ([p.1] ++ rest) [.sign p.2 (beginsSign rest)] rest :=
    fun hp hcomment => cut_singleton [_] (element?_sign hp hcomment) rfl
  induction l with
  | nil => exact absurd rfl hne
  | cons p l ih =>
    cases l with
    | nil => exact hsign (hmem p List.mem_cons_self) (hcomment p rfl)
    | cons r l =>
      have hslash' : ∀ a ∈ p :: r :: l, a.1 ≠ '/' := hslash.resolve_left (by simp)
      have hr : r.1 ≠ '/' := hslash' r (by simp)
      have hjoined : beginsSign ((r :: l).map Prod.fst ++ rest) = true := by
        have hsigns : ∀ p ∈ Target.signs, (Target.signs.lookup p.1).isSome = true := by decide
        show (!beginsComment (r.1 :: _) && (r.1 == '\'' || (signs.lookup r.1).isSome)) = true
        rw [beginsComment_eq_false hr, hsigns r (hmem r (by simp)), Bool.or_true]
        rfl
      have hrest := ih (by simp) (fun p hp => hmem p (List.mem_cons_of_mem _ hp))
        (.inr fun p hp => hslash' p (List.mem_cons_of_mem _ hp)) hcomment
      have hcomment' : beginsComment (p.1 :: ((r :: l).map Prod.fst ++ rest)) = false :=
        beginsComment_eq_false (hslash' p List.mem_cons_self)
      have hp := hsign (hmem p List.mem_cons_self) hcomment'
      rw [hjoined] at hp
      exact hp.trans hrest

/-- A plain identifier is no keyword. -/
theorem token_name {x : String} (h : isPlainIdentifier x) :
    Token.ofWord x = (Lexeme.word x).token := by
  rw [isPlainIdentifier, Bool.and_eq_true, Option.isNone_iff_eq_none] at h
  rw [Token.ofWord, h.2]
  rfl

theorem token_keyword {x : String} {k : Keyword} (h : (x, k) ∈ keywords) :
    Token.ofWord x = (Lexeme.keyword k).token := by
  have hall : ∀ p ∈ keywords, keywords.lookup p.1 = some p.2 := by decide +kernel
  rw [Token.ofWord, hall _ h]
  rfl

theorem token_decimal (n : Nat) (suffix : String) :
    .literal (suffixedKind 10 (Nat.toDigits 10 n) suffix.toList)
      = (Lexeme.number n suffix).token := by
  have hempty : suffix.toList.isEmpty = suffix.isEmpty := by
    rw [Bool.eq_iff_iff, List.isEmpty_iff, String.isEmpty_iff, String.toList_eq_nil_iff]
  rw [suffixedKind, hempty, isFieldNumber, digitsValue_toDigits (by decide) (by decide)]
  rfl

theorem token_hex (n : UInt32) :
    .literal (suffixedKind 16 (Digest.Sha256.hexWord n) []) = (Lexeme.number n.toNat "").token := by
  rw [suffixedKind, isFieldNumber, digitsValue_hexWord]
  rfl

/-- A piece is cut into its lexemes, if the next one may stand after it. -/
theorem cut_piece (hp : p.IsValid) (hq : q.IsValid) (h : p.allows q) (rest : List Char) :
    Cut (p.chars ++ (q.chars ++ rest)) p.lexemes (q.chars ++ rest) := by
  have hword : ∀ {x : String} {l : Lexeme}, isBareWord x.toList → q.isApart →
      Token.ofWord x = l.token →
        element? (x.toList ++ (q.chars ++ rest)) = some ([l.token], q.chars ++ rest) := by
    intro x l hx hapart hl
    rw [element?_word hx (Piece.isApart_chars hq rest hapart), String.ofList_toList, hl]
  cases p with
  | gap => exact .gap rfl (.nil _)
  | newline => exact .gap rfl (.nil _)
  | name x =>
    exact cut_singleton _ (hword (Piece.isBareWord_of_isPlainIdentifier hp) h (token_name hp)) rfl
  | keyword x k =>
    exact cut_singleton _ (hword (Piece.isBareWord_of_mem_keywords hp) h (token_keyword hp)) rfl
  | lifetime x =>
    refine cut_singleton ('\'' :: x.toList) (element?_lifetime hp (Piece.isApart_chars hq rest h)) ?_
    show some (Lexeme.lifetime (String.ofList x.toList)) = _
    rw [String.ofList_toList]
  | number n suffix =>
    obtain ⟨hapart, hends⟩ := (Bool.and_eq_true _ _).mp h
    have hdigits : (Nat.toDigits 10 n).all Char.isDigit :=
      List.all_eq_true.2 mem_toDigits_isDigit
    have hnumber := element?_decimal hdigits Nat.toDigits_ne_nil hp
      (Piece.endsNumber_chars hq rest hapart hends)
    rw [← List.append_assoc, token_decimal] at hnumber
    exact cut_singleton _ hnumber (literal?_decimal n hp)
  | hex n =>
    have hne : Digest.Sha256.hexWord n ≠ [] := by
      rw [Digest.Sha256.hexWord]
      simp
    have hnumber := element?_hex (hexValue?_of_mem_hexWord n) hne
      (Piece.isApart_chars hq rest h)
    rw [token_hex] at hnumber
    exact cut_singleton ('0' :: 'x' :: Digest.Sha256.hexWord n) hnumber
      (literal?_hex n)
  | text s =>
    have hchars : (Piece.text s).chars ++ (q.chars ++ rest)
        = '"' :: encode s.toList ++ '"' :: (q.chars ++ rest) := by
      rw [Piece.chars, toList_quoted, List.append_assoc]
      rfl
    have hcut := cut_written (written_encode s.toList) (Piece.isApart_chars hq rest h)
    rw [String.ofList_toList] at hcut
    rw [hchars]
    exact hcut
  | signs l joined =>
    obtain ⟨hne, hmem, hslash⟩ := areSigns_iff.1 hp
    simp only [Piece.allows, Bool.and_eq_true, Bool.or_eq_true, beq_iff_eq, bne_iff_ne] at h
    obtain ⟨⟨hjoined, hlast⟩, hfirst⟩ := h
    have hcomment : ∀ p ∈ l.getLast?, beginsComment (p.1 :: (q.chars ++ rest)) = false := by
      intro p hp
      rcases hlast with hall | rfl
      · have hne := List.all_eq_true.1 hall p (List.mem_of_mem_getLast? hp)
        exact beginsComment_eq_false (bne_iff_ne.1 hne)
      · simp [beginsComment, Piece.chars]
    have hcut := cut_signs hne hmem hslash (q.chars ++ rest) hcomment
    rw [Piece.beginsSign_chars hq rest hfirst, ← hjoined] at hcut
    exact hcut
  | opening b =>
    exact cut_singleton [openingChar b]
      (element?_opening b (Piece.head?_chars hq rest (bne_iff_ne.1 h))) rfl
  | closing b => exact cut_singleton [closingChar b] (element?_closing b) rfl

/-- Pieces in a row are cut into their lexemes, if each of them may stand before the next one. -/
theorem cut_pieces {ps : List Piece} (hvalid : ∀ p ∈ ps ++ [q], p.IsValid)
    (hchain : (ps ++ [q]).IsChain (fun p q => Piece.allows p q = true)) (rest : List Char) :
    Cut (piecesChars ps ++ (q.chars ++ rest)) (piecesLexemes ps) (q.chars ++ rest) := by
  induction ps with
  | nil => exact .nil _
  | cons p ps ih =>
    have hp := hvalid p List.mem_cons_self
    have hps : ∀ r ∈ ps ++ [q], r.IsValid := fun r hr => hvalid r (List.mem_cons_of_mem _ hr)
    rw [List.cons_append, List.isChain_cons] at hchain
    have hrest := ih hps hchain.2
    -- what follows `p` begins with the next piece
    obtain ⟨r, cs, hr, hcs, hallows⟩ : ∃ r cs, Piece.IsValid r
        ∧ piecesChars ps ++ (q.chars ++ rest) = r.chars ++ cs ∧ p.allows r := by
      cases ps with
      | nil => exact ⟨q, rest, hps q (by simp), rfl, hchain.1 _ rfl⟩
      | cons r ps =>
        refine ⟨r, piecesChars ps ++ (q.chars ++ rest), hps r List.mem_cons_self, ?_,
          hchain.1 _ rfl⟩
        rw [piecesChars, List.flatMap_cons, List.append_assoc]
        rfl
    have hpiece := cut_piece hp hr hallows cs
    rw [← hcs] at hpiece
    rw [piecesChars, List.flatMap_cons, List.append_assoc]
    exact hpiece.trans hrest

/-- Pieces before a blank. -/
theorem cut_pieces_gap {ps : List Piece} (hq : q = .gap ∨ q = .newline)
    (hvalid : ∀ p ∈ ps ++ [q], p.IsValid)
    (hchain : (ps ++ [q]).IsChain (fun p q => Piece.allows p q = true)) (rest : List Char) :
    Cut (piecesChars ps ++ (q.chars ++ rest)) (piecesLexemes ps) rest := by
  refine (cut_pieces hvalid hchain rest).gap_right ?_
  rcases hq with rfl | rfl <;> rfl

end Lexemes

end EnumNames.Code
