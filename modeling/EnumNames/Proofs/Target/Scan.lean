import EnumNames.Proofs.Text.Identifier
import EnumNames.Proofs.Text.Quoted
import EnumNames.Target.Scan

/-!
# Scanning what is emitted

What the scanner makes of a word, a number, a text or a sign that is followed by anything it is not
joined to.

* `element?_word`, `element?_decimal`, `element?_hex`, `element?_written`, `element?_sign` and
  `element?_opening` give the token of each of them and what is left.
-/

namespace EnumNames.Target

open Text

/-! ## Texts -/

/-- A short escape stays inside the text. -/
theorem afterQuoted?_escape {letter : Char} (rest : List Char)
    (h : QuotedState.next? .text .escape letter = some .plain) :
    afterQuoted? .text .plain (['\\', letter] ++ rest) = afterQuoted? .text .plain rest := by
  show afterQuoted? .text .escape (letter :: rest) = _
  rw [afterQuoted?, if_neg (by simp), h]

/-- No more than six digits of a code point are passed. -/
theorem afterQuoted?_code (value count : Nat) (digits rest : List Char)
    (h : ∀ c ∈ digits, ∃ d < 16, hexValue? c = some d) (hcount : count + digits.length ≤ 6) :
    afterQuoted? .text (.code value count) (digits ++ rest)
      = afterQuoted? .text
          (.code ((digits.filterMap hexValue?).foldl (fun n d => n * 16 + d) value)
            (count + digits.length)) rest := by
  induction digits generalizing value count with
  | nil => rfl
  | cons c digits ih =>
    obtain ⟨d, -, hd⟩ := h c List.mem_cons_self
    have hne : ∀ e, hexValue? e = none → c ≠ e := by
      rintro e he rfl
      rw [he] at hd
      exact absurd hd (by simp)
    rw [List.length_cons] at hcount
    have hnext : QuotedState.next? .text (.code value count) c
        = some (.code (value * 16 + d) (count + 1)) := by
      rw [QuotedState.next?, if_neg (fun hc => hne '_' (by decide) hc.1),
        if_neg (fun hc => hne '\x7d' (by decide) hc.1), hd]
      exact if_pos (by omega)
    rw [List.cons_append, afterQuoted?, if_neg (by simp), hnext, List.filterMap_cons_some hd,
      List.foldl_cons, List.length_cons, ← Nat.add_assoc, Nat.add_right_comm]
    exact ih _ _ (fun c hc => h c (List.mem_cons_of_mem _ hc)) (by omega)

/-- The code of a character stays inside the text. -/
theorem afterQuoted?_codePoint {n : Nat} {digits : List Char} (h : IsHexCode digits n)
    (hvalid : n.isValidChar) (rest : List Char) :
    afterQuoted? .text .plain (['\\', 'u', '\x7b'] ++ digits ++ ['\x7d'] ++ rest)
      = afterQuoted? .text .plain rest := by
  have hlength := h.length_le
  have hpos := h.length_pos
  have hnext : QuotedState.next? .text (.code n (0 + digits.length)) '\x7d' = some .plain := by
    rw [QuotedState.next?, if_neg (by simp), if_pos ⟨rfl, by omega⟩]
    exact if_pos (decide_eq_true hvalid)
  rw [List.append_assoc, List.append_assoc]
  show afterQuoted? .text (.code 0 0) (digits ++ '\x7d' :: rest) = _
  rw [afterQuoted?_code 0 0 _ _ h.exists_hexValue? (by omega), h.foldl_eq, afterQuoted?,
    if_neg (by simp), hnext]

theorem next?_letter {c letter : Char} (h : (c, letter) ∈ letterEscapes) :
    QuotedState.next? .text .escape letter = some .plain := by
  have hall : ∀ p ∈ letterEscapes, QuotedState.next? .text .escape p.2 = some .plain := by
    decide
  exact hall _ h

/-- However it is written, a character is passed. -/
theorem afterQuoted?_writtenChar {c : Char} {form : List Char} (h : WrittenChar c form)
    (rest : List Char) :
    afterQuoted? .text .plain (form ++ rest) = afterQuoted? .text .plain rest := by
  cases h with
  | plain h =>
    simp only [List.mem_cons, List.not_mem_nil, or_false, not_or] at h
    obtain ⟨hquote, hbackslash, -, hreturn⟩ := h
    have hnext : QuotedState.next? .text .plain c = some .plain := by
      rw [QuotedState.next?, if_neg (by simp), if_neg (by simp), if_neg hreturn,
        if_neg hbackslash]
      rfl
    show afterQuoted? .text .plain (c :: rest) = _
    rw [afterQuoted?, if_neg (fun h => hquote h.1), hnext]
  | letter h => exact afterQuoted?_escape rest (next?_letter h)
  | code h => exact afterQuoted?_codePoint h c.valid rest

/-- The closing quote of a text is found, however the text is written. -/
theorem afterQuoted?_written {cs inside : List Char} (h : Written cs inside) (rest : List Char) :
    afterQuoted? .text .plain (inside ++ '"' :: rest) = some rest := by
  induction h with
  | nil => rfl
  | cons h _ ih => rw [List.append_assoc, afterQuoted?_writtenChar h, ih]

/-! ## Words -/

/-- Whether characters make up a word: one that begins identifiers, then any that go on. -/
def isBareWord : List Char → Bool
  | [] => false
  | c :: cs => isIdentStart c && cs.all isIdentContinue

/-- Whether a word, a number or a text that ends here is not joined to what follows. -/
def isApart (rest : List Char) : Bool :=
  rest.head?.all fun c => !isIdentContinue c && c != '"' && c != '\'' && c != '#'

/-- None of the marks of a quoted literal stands here. -/
def NoMark (cs : List Char) : Prop :=
  ∀ c ∈ cs.head?, c ≠ '"' ∧ c ≠ '\'' ∧ c ≠ '#'

theorem noMark_cons {c : Char} (cs : List Char) (h : isIdentContinue c) : NoMark (c :: cs) := by
  rintro d hd
  obtain rfl : c = d := Option.some.inj hd
  exact ⟨ne_of_isIdentContinue h (by decide), ne_of_isIdentContinue h (by decide),
    ne_of_isIdentContinue h (by decide)⟩

section Words

variable {c : Char} {name rest : List Char}

/-- What keeps words apart is no mark of a literal. -/
theorem noMark_of_isApart (h : isApart rest) : NoMark rest := by
  intro c hc
  rw [isApart, Option.mem_def.1 hc, Option.all_some] at h
  simp only [Bool.and_eq_true, bne_iff_ne] at h
  exact ⟨h.1.1.2, h.1.2, h.2⟩

theorem noMark_append (hname : name.all isIdentContinue) (h : isApart rest) :
    NoMark (name ++ rest) := by
  cases name with
  | nil => exact noMark_of_isApart h
  | cons d name =>
    rw [List.all_cons, Bool.and_eq_true] at hname
    exact noMark_cons _ hname.1

theorem ne_of_isIdentStart {d : Char} (hc : isIdentStart c) (hd : isIdentContinue d = false) :
    c ≠ d :=
  ne_of_isIdentContinue (isIdentContinue_of_isIdentStart hc) hd

theorem isIdentContinue_of_isBareWord (h : isBareWord name) : ∀ c ∈ name, isIdentContinue c := by
  obtain _ | ⟨c, name⟩ := name
  · exact absurd h (by simp [isBareWord])
  rw [isBareWord, Bool.and_eq_true, List.all_eq_true] at h
  intro d hd
  rcases List.mem_cons.1 hd with rfl | hd
  · exact isIdentContinue_of_isIdentStart h.1
  · exact h.2 d hd

/-- An identifier does not begin with a digit. -/
theorem isDigit_eq_false (hc : isIdentStart c) : c.isDigit = false := by
  rw [← Bool.not_eq_true]
  intro hdigit
  have hcodes : ∀ n ≤ 57, 48 ≤ n → isIdentStart (Char.ofNat n) = false := by decide
  obtain ⟨hlow, hhigh⟩ := Char.isDigit_iff_toNat.1 hdigit
  have hfalse := hcodes c.toNat hhigh hlow
  rw [Char.ofNat_toNat, hc] at hfalse
  exact absurd hfalse (by simp)

theorem afterRawMark?_eq_none (kind : QuotedKind) (h : NoMark rest) :
    afterRawMark? kind rest = none := by
  cases rest with
  | nil => rfl
  | cons d cs =>
    obtain ⟨hquote, -, hhash⟩ := h d rfl
    have hhashes : hashes (d :: cs) = (0, d :: cs) := by
      unfold hashes
      split
      · next heq => exact absurd (List.cons.inj heq).1 hhash
      · rfl
    unfold afterRawMark?
    rw [hhashes]
    split
    · next heq =>
      have heq' := (Prod.mk.inj heq).2
      exact absurd (List.cons.inj heq').1 hquote
    · rfl

/-- A literal with letters before its quote has the quote or a number sign near its beginning. -/
theorem afterLiteral?_eq_none (hc : isIdentStart c) (h : NoMark rest)
    (hr : ∀ cs, rest = 'r' :: cs → NoMark cs) : afterLiteral? (c :: rest) = none := by
  have hne : ∀ {d : Char} {cs : List Char}, isIdentContinue d = false → c :: rest ≠ d :: cs :=
    fun hd heq => ne_of_isIdentStart hc hd (List.cons.inj heq).1
  unfold afterLiteral?
  split
  case h_1 heq => exact absurd heq (hne (by decide))
  case h_2 heq =>
    obtain ⟨-, rfl⟩ := List.cons.inj heq
    rw [afterRawMark?_eq_none _ h]
    rfl
  case h_3 heq =>
    obtain ⟨-, rfl⟩ := List.cons.inj heq
    exact absurd rfl (h _ rfl).1
  case h_4 heq =>
    obtain ⟨-, rfl⟩ := List.cons.inj heq
    rw [afterRawMark?_eq_none _ (hr _ rfl)]
    rfl
  case h_5 heq =>
    obtain ⟨-, rfl⟩ := List.cons.inj heq
    exact absurd rfl (h _ rfl).1
  case h_6 heq =>
    obtain ⟨-, rfl⟩ := List.cons.inj heq
    rw [afterRawMark?_eq_none _ (hr _ rfl)]
    rfl
  case h_7 heq =>
    obtain ⟨-, rfl⟩ := List.cons.inj heq
    exact absurd rfl (h _ rfl).2.1
  case h_8 heq => exact absurd heq (hne (by decide))
  case h_9 =>
    rw [afterNumber?, if_neg (by rw [isDigit_eq_false hc]; simp)]

/-- A word without a mark behind it opens no literal. -/
theorem opensLiteral_eq_false (h : NoMark rest) (hr : ∀ cs, rest = 'r' :: cs → NoMark cs) :
    opensLiteral (c :: rest) = false := by
  cases rest with
  | nil => simp [opensLiteral, List.isPrefixOf]
  | cons d cs =>
    obtain ⟨hquote, hsingle, hhash⟩ := h d rfl
    by_cases hd : d = 'r'
    · have hcs := hr cs (by rw [hd])
      cases cs with
      | nil => simp [opensLiteral, List.isPrefixOf, hd]
      | cons e cs =>
        obtain ⟨hquote', -, hhash'⟩ := hcs e rfl
        simp [opensLiteral, List.isPrefixOf, hd, hquote'.symm, hhash'.symm]
    · simp [opensLiteral, List.isPrefixOf, Ne.symm hd, hquote.symm, hsingle.symm, hhash.symm]

theorem lookup_signs_eq_none (hc : isIdentContinue c) : signs.lookup c = none := by
  rw [List.lookup_eq_none_iff]
  intro p hp
  have hsigns : ∀ p ∈ signs, isIdentContinue p.1 = false := by decide
  exact bne_iff_ne.2 (ne_of_isIdentContinue hc (hsigns p hp))

/-- What begins an identifier is no sign. -/
theorem sign?_eq_none (hc : isIdentStart c) : sign? (c :: rest) = none := by
  have hlookup := lookup_signs_eq_none (isIdentContinue_of_isIdentStart hc)
  have hne : ∀ {d : Char} {cs : List Char}, isIdentContinue d = false → c :: rest ≠ d :: cs :=
    fun hd heq => ne_of_isIdentStart hc hd (List.cons.inj heq).1
  unfold sign?
  split
  case h_1 heq => exact absurd heq (List.cons_ne_nil _ _)
  case h_8 heq =>
    obtain ⟨rfl, rfl⟩ := List.cons.inj heq
    split
    · rfl
    · rw [hlookup]
      rfl
  all_goals next heq => exact absurd heq (hne (by decide))

/-- The identifier of a word is passed in full. -/
theorem plainWord?_append (hname : isBareWord name) (h : isApart rest) :
    plainWord? (name ++ rest) = some (name, rest) := by
  cases name with
  | nil => exact absurd hname (by simp [isBareWord])
  | cons c name =>
    rw [isBareWord, Bool.and_eq_true, List.all_eq_true] at hname
    have hstop : ∀ d ∈ rest.head?, isIdentContinue d = false := by
      intro d hd
      rw [isApart, Option.mem_def.1 hd, Option.all_some] at h
      simp only [Bool.and_eq_true, Bool.not_eq_true'] at h
      exact h.1.1.1
    have htake : (name ++ rest).takeWhile isIdentContinue = name := by
      rw [List.takeWhile_append_of_pos hname.2]
      cases rest with
      | nil => simp
      | cons d cs => rw [List.takeWhile_cons, hstop d rfl]; simp
    have hdrop : afterWord (name ++ rest) = rest := by
      rw [afterWord, List.dropWhile_append_of_pos hname.2]
      cases rest with
      | nil => rfl
      | cons d cs => rw [List.dropWhile_cons, hstop d rfl]; simp
    rw [List.cons_append, plainWord?, if_pos hname.1, htake, hdrop]

theorem noMark_of_cons_r (hname : isBareWord (c :: name)) (h : isApart rest) :
    ∀ cs, name ++ rest = 'r' :: cs → NoMark cs := by
  intro cs hcs
  rw [isBareWord, Bool.and_eq_true] at hname
  cases name with
  | nil =>
    -- what follows a word of one letter is no letter
    have hhead : isApart ('r' :: cs) := by rw [← hcs]; exact h
    have hletter : isApart ('r' :: cs) = false := rfl
    rw [hletter] at hhead
    exact absurd hhead (by simp)
  | cons d name =>
    obtain ⟨-, rfl⟩ := List.cons.inj hcs
    rw [List.all_cons, Bool.and_eq_true] at hname
    exact noMark_append hname.2.2 h

/-- A word that stands apart is no literal. -/
theorem afterLiteral?_word (hname : isBareWord name) (h : isApart rest) :
    afterLiteral? (name ++ rest) = none ∧ opensLiteral (name ++ rest) = false := by
  cases name with
  | nil => exact absurd hname (by simp [isBareWord])
  | cons c name =>
    have hr := noMark_of_cons_r hname h
    rw [isBareWord, Bool.and_eq_true] at hname
    have hmark := noMark_append hname.2 h
    exact ⟨afterLiteral?_eq_none hname.1 hmark hr, opensLiteral_eq_false hmark hr⟩

/-- A word that stands apart is read as a whole. -/
theorem word?_append (hname : isBareWord name) (h : isApart rest) :
    word? (name ++ rest) = some (.ofWord (String.ofList name), rest) := by
  have hplain := plainWord?_append hname h
  unfold word?
  split
  · next cs heq =>
    -- a word is not followed by the mark of raw ones
    cases name with
    | nil => exact absurd hname (by simp [isBareWord])
    | cons c name =>
      rw [isBareWord, Bool.and_eq_true] at hname
      obtain ⟨-, heq⟩ := List.cons.inj heq
      have hmark := noMark_append hname.2 h
      rw [show name ++ rest = '#' :: cs from heq] at hmark
      exact absurd rfl (hmark _ rfl).2.2
  · rw [hplain]
    rfl

/-- A word that no literal or sign can be taken for is scanned in full. -/
theorem token?_word (hname : isBareWord name) (h : isApart rest) :
    token? (name ++ rest) = some (.ofWord (String.ofList name), rest) := by
  obtain ⟨hliteral, hopens⟩ := afterLiteral?_word hname h
  have hword := word?_append hname h
  cases name with
  | nil => exact absurd hname (by simp [isBareWord])
  | cons c name =>
    rw [isBareWord, Bool.and_eq_true] at hname
    have hmissing : afterMissing? (c :: (name ++ rest)) = none := by
      have hc : '(' ≠ c := (ne_of_isIdentStart hname.1 (by decide)).symm
      simp [afterMissing?, List.isPrefixOf, hc]
    have hquote : quote? (c :: (name ++ rest)) = none := by
      unfold quote?
      split
      · next heq =>
        exact absurd (List.cons.inj heq).1 (ne_of_isIdentStart hname.1 (by decide))
      · rfl
    rw [List.cons_append] at hliteral hopens hword ⊢
    rw [token?, hliteral, hmissing, hquote, sign?_eq_none hname.1, hopens, hword]
    rfl

theorem beginsComment_eq_false {cs : List Char} (h : c ≠ '/') :
    beginsComment (c :: cs) = false := by
  unfold beginsComment
  split
  case h_1 heq => exact absurd (List.cons.inj heq).1 h
  case h_2 heq => exact absurd (List.cons.inj heq).1 h
  case h_3 => rfl

/-- Outside comments and blanks, an element is a token. -/
theorem element?_token {cs : List Char} {t : Token} (hcomment : beginsComment (c :: cs) = false)
    (hc : isSeparator c = false) (h : token? (c :: cs) = some (t, rest)) :
    element? (c :: cs) = some ([t], rest) := by
  unfold element?
  split
  case h_10 heq => exact absurd heq (List.cons_ne_nil _ _)
  case h_11 heq =>
    obtain ⟨rfl, rfl⟩ := List.cons.inj heq
    rw [if_neg (by rw [hc]; simp), h]
  all_goals
    next heq =>
    rw [heq] at hcomment
    exact absurd hcomment (by simp [beginsComment])

theorem isSeparator_eq_false (h : isIdentContinue c) : isSeparator c = false := by
  have hne : ∀ n, isIdentContinue (Char.ofNat n) = false → c.toNat ≠ n := by
    intro n hn heq
    rw [← heq, Char.ofNat_toNat, h] at hn
    exact absurd hn (by simp)
  rw [isSeparator, isBlank_eq_false h, beq_eq_false_iff_ne.2 (hne 0x200e (by decide +kernel)),
    beq_eq_false_iff_ne.2 (hne 0x200f (by decide +kernel))]
  rfl

/-- A word that stands apart is one element. -/
theorem element?_word (hname : isBareWord name) (h : isApart rest) :
    element? (name ++ rest) = some ([.ofWord (String.ofList name)], rest) := by
  have htoken := token?_word hname h
  cases name with
  | nil => exact absurd hname (by simp [isBareWord])
  | cons c name =>
    rw [isBareWord, Bool.and_eq_true] at hname
    exact element?_token (beginsComment_eq_false (ne_of_isIdentStart hname.1 (by decide)))
      (isSeparator_eq_false (isIdentContinue_of_isIdentStart hname.1)) htoken

/-- A word behind a single quote is a lifetime. -/
theorem element?_lifetime (hname : isBareWord name) (h : isApart rest) :
    element? ('\'' :: (name ++ rest)) = some ([.lifetime], rest) := by
  obtain ⟨hliteral, hopens⟩ := afterLiteral?_word hname h
  have hword := word?_append hname h
  have hmark := noMark_of_isApart h
  have hchar : afterChar? .text (name ++ rest) = none := by
    cases name with
    | nil => exact absurd hname (by simp [isBareWord])
    | cons c name =>
      rw [isBareWord, Bool.and_eq_true] at hname
      have hmark := noMark_append hname.2 h
      rw [List.cons_append, afterChar?, if_neg (by simp)]
      split
      · next cs heq =>
        rw [Option.some.inj heq] at hmark
        exact absurd rfl (hmark _ rfl).2.1
      · rfl
      · intro heq
        exact absurd heq (ne_of_isIdentStart hname.1 (by decide))
  have hquote : quote? ('\'' :: (name ++ rest)) = some (.lifetime, rest) := by
    have hrest : ¬ (rest.head? = some '\'' ∨ rest.head? = some '#'
        ∧ !"r#".toList.isPrefixOf (name ++ rest)) := by
      rintro (hhead | ⟨hhead, -⟩)
      · exact (hmark _ hhead).2.1 rfl
      · exact (hmark _ hhead).2.2 rfl
    rw [quote?, hword]
    show (if _ then _ else _) = _
    rw [if_neg hrest, if_neg (by rw [hliteral, hopens]; simp)]
  refine element?_token (beginsComment_eq_false (by decide)) (by decide) ?_
  rw [token?, show afterLiteral? ('\'' :: (name ++ rest)) = none from hchar, hquote]
  rfl

end Words

/-! ## Numbers -/

/-- No digit in a base goes on here, and no gap between digits. -/
def StopsDigits (base : Nat) (cs : List Char) : Prop :=
  ∀ c ∈ cs.head?, c ≠ '_' ∧ ∀ d, hexValue? c = some d → base ≤ d ∧ c.isDigit = false

/-- Digits are passed up to what stops them. -/
theorem afterDigits?_append {base : Nat} {digits rest : List Char}
    (hdigits : ∀ c ∈ digits, ∃ d < base, hexValue? c = some d) (hrest : StopsDigits base rest)
    {isEmpty : Bool} (hne : isEmpty → digits ≠ []) :
    afterDigits? base isEmpty (digits ++ rest) = some rest := by
  induction digits generalizing isEmpty with
  | nil =>
    have hempty : isEmpty = false := by
      rw [← Bool.not_eq_true]
      exact fun h => hne h rfl
    rw [List.nil_append, hempty]
    cases rest with
    | nil => rfl
    | cons c cs =>
      obtain ⟨hgap, hvalue⟩ := hrest c rfl
      rw [afterDigits?, if_neg hgap]
      split
      · next d hd =>
        obtain ⟨hlow, hdigit⟩ := hvalue d hd
        rw [if_neg (by omega), if_neg (by rw [hdigit]; simp)]
      · rfl
  | cons c digits ih =>
    obtain ⟨d, hlow, hd⟩ := hdigits c List.mem_cons_self
    have hgap : c ≠ '_' := by
      rintro rfl
      have hnone : hexValue? '_' = none := by decide
      rw [hnone] at hd
      exact absurd hd (by simp)
    rw [List.cons_append, afterDigits?, if_neg hgap, hd]
    show (if d < base then _ else _) = _
    rw [if_pos hlow]
    exact ih (fun c hc => hdigits c (List.mem_cons_of_mem _ hc)) (by simp)

/-- Whether a number that ends here is not joined to what follows, not even by a point. -/
def endsNumber (rest : List Char) : Bool :=
  isApart rest && match rest with
    | '.' :: cs => cs.head?.any fun d => d == '.' || isIdentStart d
    | _ => true

/-- Whether characters can be the type at the end of an integer. -/
def isTypeSuffix : List Char → Bool
  | [] => true
  | c :: cs => (c == 'i' || c == 'u') && cs.all isIdentContinue

section Numbers

variable {digits suffix rest : List Char}

theorem isIdentContinue_of_isDigit {c : Char} (h : c.isDigit) : isIdentContinue c := by
  have hascii : c.toNat < 0x80 := by
    have hle : c.toNat ≤ 57 := (Char.isDigit_iff_toNat.1 h).2
    omega
  rw [isIdentContinue, if_pos hascii, Char.isAlphanum, h, Bool.or_true, Bool.true_or]

theorem isIdentContinue_eq_false_of_isApart {c : Char} {cs : List Char} (h : isApart (c :: cs)) :
    isIdentContinue c = false := by
  rw [isApart, List.head?_cons, Option.all_some] at h
  simp only [Bool.and_eq_true, Bool.not_eq_true'] at h
  exact h.1.1.1

/-- What ends a number keeps words apart. -/
theorem isApart_of_endsNumber (h : endsNumber rest) : isApart rest := by
  simp only [endsNumber, Bool.and_eq_true] at h
  exact h.1

theorem afterFraction?_append (hdigits : digits.all Char.isDigit) :
    afterFraction? false (digits ++ rest) = afterFraction? false rest := by
  induction digits with
  | nil => rfl
  | cons c digits ih =>
    rw [List.all_cons, Bool.and_eq_true] at hdigits
    rw [List.cons_append, afterFraction?, if_pos (.inl hdigits.1), ih hdigits.2]

/-- What follows the digits of an integer makes no fraction of it. -/
theorem afterFraction?_suffix (hsuffix : isTypeSuffix suffix) (hrest : endsNumber rest) :
    afterFraction? false (suffix ++ rest) = none := by
  cases suffix with
  | nil =>
    cases rest with
    | nil => rfl
    | cons c cs =>
      have hc := isIdentContinue_eq_false_of_isApart (isApart_of_endsNumber hrest)
      have hne : ∀ d, isIdentContinue d → c ≠ d := fun d hd =>
        (ne_of_isIdentContinue hd hc).symm
      have hdigit : ¬ (c.isDigit ∨ c = '_') := by
        rintro (hdigit | rfl)
        · rw [isIdentContinue_of_isDigit hdigit] at hc
          exact absurd hc (by simp)
        · exact hne '_' (by decide) rfl
      have hexponent : ¬ (c = 'e' ∨ c = 'E') := by
        rintro (rfl | rfl)
        · exact hne 'e' (by decide) rfl
        · exact hne 'E' (by decide) rfl
      rw [List.nil_append, afterFraction?, if_neg hdigit]
      by_cases hdot : c = '.'
      · rw [hdot, endsNumber, Bool.and_eq_true] at hrest
        rw [if_pos ⟨hdot, rfl⟩, if_pos hrest.2]
      · rw [if_neg (fun h => hdot h.1), if_neg hexponent]
        rfl
  | cons c cs =>
    rw [isTypeSuffix, Bool.and_eq_true, Bool.or_eq_true, beq_iff_eq, beq_iff_eq] at hsuffix
    rcases hsuffix.1 with rfl | rfl
    · rfl
    · rfl

theorem head?_typeSuffix (h : isTypeSuffix suffix) : ∀ c ∈ suffix.head?, c = 'i' ∨ c = 'u' := by
  intro c hc
  cases suffix with
  | nil => exact absurd hc (by simp)
  | cons d cs =>
    obtain rfl : d = c := Option.some.inj hc
    rw [isTypeSuffix, Bool.and_eq_true, Bool.or_eq_true, beq_iff_eq, beq_iff_eq] at h
    exact h.1

/-- What follows the digits of an integer does not go on them, and is no mark of a base. -/
theorem head?_suffix (hsuffix : isTypeSuffix suffix) (hrest : isApart rest) :
    ∀ c ∈ (suffix ++ rest).head?, c = 'i' ∨ c = 'u' ∨ isIdentContinue c = false := by
  intro c hc
  cases suffix with
  | nil =>
    cases rest with
    | nil => exact absurd hc (by simp)
    | cons d cs =>
      obtain rfl : d = c := Option.some.inj hc
      exact .inr (.inr (isIdentContinue_eq_false_of_isApart hrest))
  | cons d cs =>
    rcases head?_typeSuffix hsuffix c hc with h | h
    · exact .inl h
    · exact .inr (.inl h)

theorem hexValue?_eq_none {c : Char} (h : isIdentContinue c = false) : hexValue? c = none := by
  have hcodes : ∀ n < 103, hexValue? (Char.ofNat n) = none ∨ isIdentContinue (Char.ofNat n) := by
    decide +kernel
  by_cases hlow : c.toNat < 103
  · have hc := hcodes c.toNat hlow
    rw [Char.ofNat_toNat, h] at hc
    exact hc.resolve_right (by simp)
  · have hgreat : ∀ d : Char, d.toNat < 103 → ¬ c ≤ d := by
      intro d hd hle
      have hle' : c.toNat ≤ d.toNat := UInt32.le_iff_toNat_le.1 hle
      omega
    rw [hexValue?, if_neg (fun h => hgreat _ (by decide) h.2),
      if_neg (fun h => hgreat _ (by decide) h.2), if_neg (fun h => hgreat _ (by decide) h.2)]

theorem stopsDigits_suffix {base : Nat} (hsuffix : isTypeSuffix suffix) (hrest : isApart rest) :
    StopsDigits base (suffix ++ rest) := by
  intro c hc
  have hnone : c ≠ '_' ∧ hexValue? c = none := by
    rcases head?_suffix hsuffix hrest c hc with rfl | rfl | hfalse
    · exact ⟨by decide, by decide⟩
    · exact ⟨by decide, by decide⟩
    · exact ⟨(ne_of_isIdentContinue (by decide) hfalse).symm, hexValue?_eq_none hfalse⟩
  refine ⟨hnone.1, fun d hd => ?_⟩
  rw [hnone.2] at hd
  exact absurd hd (by simp)

/-- The type at the end of a number is passed. -/
theorem afterSuffix_append (hsuffix : isTypeSuffix suffix) (hrest : isApart rest) :
    afterSuffix (suffix ++ rest) = rest := by
  cases suffix with
  | nil =>
    cases rest with
    | nil => rfl
    | cons c cs =>
      have hc := isIdentContinue_eq_false_of_isApart hrest
      have hstart : isIdentStart c = false := by
        rw [← Bool.not_eq_true]
        intro hstart
        rw [isIdentContinue_of_isIdentStart hstart] at hc
        exact absurd hc (by simp)
      rw [List.nil_append, afterSuffix, plainWord?, if_neg (by rw [hstart]; simp)]
  | cons c cs =>
    have hword : isBareWord (c :: cs) := by
      rw [isTypeSuffix, Bool.and_eq_true, Bool.or_eq_true, beq_iff_eq, beq_iff_eq] at hsuffix
      rw [isBareWord, Bool.and_eq_true]
      refine ⟨?_, hsuffix.2⟩
      rcases hsuffix.1 with rfl | rfl
      · decide
      · decide
    rw [afterSuffix, plainWord?_append hword hrest]

/-- The type at the end of an integer is passed, and nothing after it. -/
theorem afterNumberSuffix?_append (hsuffix : isTypeSuffix suffix) (hrest : isApart rest) :
    afterNumberSuffix? (suffix ++ rest) = some rest := by
  have hends : wordEnds rest := by
    cases rest with
    | nil => rfl
    | cons c cs => rw [wordEnds, isIdentContinue_eq_false_of_isApart hrest]; rfl
  rw [afterNumberSuffix?, afterSuffix_append hsuffix hrest]
  exact if_pos hends

theorem hexValue?_of_isDigit {c : Char} (h : c.isDigit) : ∃ d < 10, hexValue? c = some d := by
  have hcodes : ∀ n ≤ 57, 48 ≤ n → ∃ d < 10, hexValue? (Char.ofNat n) = some d := by decide
  obtain ⟨hlow, hhigh⟩ := Char.isDigit_iff_toNat.1 h
  have hc := hcodes c.toNat hhigh hlow
  rw [Char.ofNat_toNat] at hc
  exact hc

/-- No letter that marks a base follows the first digit of a decimal integer. -/
theorem decimal_ne_mark (hdigits : digits.all Char.isDigit) (hne : digits ≠ [])
    (hsuffix : isTypeSuffix suffix) (hrest : isApart rest) {b : Char} {cs : List Char}
    (hb : b = 'x' ∨ b = 'o' ∨ b = 'b') : digits ++ (suffix ++ rest) ≠ '0' :: b :: cs := by
  intro heq
  have hletter : b.isDigit = false ∧ b ≠ 'i' ∧ b ≠ 'u' ∧ isIdentContinue b = true := by
    rcases hb with rfl | rfl | rfl <;> decide
  cases digits with
  | nil => exact hne rfl
  | cons c digits =>
    obtain ⟨-, heq⟩ := List.cons.inj heq
    cases digits with
    | nil =>
      have hhead : b ∈ (suffix ++ rest).head? := by
        rw [show suffix ++ rest = b :: cs from heq]
        rfl
      rcases head?_suffix hsuffix hrest b hhead with h | h | h
      · exact hletter.2.1 h
      · exact hletter.2.2.1 h
      · rw [hletter.2.2.2] at h
        exact absurd h (by simp)
    | cons d digits =>
      obtain ⟨rfl, -⟩ := List.cons.inj heq
      simp only [List.all_cons, Bool.and_eq_true] at hdigits
      rw [hletter.1] at hdigits
      exact absurd hdigits.2.1 (by simp)

theorem hexValue?_of_all_isDigit (hdigits : digits.all Char.isDigit) :
    ∀ c ∈ digits, ∃ d < 10, hexValue? c = some d :=
  fun c hc => hexValue?_of_isDigit (List.all_eq_true.1 hdigits c hc)

/-- A decimal integer is passed with its type. -/
theorem afterNumber?_decimal (hdigits : digits.all Char.isDigit) (hne : digits ≠ [])
    (hsuffix : isTypeSuffix suffix) (hrest : endsNumber rest) :
    afterNumber? (digits ++ (suffix ++ rest)) = some rest := by
  have hapart := isApart_of_endsNumber hrest
  have hinteger : afterInteger? (digits ++ (suffix ++ rest)) = some (suffix ++ rest) := by
    have hten : afterDigits? 10 true (digits ++ (suffix ++ rest)) = some (suffix ++ rest) :=
      afterDigits?_append (hexValue?_of_all_isDigit hdigits) (stopsDigits_suffix hsuffix hapart)
        (fun _ => hne)
    have hmark : ∀ {b : Char} {cs : List Char}, b = 'x' ∨ b = 'o' ∨ b = 'b' →
        digits ++ (suffix ++ rest) ≠ '0' :: b :: cs :=
      decimal_ne_mark hdigits hne hsuffix hapart
    unfold afterInteger?
    split
    case h_1 heq => exact absurd heq (hmark (by decide))
    case h_2 heq => exact absurd heq (hmark (by decide))
    case h_3 heq => exact absurd heq (hmark (by decide))
    case h_4 => exact hten
  cases digits with
  | nil => exact absurd rfl hne
  | cons c digits =>
    rw [List.all_cons, Bool.and_eq_true] at hdigits
    rw [List.cons_append] at hinteger ⊢
    rw [afterNumber?, if_pos hdigits.1, afterFraction?_append hdigits.2,
      afterFraction?_suffix hsuffix hrest, hinteger]
    exact afterNumberSuffix?_append hsuffix hapart

/-- An integer in base sixteen is passed. -/
theorem afterNumber?_hex (hdigits : ∀ c ∈ digits, ∃ d < 16, hexValue? c = some d)
    (hne : digits ≠ []) (hrest : isApart rest) :
    afterNumber? ('0' :: 'x' :: (digits ++ rest)) = some rest := by
  have hfraction : afterFraction? false ('x' :: (digits ++ rest)) = none := rfl
  have hinteger : afterInteger? ('0' :: 'x' :: (digits ++ rest)) = some rest := by
    rw [afterInteger?]
    have hstop : StopsDigits 16 rest :=
      stopsDigits_suffix (rfl : isTypeSuffix [] = true) hrest
    exact afterDigits?_append hdigits hstop fun _ => hne
  have hsuffix : afterNumberSuffix? rest = some rest :=
    afterNumberSuffix?_append (rfl : isTypeSuffix [] = true) hrest
  rw [afterNumber?, if_pos (by decide), hfraction, hinteger]
  exact hsuffix

/-- The digits of an integer are taken, and nothing after them. -/
theorem span_digits {base : Nat} (hdigits : ∀ c ∈ digits, ∃ d < base, hexValue? c = some d)
    (hrest : StopsDigits base rest) :
    (digits ++ rest).takeWhile (isDigitOrGap base) = digits
      ∧ (digits ++ rest).dropWhile (isDigitOrGap base) = rest := by
  have hall : ∀ c ∈ digits, isDigitOrGap base c := by
    intro c hc
    obtain ⟨d, hlow, hd⟩ := hdigits c hc
    rw [isDigitOrGap, hd, Option.any_some, decide_eq_true hlow, Bool.or_true]
  have hstop : ∀ c ∈ rest.head?, isDigitOrGap base c = false := by
    intro c hc
    obtain ⟨hgap, hvalue⟩ := hrest c hc
    rw [isDigitOrGap, beq_eq_false_iff_ne.2 hgap, Bool.false_or]
    cases hd : hexValue? c with
    | none => rfl
    | some d => exact decide_eq_false (Nat.not_lt.2 (hvalue d hd).1)
  rw [List.takeWhile_append_of_pos hall, List.dropWhile_append_of_pos hall]
  cases rest with
  | nil => simp
  | cons c cs =>
    rw [List.takeWhile_cons, List.dropWhile_cons, hstop c rfl]
    simp

/-- The kind of an integer with these digits and this suffix. -/
def suffixedKind (base : Nat) (digits suffix : List Char) : LiteralKind :=
  if suffix.isEmpty && isFieldNumber base digits then .index else .number

/-- The kind of an integer depends on its digits and the type at its end. -/
theorem integerKind_append {base : Nat} (hdigits : ∀ c ∈ digits, ∃ d < base, hexValue? c = some d)
    (hsuffix : isTypeSuffix suffix) (hrest : isApart rest) :
    integerKind base (digits ++ (suffix ++ rest)) = suffixedKind base digits suffix := by
  obtain ⟨htake, hdrop⟩ := span_digits hdigits (stopsDigits_suffix hsuffix hrest)
  have hends : wordEnds (suffix ++ rest) = suffix.isEmpty := by
    cases suffix with
    | nil =>
      cases rest with
      | nil => rfl
      | cons c cs => rw [List.nil_append, wordEnds, isIdentContinue_eq_false_of_isApart hrest]; rfl
    | cons c cs =>
      rcases head?_typeSuffix hsuffix c rfl with rfl | rfl
      · rfl
      · rfl
  simp only [integerKind, htake, hdrop, hends, suffixedKind, Bool.and_eq_true]

/-- A point after a decimal integer is one of two, so that it makes no fraction of the integer. -/
theorem numberKind_decimal (hdigits : digits.all Char.isDigit) (hne : digits ≠ [])
    (hsuffix : isTypeSuffix suffix) (hrest : endsNumber rest) :
    numberKind (digits ++ (suffix ++ rest)) = suffixedKind 10 digits suffix := by
  have hapart := isApart_of_endsNumber hrest
  have hten := hexValue?_of_all_isDigit hdigits
  have hmark : ∀ {b : Char} {cs : List Char}, b = 'x' ∨ b = 'o' ∨ b = 'b' →
      digits ++ (suffix ++ rest) ≠ '0' :: b :: cs :=
    decimal_ne_mark hdigits hne hsuffix hapart
  unfold numberKind
  split
  case h_1 heq => exact absurd heq (hmark (by decide))
  case h_2 heq => exact absurd heq (hmark (by decide))
  case h_3 heq => exact absurd heq (hmark (by decide))
  case h_4 =>
    rw [(span_digits hten (stopsDigits_suffix hsuffix hapart)).2]
    split
    · next cs heq =>
      have hpoint : (cs.head?.any fun d => d == '.' || isIdentStart d) = true := by
        cases suffix with
        | nil =>
          rw [show rest = '.' :: cs from heq, endsNumber, Bool.and_eq_true] at hrest
          exact hrest.2
        | cons c suffix =>
          have hc := head?_typeSuffix hsuffix c rfl
          rw [(List.cons.inj heq).1] at hc
          exact absurd hc (by decide)
      rw [if_pos hpoint, integerKind_append hten hsuffix hapart]
    · exact integerKind_append hten hsuffix hapart

/-- A literal that begins with a digit is a number. -/
theorem element?_digit {c : Char} {cs : List Char} (hc : c.isDigit)
    (h : afterNumber? (c :: cs) = some rest) :
    element? (c :: cs) = some ([.literal (numberKind (c :: cs))], rest) := by
  have hcontinue := isIdentContinue_of_isDigit hc
  have hne : ∀ {d : Char} {ds : List Char}, d.isDigit = false → c :: cs ≠ d :: ds := by
    intro d ds hd heq
    rw [(List.cons.inj heq).1, hd] at hc
    exact absurd hc (by simp)
  have hliteral : afterLiteral? (c :: cs) = some rest := by
    unfold afterLiteral?
    split
    case h_9 => exact h
    all_goals next heq => exact absurd heq (hne (by decide))
  have hkind : literalKind (c :: cs) = numberKind (c :: cs) := by
    unfold literalKind
    split
    case h_1 heq => exact absurd heq (hne (by decide))
    case h_2 heq => exact absurd heq (hne (by decide))
    case h_3 heq =>
      rw [← (List.cons.inj heq).1, if_pos hc]
    case h_4 heq => exact absurd heq (List.cons_ne_nil _ _)
  refine element?_token (beginsComment_eq_false (ne_of_isIdentContinue hcontinue (by decide)))
    (isSeparator_eq_false hcontinue) ?_
  rw [token?, hliteral, hkind]

theorem element?_decimal (hdigits : digits.all Char.isDigit) (hne : digits ≠ [])
    (hsuffix : isTypeSuffix suffix) (hrest : endsNumber rest) :
    element? (digits ++ (suffix ++ rest))
      = some ([.literal (suffixedKind 10 digits suffix)], rest) := by
  have hafter := afterNumber?_decimal hdigits hne hsuffix hrest
  rw [← numberKind_decimal hdigits hne hsuffix hrest]
  cases digits with
  | nil => exact absurd rfl hne
  | cons c digits =>
    rw [List.all_cons, Bool.and_eq_true] at hdigits
    exact element?_digit hdigits.1 hafter

theorem element?_hex (hdigits : ∀ c ∈ digits, ∃ d < 16, hexValue? c = some d) (hne : digits ≠ [])
    (hrest : isApart rest) :
    element? ('0' :: 'x' :: (digits ++ rest))
      = some ([.literal (suffixedKind 16 digits [])], rest) := by
  have hkind : integerKind 16 (digits ++ rest) = suffixedKind 16 digits [] :=
    integerKind_append hdigits (rfl : isTypeSuffix [] = true) hrest
  have helement := element?_digit (by decide) (afterNumber?_hex hdigits hne hrest)
  rw [helement, numberKind, hkind]

end Numbers

/-! ## Quoted texts, signs and brackets -/

section Signs

variable {rest : List Char}

/-- However a text is written, it is one token between its quotes. -/
theorem element?_written {cs inside : List Char} (h : Written cs inside) (hrest : isApart rest) :
    element? ('"' :: inside ++ '"' :: rest) = some ([.literal .text], rest) := by
  have hafter : afterSuffix rest = rest :=
    afterSuffix_append (rfl : isTypeSuffix [] = true) hrest
  have hliteral : afterLiteral? ('"' :: (inside ++ '"' :: rest)) = some rest := by
    rw [afterLiteral?, afterQuoted?_written h, Option.map_some, hafter]
  rw [List.cons_append]
  refine element?_token (beginsComment_eq_false (by decide)) (by decide) ?_
  rw [token?, hliteral]
  rfl

/-- Neither a literal nor a lifetime begins with this character. -/
def isPlainMark (c : Char) : Bool :=
  !isIdentContinue c && c != '"' && c != '\'' && !isSeparator c

theorem token?_mark {c : Char} (hc : isPlainMark c) (hmissing : c = '(' → rest.head? ≠ some '/')
    {t : Token} (h : sign? (c :: rest) = some (t, rest)) :
    token? (c :: rest) = some (t, rest) := by
  simp only [isPlainMark, Bool.and_eq_true, Bool.not_eq_true', bne_iff_ne] at hc
  have hne : ∀ {d : Char} {cs : List Char}, isIdentContinue d ∨ d = '"' ∨ d = '\'' →
      c :: rest ≠ d :: cs := by
    intro d cs hd heq
    obtain ⟨rfl, -⟩ := List.cons.inj heq
    rcases hd with hd | hd | hd
    · rw [hc.1.1.1] at hd
      exact absurd hd (by simp)
    · exact hc.1.1.2 hd
    · exact hc.1.2 hd
  have hliteral : afterLiteral? (c :: rest) = none := by
    unfold afterLiteral?
    split
    case h_9 =>
      rw [afterNumber?, if_neg]
      intro hdigit
      exact hne (.inl (isIdentContinue_of_isDigit hdigit)) rfl
    all_goals next heq => exact absurd heq (hne (by decide))
  have hmark : afterMissing? (c :: rest) = none := by
    unfold afterMissing?
    refine if_neg fun hprefix => ?_
    cases rest with
    | nil => simp [List.isPrefixOf] at hprefix
    | cons d cs =>
      simp only [String.reduceToList, List.isPrefixOf, Bool.and_eq_true, beq_iff_eq] at hprefix
      exact hmissing hprefix.1.symm (by rw [← hprefix.2.1]; rfl)
  have hquote : quote? (c :: rest) = none := by
    unfold quote?
    split
    · next heq => exact absurd heq (hne (.inr (.inr rfl)))
    · rfl
  rw [token?, hliteral, hmark, hquote, h]

/-- A sign is scanned for itself if no comment begins with it. -/
theorem element?_sign {c : Char} {s : Sign} (hc : (c, s) ∈ signs)
    (hcomment : beginsComment (c :: rest) = false) :
    element? (c :: rest) = some ([.sign s (beginsSign rest)], rest) := by
  have hsigns : ∀ p ∈ signs, isPlainMark p.1 ∧ isSeparator p.1 = false ∧ p.1 ≠ '('
      ∧ signs.lookup p.1 = some p.2 := by decide
  obtain ⟨hmark, hseparator, hparen, hlookup⟩ := hsigns _ hc
  refine element?_token hcomment hseparator (token?_mark hmark (fun h => absurd h hparen) ?_)
  unfold sign?
  split
  case h_8 heq =>
    obtain ⟨rfl, rfl⟩ := List.cons.inj heq
    rw [if_neg (by rw [hcomment]; simp), hlookup]
    rfl
  case h_1 heq => exact absurd heq (List.cons_ne_nil _ _)
  all_goals
    next heq =>
    obtain ⟨rfl, rfl⟩ := List.cons.inj heq
    exact absurd hlookup.symm (Option.some_ne_none _)

/-- The spelling of an opening bracket. -/
def openingChar : Bracket → Char
  | .paren => '('
  | .square => '['
  | .brace => '\x7b'

/-- The spelling of a closing bracket. -/
def closingChar : Bracket → Char
  | .paren => ')'
  | .square => ']'
  | .brace => '\x7d'

theorem element?_opening (b : Bracket) (hrest : rest.head? ≠ some '/') :
    element? (openingChar b :: rest) = some ([.opening b], rest) := by
  cases b with
  | paren =>
    exact element?_token (beginsComment_eq_false (by decide)) (by decide)
      (token?_mark (by decide) (fun _ => hrest) rfl)
  | square =>
    exact element?_token (beginsComment_eq_false (by decide)) (by decide)
      (token?_mark (by decide) (fun _ => hrest) rfl)
  | brace =>
    exact element?_token (beginsComment_eq_false (by decide)) (by decide)
      (token?_mark (by decide) (fun _ => hrest) rfl)

theorem element?_closing (b : Bracket) :
    element? (closingChar b :: rest) = some ([.closing b], rest) := by
  cases b with
  | paren =>
    exact element?_token (beginsComment_eq_false (by decide)) (by decide)
      (token?_mark (by decide) (fun h => absurd h (by decide)) rfl)
  | square =>
    exact element?_token (beginsComment_eq_false (by decide)) (by decide)
      (token?_mark (by decide) (fun h => absurd h (by decide)) rfl)
  | brace =>
    exact element?_token (beginsComment_eq_false (by decide)) (by decide)
      (token?_mark (by decide) (fun h => absurd h (by decide)) rfl)

end Signs

end EnumNames.Target
