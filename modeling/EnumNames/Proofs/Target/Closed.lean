import EnumNames.Proofs.Target.Identifier

/-!
# Texts in front of a closing parenthesis

A text that is scanned to its end keeps its tokens when a closing parenthesis follows it: nothing of
what a token may be made of begins with that, and a text without comments does not hide it.

* `plainWord?_closed`, `afterNumber?_closed`, …: what each recogniser passes.
* `token?_closed`, `element?_closed`: tokens and elements.
-/

namespace EnumNames.Target

open Text

variable {cs rest : List Char} {t : Token} {ts : List Token}

/-- A text with a closing parenthesis and more behind it. -/
def closedBy (cs tail : List Char) : List Char :=
  cs ++ ')' :: tail

section Closed

variable (tail : List Char)

theorem closedBy_nil : closedBy [] tail = ')' :: tail := rfl

theorem closedBy_cons (c : Char) (cs : List Char) :
    closedBy (c :: cs) tail = c :: closedBy cs tail :=
  rfl

/-- A first character that is no parenthesis belongs to the text. -/
theorem eq_cons_of_closedBy {c : Char} {ds : List Char} (h : closedBy cs tail = c :: ds)
    (hc : c ≠ ')') : ∃ cs', cs = c :: cs' ∧ ds = closedBy cs' tail := by
  cases cs with
  | nil => exact absurd (List.cons.inj h).1.symm hc
  | cons d cs =>
    obtain ⟨rfl, rfl⟩ := List.cons.inj h
    exact ⟨cs, rfl, rfl⟩

/-! ## Words -/

/-- What is taken from the front does not reach the parenthesis. -/
theorem takeWhile_closed {p : Char → Bool} (hp : p ')' = false) (cs : List Char) :
    (closedBy cs tail).takeWhile p = cs.takeWhile p := by
  induction cs with
  | nil => rw [closedBy_nil, List.takeWhile_cons, if_neg (by simp [hp]), List.takeWhile_nil]
  | cons c cs ih => rw [closedBy_cons, List.takeWhile_cons, List.takeWhile_cons, ih]

theorem dropWhile_closed {p : Char → Bool} (hp : p ')' = false) (cs : List Char) :
    (closedBy cs tail).dropWhile p = closedBy (cs.dropWhile p) tail := by
  induction cs with
  | nil => rw [closedBy_nil, List.dropWhile_cons, if_neg (by simp [hp])]; rfl
  | cons c cs ih =>
    rw [closedBy_cons, List.dropWhile_cons, List.dropWhile_cons, ih]
    split <;> rfl

theorem isIdentContinue_close : isIdentContinue ')' = false := by
  decide

theorem isIdentStart_close : isIdentStart ')' = false := by
  decide

theorem wordEnds_closed (cs : List Char) : wordEnds (closedBy cs tail) = wordEnds cs := by
  cases cs with
  | nil => exact congrArg not isIdentContinue_close
  | cons c cs => rfl

/-- A word ends in front of the parenthesis. -/
theorem plainWord?_closed (cs : List Char) : plainWord? (closedBy cs tail)
    = (plainWord? cs).map fun (name, rest) => (name, closedBy rest tail) := by
  cases cs with
  | nil => simp [closedBy_nil, plainWord?, isIdentStart_close]
  | cons c cs =>
    rw [closedBy_cons, plainWord?, plainWord?, takeWhile_closed tail isIdentContinue_close,
      afterWord, dropWhile_closed tail isIdentContinue_close]
    split <;> rfl

theorem afterSuffix_closed (cs : List Char) :
    afterSuffix (closedBy cs tail) = closedBy (afterSuffix cs) tail := by
  rw [afterSuffix, afterSuffix, plainWord?_closed]
  cases plainWord? cs <;> rfl

/-- A mark at the beginning is not completed. -/
theorem isPrefixOf_closed {mark : List Char} (hmark : ')' ∉ mark) (cs : List Char) :
    mark.isPrefixOf (closedBy cs tail) = mark.isPrefixOf cs := by
  induction mark generalizing cs with
  | nil => simp
  | cons m mark ih =>
    rw [List.mem_cons, not_or] at hmark
    cases cs with
    | nil => simp [closedBy_nil, List.isPrefixOf, Ne.symm hmark.1]
    | cons c cs =>
      rw [closedBy_cons, List.isPrefixOf_cons_cons, List.isPrefixOf_cons_cons, ih hmark.2]

theorem word?_closed (cs : List Char) : word? (closedBy cs tail)
    = (word? cs).map fun (t, rest) => (t, closedBy rest tail) := by
  by_cases hraw : ∃ ds, cs = 'r' :: '#' :: ds
  · obtain ⟨ds, rfl⟩ := hraw
    rw [closedBy_cons, closedBy_cons, word?, word?, plainWord?_closed]
    cases plainWord? ds with
    | none => rfl
    | some found =>
      simp only [Option.map_some]
      split <;> rfl
  · have hplain : ∀ ds, cs ≠ 'r' :: '#' :: ds := fun ds hds => hraw ⟨ds, hds⟩
    have hclosed : ∀ ds, closedBy cs tail ≠ 'r' :: '#' :: ds := by
      intro ds hds
      have hbegins : "r#".toList.isPrefixOf (closedBy cs tail) = true := by simp [hds]
      rw [isPrefixOf_closed tail (by decide)] at hbegins
      obtain ⟨rest, hrest⟩ := List.isPrefixOf_iff_prefix.1 hbegins
      exact hplain rest hrest.symm
    rw [word?.eq_2 _ hplain, word?.eq_2 _ hclosed, plainWord?_closed]
    cases plainWord? cs <;> rfl

/-! ## Numbers -/

theorem afterNumberSuffix?_closed (cs : List Char) : afterNumberSuffix? (closedBy cs tail)
    = (afterNumberSuffix? cs).map (closedBy · tail) := by
  rw [afterNumberSuffix?, afterNumberSuffix?, afterSuffix_closed, wordEnds_closed]
  split <;> rfl

theorem hexValue?_close : hexValue? ')' = none := by
  decide

/-- Digits end in front of the parenthesis. -/
theorem afterDigits?_closed (base : Nat) (isEmpty : Bool) (cs : List Char) :
    afterDigits? base isEmpty (closedBy cs tail)
      = (afterDigits? base isEmpty cs).map (closedBy · tail) := by
  fun_induction afterDigits? base isEmpty cs <;>
    grind [closedBy_cons, closedBy_nil, afterDigits?, hexValue?_close]

theorem afterExponent?_closed (hasSign hasDigit : Bool) (cs : List Char) :
    afterExponent? hasSign hasDigit (closedBy cs tail)
      = (afterExponent? hasSign hasDigit cs).map (closedBy · tail) := by
  fun_induction afterExponent? hasSign hasDigit cs <;>
    simp_all [closedBy_cons, closedBy_nil, afterExponent?]

/-- The base that a number marks, and its digits. -/
def baseMark? : List Char → Option (Nat × List Char)
  | '0' :: 'x' :: cs => some (16, cs)
  | '0' :: 'o' :: cs => some (8, cs)
  | '0' :: 'b' :: cs => some (2, cs)
  | _ => none

theorem baseMark?_closed (cs : List Char) : baseMark? (closedBy cs tail)
    = (baseMark? cs).map fun (base, digits) => (base, closedBy digits tail) := by
  match cs with
  | [] => rfl
  | [c] =>
    unfold baseMark?
    split <;> simp_all [closedBy_cons, closedBy_nil]
  | c :: d :: cs =>
    rw [closedBy_cons, closedBy_cons]
    unfold baseMark?
    split <;> split <;> simp_all

theorem afterInteger?_eq (cs : List Char) : afterInteger? cs = match baseMark? cs with
    | some (base, digits) => afterDigits? base true digits
    | none => afterDigits? 10 true cs := by
  fun_cases baseMark? cs with
  | case4 cs hx ho hb => exact afterInteger?.eq_4 cs hx ho hb
  | _ => rfl

theorem afterInteger?_closed (cs : List Char) :
    afterInteger? (closedBy cs tail) = (afterInteger? cs).map (closedBy · tail) := by
  rw [afterInteger?_eq, afterInteger?_eq, baseMark?_closed]
  cases baseMark? cs with
  | none => exact afterDigits?_closed tail 10 true cs
  | some mark => exact afterDigits?_closed tail mark.1 true mark.2

/-- Whether a point before a text is no part of a number. -/
theorem head?_any_closed (cs : List Char) :
    (closedBy cs tail).head?.any (fun d => d == '.' || isIdentStart d)
      = cs.head?.any fun d => d == '.' || isIdentStart d := by
  cases cs with
  | nil => simp [closedBy_nil, isIdentStart_close]
  | cons c cs => rfl

theorem afterFraction?_closed (hasDot : Bool) (cs : List Char) :
    afterFraction? hasDot (closedBy cs tail)
      = (afterFraction? hasDot cs).map (closedBy · tail) := by
  fun_induction afterFraction? hasDot cs <;>
    simp_all [closedBy_cons, closedBy_nil, afterFraction?, afterExponent?_closed, head?_any_closed]

theorem afterNumber?_closed (cs : List Char) :
    afterNumber? (closedBy cs tail) = (afterNumber? cs).map (closedBy · tail) := by
  cases cs with
  | nil => rfl
  | cons c cs =>
    have hfraction : (afterFraction? false (closedBy cs tail)).bind afterNumberSuffix?
        = ((afterFraction? false cs).bind afterNumberSuffix?).map (closedBy · tail) := by
      rw [afterFraction?_closed, Option.bind_map, Option.map_bind]
      exact congrArg _ (funext fun cs => afterNumberSuffix?_closed tail cs)
    have hinteger : (afterInteger? (closedBy (c :: cs) tail)).bind afterNumberSuffix?
        = ((afterInteger? (c :: cs)).bind afterNumberSuffix?).map (closedBy · tail) := by
      rw [afterInteger?_closed, Option.bind_map, Option.map_bind]
      exact congrArg _ (funext fun cs => afterNumberSuffix?_closed tail cs)
    rw [closedBy_cons, afterNumber?, afterNumber?, hfraction, ← closedBy_cons, hinteger]
    split
    · cases (afterFraction? false cs).bind afterNumberSuffix? <;> rfl
    · rfl

theorem isDigitOrGap_close (base : Nat) : isDigitOrGap base ')' = false := by
  rw [isDigitOrGap, hexValue?_close]
  rfl

theorem integerKind_closed (base : Nat) (cs : List Char) :
    integerKind base (closedBy cs tail) = integerKind base cs := by
  rw [integerKind, integerKind, dropWhile_closed tail (isDigitOrGap_close base),
    takeWhile_closed tail (isDigitOrGap_close base), wordEnds_closed]

theorem fractionKind_closed (whole cs : List Char) :
    fractionKind whole (closedBy cs tail) = fractionKind whole cs := by
  have hdrop : (closedBy cs tail).drop (cs.takeWhile (isDigitOrGap 10)).length
      = closedBy (cs.drop (cs.takeWhile (isDigitOrGap 10)).length) tail :=
    List.drop_append_of_le_length (List.takeWhile_prefix _).length_le
  rw [fractionKind, fractionKind, takeWhile_closed tail (isDigitOrGap_close 10), hdrop,
    wordEnds_closed]

/-- The kind of a number that has no mark of a base. -/
def decimalKind (cs : List Char) : LiteralKind :=
  match cs.dropWhile (isDigitOrGap 10) with
  | '.' :: rest =>
    if rest.head?.any fun d => d == '.' || isIdentStart d then integerKind 10 cs
    else fractionKind (cs.takeWhile (isDigitOrGap 10)) rest
  | _ => integerKind 10 cs

theorem decimalKind_closed (cs : List Char) : decimalKind (closedBy cs tail) = decimalKind cs := by
  rw [decimalKind, decimalKind, dropWhile_closed tail (isDigitOrGap_close 10),
    takeWhile_closed tail (isDigitOrGap_close 10), integerKind_closed]
  cases cs.dropWhile (isDigitOrGap 10) with
  | nil => rfl
  | cons c rest =>
    rw [closedBy_cons]
    by_cases hc : c = '.'
    · simp only [hc, head?_any_closed, fractionKind_closed]
    · have hother : ∀ ds rest, c :: ds ≠ '.' :: rest := fun ds rest h => hc (List.cons.inj h).1
      simp [hother]

theorem numberKind_eq (cs : List Char) : numberKind cs = match baseMark? cs with
    | some (base, digits) => integerKind base digits
    | none => decimalKind cs := by
  fun_cases baseMark? cs with
  | case4 cs hx ho hb => exact numberKind.eq_4 cs hx ho hb
  | _ => rfl

/-- A number is of the same kind in front of the parenthesis. -/
theorem numberKind_closed (cs : List Char) : numberKind (closedBy cs tail) = numberKind cs := by
  rw [numberKind_eq, numberKind_eq, baseMark?_closed]
  cases baseMark? cs with
  | none => exact decimalKind_closed tail cs
  | some mark => exact integerKind_closed tail mark.1 mark.2

theorem literalKind_closed (h : cs ≠ []) : literalKind (closedBy cs tail) = literalKind cs := by
  obtain ⟨c, cs, rfl⟩ := List.exists_cons_of_ne_nil h
  have hnumber := numberKind_closed tail (c :: cs)
  rw [closedBy_cons] at hnumber ⊢
  unfold literalKind
  split <;> simp_all

/-! ## Quoted literals -/

/-- A text that is closed is closed in front of the parenthesis. -/
theorem afterQuoted?_append {kind : QuotedKind} {state : QuotedState}
    (h : afterQuoted? kind state cs = some rest) :
    afterQuoted? kind state (closedBy cs tail) = some (closedBy rest tail) := by
  fun_induction afterQuoted? kind state cs <;> simp_all [closedBy_cons, afterQuoted?]

theorem hashes_closed (cs : List Char) :
    hashes (closedBy cs tail) = ((hashes cs).1, closedBy (hashes cs).2 tail) := by
  fun_induction hashes cs with
  | case1 cs ih => rw [closedBy_cons, hashes, ih]
  | case2 cs hcs =>
    cases cs with
    | nil => rfl
    | cons c cs =>
      rw [closedBy_cons, hashes]
      intro ds hds
      exact hcs cs (by rw [(List.cons.inj hds).1])

theorem fst_hashes_le (cs : List Char) : (hashes cs).1 ≤ cs.length := by
  fun_induction hashes cs with
  | case1 cs ih => exact Nat.succ_le_succ ih
  | case2 cs => exact Nat.zero_le _

theorem afterRaw?_closed {kind : QuotedKind} {n : Nat} (h : afterRaw? kind n cs = some rest) :
    afterRaw? kind n (closedBy cs tail) = some (closedBy rest tail) := by
  fun_induction afterRaw? kind n cs with
  | case1 => exact absurd h (by simp)
  | case2 cs ih => exact ih h
  | case3 c cs hreturn hquote =>
    have hlength : n ≤ cs.length := Nat.le_trans hquote.2 (fst_hashes_le cs)
    have hmarks : c = '"' ∧ (hashes (closedBy cs tail)).1 ≥ n := by
      rw [hashes_closed]
      exact hquote
    rw [closedBy_cons, afterRaw?, if_pos hmarks, ← Option.some.inj h, closedBy,
      List.drop_append_of_le_length hlength]
    · rfl
    · intro ds hc
      exact absurd (hc.symm.trans hquote.1) (by decide)
  | case4 c cs hreturn hquote hallowed ih =>
    have hmarks : ¬ (c = '"' ∧ (hashes (closedBy cs tail)).1 ≥ n) := by
      rw [hashes_closed]
      exact hquote
    rw [closedBy_cons, afterRaw?, if_neg hmarks, if_pos hallowed]
    · exact ih h
    · intro ds hc
      exact absurd hc hallowed.1
  | case5 => exact absurd h (by simp)

theorem afterRawMark?_closed {kind : QuotedKind} (h : afterRawMark? kind cs = some rest) :
    afterRawMark? kind (closedBy cs tail) = some (closedBy rest tail) := by
  unfold afterRawMark? at h ⊢
  rw [hashes_closed]
  split at h
  · next n rest' heq =>
    rw [heq]
    simp only [closedBy_cons, Option.ite_none_right_eq_some] at h ⊢
    exact ⟨h.1, afterRaw?_closed tail h.2⟩
  · exact absurd h (by simp)

theorem codePoint_closed {value digits : Nat}
    (h : afterCharEscape?.codePoint value digits cs = some rest) :
    afterCharEscape?.codePoint value digits (closedBy cs tail) = some (closedBy rest tail) := by
  fun_induction afterCharEscape?.codePoint value digits cs <;>
    grind [closedBy_cons, afterCharEscape?.codePoint]

/-- An escape ends in front of the parenthesis. -/
theorem afterCharEscape?_closed {kind : QuotedKind} (h : afterCharEscape? kind cs = some rest) :
    afterCharEscape? kind (closedBy cs tail) = some (closedBy rest tail) := by
  unfold afterCharEscape? at h
  split at h
  · next a b cs =>
    rw [closedBy_cons, closedBy_cons, closedBy_cons, afterCharEscape?]
    split at h
    · next ha hb =>
      simp only [Option.ite_none_left_eq_some, Option.some.injEq] at h ⊢
      exact ⟨h.1, by rw [h.2]⟩
    · exact absurd h (by simp)
  · next cs =>
    rw [closedBy_cons, closedBy_cons, afterCharEscape?]
    simp only [Option.ite_none_right_eq_some] at h ⊢
    exact ⟨h.1, codePoint_closed tail h.2⟩
  · next c cs _ _ =>
    simp only [Option.ite_none_right_eq_some, Option.some.injEq] at h
    obtain ⟨hc, rfl⟩ := h
    rw [closedBy_cons, afterCharEscape?, if_pos hc]
    · rintro a b ds rfl
      exact absurd hc (by decide)
    · rintro ds rfl
      exact absurd hc (by decide)
  · exact absurd h (by simp)

/-- What follows the content of a character or byte literal. -/
def afterContent? (kind : QuotedKind) : List Char → Option (List Char)
  | '\\' :: cs => afterCharEscape? kind cs
  | c :: cs => if kind = .bytes ∧ 0x80 ≤ c.toNat then none else some cs
  | [] => none

/-- A character literal is one character or one escape in front of a quote. -/
theorem afterChar?_eq (kind : QuotedKind) (cs : List Char) :
    afterChar? kind cs = match afterContent? kind cs with
      | some ('\'' :: rest) => some (afterSuffix rest)
      | _ => none := by
  unfold afterContent?
  rfl

theorem afterContent?_closed {kind : QuotedKind} (h : afterContent? kind cs = some rest) :
    afterContent? kind (closedBy cs tail) = some (closedBy rest tail) := by
  unfold afterContent? at h
  split at h
  · exact afterCharEscape?_closed tail h
  · next c cs hc =>
    rw [closedBy_cons, afterContent?]
    · simp only [Option.ite_none_left_eq_some, Option.some.injEq] at h ⊢
      exact ⟨h.1, by rw [h.2]⟩
    · exact hc
  · exact absurd h (by simp)

theorem afterChar?_closed {kind : QuotedKind} (h : afterChar? kind cs = some rest) :
    afterChar? kind (closedBy cs tail) = some (closedBy rest tail) := by
  rw [afterChar?_eq] at h
  split at h
  · next rest' hcontent =>
    rw [afterChar?_eq, afterContent?_closed tail hcontent, closedBy_cons, ← Option.some.inj h,
      ← afterSuffix_closed]
    rfl
  · exact absurd h (by simp)

/-! ## Literals -/

/-- A literal that begins with none of its marks is a number. -/
theorem afterLiteral?_eq_afterNumber? {c : Char} (hc : c ∉ ['"', 'r', 'b', 'c', '\''])
    (cs : List Char) : afterLiteral? (c :: cs) = afterNumber? (c :: cs) := by
  unfold afterLiteral?
  split
  case h_9 => rfl
  all_goals
    next heq =>
    obtain ⟨rfl, -⟩ := List.cons.inj heq
    exact absurd hc (by decide)

/-- A literal is the same in front of the parenthesis. -/
theorem afterLiteral?_closed (h : afterLiteral? cs = some rest) :
    afterLiteral? (closedBy cs tail) = some (closedBy rest tail) := by
  have hsuffix : ∀ {found : Option (List Char)} {found' : Option (List Char)},
      (∀ ds, found = some ds → found' = some (closedBy ds tail)) →
      found.map afterSuffix = some rest → found'.map afterSuffix = some (closedBy rest tail) := by
    intro found found' hfound hrest
    obtain ⟨ds, hds, rfl⟩ := Option.map_eq_some_iff.1 hrest
    rw [hfound ds hds, Option.map_some, afterSuffix_closed]
  unfold afterLiteral? at h
  split at h
  case h_9 =>
    have hnumber := (afterNumber?_closed tail cs).trans (congrArg _ h)
    cases cs with
    | nil => exact absurd h (by simp [afterNumber?])
    | cons c cs =>
      have hdigit : c.isDigit := by
        refine Decidable.byContradiction fun hdigit => ?_
        rw [afterNumber?, if_neg hdigit] at h
        exact absurd h (by simp)
      have hc : c ∉ ['"', 'r', 'b', 'c', '\''] := by
        intro hmem
        have hall : ['"', 'r', 'b', 'c', '\''].all fun d => !d.isDigit := by decide
        have hc := List.all_eq_true.1 hall c hmem
        exact absurd hc (by simp [hdigit])
      rw [closedBy_cons] at hnumber ⊢
      rw [afterLiteral?_eq_afterNumber? hc, hnumber]
      rfl
  case h_7 | h_8 => exact afterChar?_closed tail h
  case h_2 | h_4 | h_6 => exact hsuffix (fun _ => afterRawMark?_closed tail) h
  all_goals exact hsuffix (fun _ => afterQuoted?_append tail) h

theorem opensLiteral_closed (cs : List Char) :
    opensLiteral (closedBy cs tail) = opensLiteral cs := by
  simp only [opensLiteral, List.any_cons, List.any_nil]
  repeat rw [isPrefixOf_closed tail (by decide)]

theorem hashes_eq (cs : List Char) : cs = List.replicate (hashes cs).1 '#' ++ (hashes cs).2 := by
  fun_induction hashes cs with
  | case1 cs ih => exact congrArg ('#' :: ·) ih
  | case2 cs => rfl

/-- Raw literals open with a quote, perhaps after number signs. -/
theorem opens_of_afterRawMark?_closed {kind : QuotedKind}
    (h : (afterRawMark? kind (closedBy cs tail)).isSome) :
    (∃ ds, cs = '"' :: ds) ∨ (∃ ds, cs = '#' :: '"' :: ds) ∨ ∃ ds, cs = '#' :: '#' :: ds := by
  unfold afterRawMark? at h
  rw [hashes_closed] at h
  split at h
  · next n rest heq =>
    obtain ⟨hn, hrest⟩ := Prod.mk.inj heq
    have hcs := hashes_eq cs
    rw [hn] at hcs
    cases hquote : (hashes cs).2 with
    | nil =>
      rw [hquote] at hrest
      exact absurd (List.cons.inj hrest).1 (by decide)
    | cons c ds =>
      rw [hquote, closedBy_cons] at hrest
      rw [hquote, (List.cons.inj hrest).1] at hcs
      match n, hcs with
      | 0, hcs => exact .inl ⟨ds, hcs⟩
      | 1, hcs => exact .inr (.inl ⟨ds, hcs⟩)
      | n + 2, hcs => exact .inr (.inr ⟨_, hcs⟩)
  · exact absurd h (by simp)

/-- A word begins like an identifier. -/
theorem isIdentStart_of_word? (h : (word? cs).isSome) :
    ∃ c ds, cs = c :: ds ∧ isIdentStart c := by
  unfold word? at h
  split at h
  · exact ⟨'r', _, rfl, by decide⟩
  · cases cs with
    | nil => exact absurd h (by simp [plainWord?])
    | cons c cs =>
      refine ⟨c, cs, rfl, Decidable.byContradiction fun hc => ?_⟩
      rw [plainWord?, if_neg hc] at h
      exact absurd h (by simp)

/-- A word in front of the parenthesis is no character literal unless it is one by itself. -/
theorem afterChar?_closed_eq_none (h : afterChar? .text cs = none) (hword : (word? cs).isSome) :
    afterChar? .text (closedBy cs tail) = none := by
  obtain ⟨c, cs, rfl, hc⟩ := isIdentStart_of_word? hword
  have hcontent : ∀ ds, afterContent? .text (c :: ds) = some ds := by
    intro ds
    rw [afterContent?, if_neg (fun hkind => absurd hkind.1 (by decide))]
    rintro rfl
    exact absurd hc (by decide)
  rw [afterChar?_eq, hcontent] at h
  rw [closedBy_cons, afterChar?_eq, hcontent]
  cases cs with
  | nil => rfl
  | cons d cs =>
    rw [closedBy_cons]
    by_cases hd : d = '\''
    · rw [hd] at h
      exact absurd h (by simp)
    · simp [hd]

/-- The letters of a raw literal with what opens it. -/
theorem opensLiteral_raw {mark opening : List Char} (hmark : mark ∈ [['r'], ['b', 'r'], ['c', 'r']])
    (hopening : opening ∈ [['"'], ['#', '"'], ['#', '#']]) (rest : List Char) :
    opensLiteral (mark ++ (opening ++ rest)) := by
  simp only [List.mem_cons, List.not_mem_nil, or_false] at hmark hopening
  rcases hmark with rfl | rfl | rfl <;> rcases hopening with rfl | rfl | rfl <;> rfl

/-- What opens no literal that is left open is not made a literal. -/
theorem afterLiteral?_closed_eq_none (h : afterLiteral? cs = none)
    (hopens : opensLiteral cs = false) (hquote : cs.head? ≠ some '"') (hchar : ∀ ds, cs = '\'' :: ds → (word? ds).isSome) :
    afterLiteral? (closedBy cs tail) = none := by
  have hraw : ∀ kind mark ds, cs = mark ++ ds → mark ∈ [['r'], ['b', 'r'], ['c', 'r']] →
      (afterRawMark? kind (closedBy ds tail)).map afterSuffix = none := by
    rintro kind mark ds rfl hmark
    rw [Option.map_eq_none_iff, ← Option.not_isSome_iff_eq_none]
    intro hsome
    rw [← Bool.not_eq_true] at hopens
    rcases opens_of_afterRawMark?_closed tail hsome with ⟨ds, rfl⟩ | ⟨ds, rfl⟩ | ⟨ds, rfl⟩
    · exact hopens (opensLiteral_raw hmark (.head _) ds)
    · exact hopens (opensLiteral_raw hmark (.tail _ (.head _)) ds)
    · exact hopens (opensLiteral_raw hmark (.tail _ (.tail _ (.head _))) ds)
  generalize hclosed : closedBy cs tail = ds
  unfold afterLiteral?
  split
  case h_1 =>
    obtain ⟨cs, rfl, -⟩ := eq_cons_of_closedBy tail hclosed (by decide)
    exact absurd rfl hquote
  case h_2 =>
    obtain ⟨cs, rfl, rfl⟩ := eq_cons_of_closedBy tail hclosed (by decide)
    exact hraw .text ['r'] cs rfl (by decide)
  case h_3 | h_5 | h_7 =>
    obtain ⟨cs, rfl, hrest⟩ := eq_cons_of_closedBy tail hclosed (by decide)
    obtain ⟨cs, rfl, -⟩ := eq_cons_of_closedBy tail hrest.symm (by decide)
    exact absurd hopens (by simp [opensLiteral])
  case h_4 =>
    obtain ⟨cs, rfl, hrest⟩ := eq_cons_of_closedBy tail hclosed (by decide)
    obtain ⟨cs, rfl, rfl⟩ := eq_cons_of_closedBy tail hrest.symm (by decide)
    exact hraw .bytes ['b', 'r'] cs rfl (by decide)
  case h_6 =>
    obtain ⟨cs, rfl, hrest⟩ := eq_cons_of_closedBy tail hclosed (by decide)
    obtain ⟨cs, rfl, rfl⟩ := eq_cons_of_closedBy tail hrest.symm (by decide)
    exact hraw .cText ['c', 'r'] cs rfl (by decide)
  case h_8 =>
    obtain ⟨cs, rfl, rfl⟩ := eq_cons_of_closedBy tail hclosed (by decide)
    exact afterChar?_closed_eq_none tail h (hchar cs rfl)
  case h_9 htext hrawText hbytes hrawBytes hcText hrawCText hbyte hcharacter =>
    -- none of the marks stands before the parenthesis either
    subst hclosed
    rw [afterNumber?_closed, Option.map_eq_none_iff, ← h]
    refine (afterLiteral?.eq_9 cs ?_ ?_ ?_ ?_ ?_ ?_ ?_ ?_).symm
    · exact fun ds hds => htext (closedBy ds tail) (by rw [hds]; rfl)
    · exact fun ds hds => hrawText (closedBy ds tail) (by rw [hds]; rfl)
    · exact fun ds hds => hbytes (closedBy ds tail) (by rw [hds]; rfl)
    · exact fun ds hds => hrawBytes (closedBy ds tail) (by rw [hds]; rfl)
    · exact fun ds hds => hcText (closedBy ds tail) (by rw [hds]; rfl)
    · exact fun ds hds => hrawCText (closedBy ds tail) (by rw [hds]; rfl)
    · exact fun ds hds => hbyte (closedBy ds tail) (by rw [hds]; rfl)
    · exact fun ds hds => hcharacter (closedBy ds tail) (by rw [hds]; rfl)

/-! ## Signs -/

theorem beginsComment_closed (cs : List Char) :
    beginsComment (closedBy cs tail) = beginsComment cs := by
  match cs with
  | [] => rfl
  | [c] =>
    unfold beginsComment
    split <;> simp_all [closedBy_cons, closedBy_nil]
  | c :: d :: cs =>
    rw [closedBy_cons, closedBy_cons]
    unfold beginsComment
    split <;> split <;> simp_all

theorem beginsSign_closed (cs : List Char) : beginsSign (closedBy cs tail) = beginsSign cs := by
  rw [beginsSign, beginsSign, beginsComment_closed]
  cases cs with
  | nil => rfl
  | cons c cs => rfl

/-- A sign is joined with the same sign in front of the parenthesis. -/
theorem sign?_closed (h : cs ≠ []) : sign? (closedBy cs tail)
    = (sign? cs).map fun (t, rest) => (t, closedBy rest tail) := by
  fun_cases sign? cs with
  | case1 => exact absurd rfl h
  | case8 c cs h₁ h₂ h₃ h₄ h₅ h₆ hcomment =>
    rw [← beginsComment_closed tail, closedBy_cons] at hcomment
    rw [closedBy_cons, sign?.eq_8 _ _ h₁ h₂ h₃ h₄ h₅ h₆, if_pos hcomment]
    rfl
  | case9 c cs h₁ h₂ h₃ h₄ h₅ h₆ hcomment =>
    rw [← beginsComment_closed tail, closedBy_cons] at hcomment
    rw [closedBy_cons, sign?.eq_8 _ _ h₁ h₂ h₃ h₄ h₅ h₆, if_neg hcomment, beginsSign_closed,
      Option.map_map]
    rfl
  | _ => rfl

/-! ## Tokens -/

theorem quote?_closed (h : quote? cs = some (t, rest)) :
    quote? (closedBy cs tail) = some (t, closedBy rest tail) := by
  unfold quote? at h
  split at h
  · next cs =>
    split at h
    · next w rest' hword =>
      obtain ⟨c, ds, hcs, hc⟩ := isIdentStart_of_word? (hword ▸ rfl : (word? cs).isSome)
      -- a lifetime and a literal are told apart by what stands right behind the word
      have hhead : (closedBy rest' tail).head? = some '\'' ∨ (closedBy rest' tail).head? = some '#'
            ∧ !"r#".toList.isPrefixOf (closedBy cs tail)
          ↔ rest'.head? = some '\'' ∨ rest'.head? = some '#' ∧ !"r#".toList.isPrefixOf cs := by
        rw [isPrefixOf_closed tail (by decide)]
        cases rest' with
        | nil => simp [closedBy_nil]
        | cons d rest' => rfl
      have hliteral : (afterLiteral? (closedBy cs tail)).isSome ∨ opensLiteral (closedBy cs tail)
          ↔ (afterLiteral? cs).isSome ∨ opensLiteral cs := by
        rw [opensLiteral_closed]
        cases hliteral : afterLiteral? cs with
        | some after => simp [afterLiteral?_closed tail hliteral]
        | none =>
          cases hopens : opensLiteral cs with
          | true => simp
          | false =>
            have hstart : ∀ d, cs.head? = some d → isIdentStart d := by
              rintro d hd
              rw [hcs] at hd
              exact Option.some.inj hd ▸ hc
            rw [afterLiteral?_closed_eq_none tail hliteral hopens
              (fun hd => absurd (hstart _ hd) (by decide))
              (fun ds hds => absurd (hstart '\'' (hds ▸ rfl)) (by decide))]
      rw [closedBy_cons, quote?, word?_closed, hword]
      simp only [Option.map_some, hhead, hliteral]
      split at h
      · exact absurd h (by simp)
      · next hends =>
        rw [if_neg hends]
        split at h
        · next hopen =>
          obtain ⟨rfl, rfl⟩ := Prod.mk.inj (Option.some.inj h)
          rw [if_pos hopen]
        · next hopen =>
          obtain ⟨rfl, rfl⟩ := Prod.mk.inj (Option.some.inj h)
          rw [if_neg hopen]
    · exact absurd h (by simp)
  · exact absurd h (by simp)

theorem afterMissing?_closed (h : afterMissing? cs = some rest) :
    afterMissing? (closedBy cs tail) = some (closedBy rest tail) := by
  rw [afterMissing?, Option.ite_none_right_eq_some, Option.some.injEq] at h
  obtain ⟨hmark, rfl⟩ := h
  have hbegins := List.isPrefixOf_iff_prefix.1 hmark
  have hclosed : "(/*ERROR*/)".toList.isPrefixOf (closedBy cs tail) :=
    List.isPrefixOf_iff_prefix.2 (hbegins.trans (List.prefix_append _ _))
  rw [afterMissing?, if_pos hclosed, closedBy, List.drop_append_of_le_length hbegins.length_le]
  rfl

theorem afterMissing?_closed_eq_none (h : ∀ ds, cs = '(' :: ds → beginsComment ds = false) :
    afterMissing? (closedBy cs tail) = none := by
  rw [afterMissing?, if_neg]
  intro hmark
  obtain ⟨ds, hds⟩ := List.isPrefixOf_iff_prefix.1 hmark
  have hopen : closedBy cs tail = '(' :: '/' :: '*' :: ("ERROR*/)".toList ++ ds) := by
    rw [← hds]
    simp
  obtain ⟨cs, rfl, hrest⟩ := eq_cons_of_closedBy tail hopen (by decide)
  have hcomment := beginsComment_closed tail cs
  rw [h cs rfl, ← hrest] at hcomment
  exact absurd hcomment (by simp [beginsComment])

theorem quote?_eq_none (h : cs.head? ≠ some '\'') : quote? cs = none := by
  unfold quote?
  split
  · exact absurd rfl h
  · rfl

theorem head?_closed (h : cs ≠ []) : (closedBy cs tail).head? = cs.head? := by
  obtain ⟨c, cs, rfl⟩ := List.exists_cons_of_ne_nil h
  rfl

theorem isIdentStart_of_opensLiteral (h : opensLiteral cs) :
    ∃ c ds, cs = c :: ds ∧ isIdentStart c := by
  obtain ⟨mark, hmem, hmark⟩ := List.any_eq_true.1 h
  have hall : ["r\"", "r#\"", "r##", "b\"", "b'", "br\"", "br#", "c\"", "cr\"", "cr#"].all
      fun mark => mark.toList.head?.any isIdentStart := by decide
  obtain ⟨c, hc, hstart⟩ :=
    (Option.any_eq_true _ _).1 (List.all_eq_true.1 hall mark hmem)
  obtain ⟨ds, hds⟩ := List.isPrefixOf_iff_prefix.1 hmark
  obtain ⟨letters, hletters⟩ := List.head?_eq_some_iff.1 hc
  exact ⟨c, letters ++ ds, by rw [← hds, hletters]; rfl, hstart⟩

/-- A token that is neither a literal nor begun with a quote is a sign or a word. -/
theorem token?_closed_eq (hliteral : afterLiteral? cs = none) (hopens : opensLiteral cs = false)
    (hne : cs ≠ []) (hquote : cs.head? ≠ some '"') (hchar : cs.head? ≠ some '\'')
    (hmissing : ∀ ds, cs = '(' :: ds → beginsComment ds = false) :
    token? (closedBy cs tail) = (match sign? (closedBy cs tail) with
      | some found => some found
      | none => word? (closedBy cs tail)) := by
  have hclosed : afterLiteral? (closedBy cs tail) = none :=
    afterLiteral?_closed_eq_none tail hliteral hopens hquote
      fun ds hds => absurd (congrArg List.head? hds) hchar
  have hcharacter : quote? (closedBy cs tail) = none :=
    quote?_eq_none (by rwa [head?_closed tail hne])
  rw [token?, hclosed, afterMissing?_closed_eq_none tail hmissing, hcharacter, opensLiteral_closed,
    hopens]
  rfl

theorem token?_closed_of_quote (hliteral : afterLiteral? cs = none)
    (h : quote? cs = some (t, rest)) :
    token? (closedBy cs tail) = some (t, closedBy rest tail) := by
  obtain ⟨ds, rfl⟩ : ∃ ds, cs = '\'' :: ds := by
    unfold quote? at h
    split at h
    · exact ⟨_, rfl⟩
    · exact absurd h (by simp)
  have hword : (word? ds).isSome := by
    cases hword : word? ds with
    | some found => rfl
    | none => exact absurd h (by simp [quote?, hword])
  have hclosed : afterLiteral? (closedBy ('\'' :: ds) tail) = none :=
    afterLiteral?_closed_eq_none tail hliteral rfl (by simp)
      fun ds' hds => (List.cons.inj hds).2 ▸ hword
  rw [token?, hclosed, afterMissing?_closed_eq_none tail (fun ds hds => absurd hds (by simp)),
    quote?_closed tail h]

/-- A sign is the same token in front of the parenthesis. -/
theorem token?_closed_of_sign (hliteral : afterLiteral? cs = none) (h : sign? cs = some (t, rest))
    (hrest : beginsComment rest = false) :
    token? (closedBy cs tail) = some (t, closedBy rest tail) := by
  have hne : cs ≠ [] := by
    rintro rfl
    exact absurd h (by simp [sign?])
  have hnone : ∀ d ds, sign? (d :: ds) = none → cs ≠ d :: ds := by
    rintro d ds hd rfl
    exact absurd (h.symm.trans hd) (by simp)
  have hopens : opensLiteral cs = false := by
    rw [← Bool.not_eq_true]
    intro hopens
    obtain ⟨d, ds, hds, hd⟩ := isIdentStart_of_opensLiteral hopens
    exact hnone d ds (sign?_eq_none hd) hds
  have hmissing : ∀ ds, cs = '(' :: ds → beginsComment ds = false := by
    rintro ds rfl
    rwa [(Prod.mk.inj (Option.some.inj h)).2]
  have hhead : ∀ d, (∀ ds, sign? (d :: ds) = none) → cs.head? ≠ some d := by
    intro d hd hcs
    obtain ⟨ds, hds⟩ := List.head?_eq_some_iff.1 hcs
    exact hnone d ds (hd ds) hds
  rw [token?_closed_eq tail hliteral hopens hne (hhead _ fun _ => rfl) (hhead _ fun _ => rfl)
    hmissing, sign?_closed tail hne, h]
  rfl

theorem token?_closed_of_word (hliteral : afterLiteral? cs = none)
    (hopens : opensLiteral cs = false) (h : word? cs = some (t, rest)) :
    token? (closedBy cs tail) = some (t, closedBy rest tail) := by
  obtain ⟨c, ds, rfl, hc⟩ := isIdentStart_of_word? (h ▸ rfl : (word? cs).isSome)
  have hhead : ∀ d, isIdentStart d = false → (c :: ds).head? ≠ some d := by
    intro d hd hcs
    exact absurd (Option.some.inj hcs ▸ hc) (by simp [hd])
  have hmissing : ∀ ds', c :: ds = '(' :: ds' → beginsComment ds' = false :=
    fun ds' hds => absurd (congrArg List.head? hds) (hhead _ (by decide))
  rw [token?_closed_eq tail hliteral hopens (List.cons_ne_nil _ _) (hhead _ (by decide))
    (hhead _ (by decide)) hmissing, closedBy_cons, sign?_eq_none hc, ← closedBy_cons, word?_closed,
    h]
  rfl

/-- A token stands in front of the parenthesis as it stands alone, unless a comment hides what
follows it. -/
theorem token?_closed (h : token? cs = some (t, rest)) (hrest : beginsComment rest = false) :
    token? (closedBy cs tail) = some (t, closedBy rest tail) := by
  unfold token? at h
  split at h
  case h_1 rest' hliteral =>
    obtain ⟨rfl, rfl⟩ := Prod.mk.inj (Option.some.inj h)
    have hne : cs ≠ [] := by
      rintro rfl
      exact absurd hliteral (by simp [afterLiteral?, afterNumber?])
    rw [token?, afterLiteral?_closed tail hliteral, literalKind_closed tail hne]
  case h_2 hliteral =>
    split at h
    case h_1 rest' hmissing =>
      obtain ⟨rfl, rfl⟩ := Prod.mk.inj (Option.some.inj h)
      have hopen : afterLiteral? (closedBy cs tail) = none := by
        rw [afterMissing?, Option.ite_none_right_eq_some] at hmissing
        obtain ⟨ds, rfl⟩ := List.isPrefixOf_iff_prefix.1 hmissing.1
        exact (afterLiteral?_eq_afterNumber? (by decide) _).trans rfl
      rw [token?, hopen, afterMissing?_closed tail hmissing]
    case h_2 =>
      split at h
      case h_1 hquote => exact token?_closed_of_quote tail hliteral (hquote.trans h)
      case h_2 =>
        split at h
        case h_1 hsign => exact token?_closed_of_sign tail hliteral (hsign.trans h) hrest
        case h_2 =>
          rw [Option.ite_none_left_eq_some, Bool.not_eq_true] at h
          exact token?_closed_of_word tail hliteral h.1 h.2

/-! ## Elements -/

/-- An element that is no comment is a blank or a token. -/
theorem element?_eq_of_plain {c : Char} (h : beginsComment (c :: cs) = false) :
    element? (c :: cs) = if isSeparator c then some ([], cs)
      else (token? (c :: cs)).map fun (t, rest) => ([t], rest) := by
  unfold element?
  split
  case h_10 heq => exact absurd heq (List.cons_ne_nil _ _)
  case h_11 heq =>
    obtain ⟨rfl, rfl⟩ := List.cons.inj heq
    split
    · rfl
    · cases token? (c :: cs) <;> rfl
  all_goals
    next heq =>
    rw [heq] at h
    exact absurd h (by simp [beginsComment])

/-- An element stands in front of the parenthesis as it stands alone, unless it is a comment or a
comment hides what follows it. -/
theorem element?_closed (h : element? cs = some (ts, rest)) (hcs : beginsComment cs = false)
    (hrest : beginsComment rest = false) :
    element? (closedBy cs tail) = some (ts, closedBy rest tail) := by
  cases cs with
  | nil => exact absurd (element?_length h) (by simp)
  | cons c cs =>
    have hclosed := beginsComment_closed tail (c :: cs)
    rw [closedBy_cons, hcs] at hclosed
    rw [element?_eq_of_plain hcs] at h
    rw [closedBy_cons, element?_eq_of_plain hclosed]
    split at h
    · next hc =>
      obtain ⟨rfl, rfl⟩ := Prod.mk.inj (Option.some.inj h)
      rw [if_pos hc]
    · next hc =>
      obtain ⟨⟨t, rest'⟩, htoken, heq⟩ := Option.map_eq_some_iff.1 h
      obtain ⟨rfl, rfl⟩ := Prod.mk.inj heq
      have hfound := token?_closed tail htoken hrest
      rw [closedBy_cons] at hfound
      rw [if_neg hc, hfound]
      rfl

/-- A parenthesis opens a text that does not begin with a comment. -/
theorem element?_parenthesis (h : beginsComment cs = false) :
    element? ('(' :: closedBy cs tail) = some ([.opening .paren], closedBy cs tail) := by
  have hliteral : afterLiteral? ('(' :: cs) = none := afterLiteral?_eq_afterNumber? (by decide) cs
  have htoken : token? ('(' :: closedBy cs tail) = some (.opening .paren, closedBy cs tail) :=
    token?_closed_of_sign tail hliteral rfl h
  exact element?_token (beginsComment_eq_false (by decide)) (by decide) htoken

end Closed

end EnumNames.Target
