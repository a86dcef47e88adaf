import EnumNames.Proofs.Target.Scan

/-!
# Texts that hold one identifier

A text that is scanned as one identifier may hold blanks and comments around it. Text that follows
it leaves its elements as they are, unless the text ends inside a comment that goes on to the end of
the line.

* `endsInLineComment`: the last element of a text is a comment without its line feed.
* `element?_append_gap` and `element?_append_word`: elements stay what they are in a longer text.
* `identifier?`: the identifier that a text holds.
* `IsSpelled`: how identifiers are spelled, with the mark of raw ones or without it.
-/

namespace EnumNames.Target

open Text

variable {cs rest : List Char} {before tokens : List Token} {w : String}

/-- Whether a comment begins here that goes on to the end of the line. -/
def beginsLineComment : List Char → Bool
  | '/' :: '/' :: _ => true
  | _ => false

/-- Whether the last element of a text is a comment that no line feed ends. -/
def endsInLineComment (cs : List Char) : Bool :=
  match _found : element? cs with
  | some (_, rest) => if rest.isEmpty then beginsLineComment cs else endsInLineComment rest
  | none => false
termination_by cs.length
decreasing_by exact element?_length (by assumption)

/-- Whether a text ends in a line comment is seen at its last element. -/
theorem endsInLineComment_element {ts : List Token} (h : element? cs = some (ts, rest)) :
    endsInLineComment cs = if rest.isEmpty then beginsLineComment cs else endsInLineComment rest := by
  rw [endsInLineComment, h]

theorem endsInLineComment_nil : endsInLineComment [] = false := by
  rw [endsInLineComment]
  rfl

/-- A text that does not end inside a comment does not do so after its first element either. -/
theorem endsInLineComment_rest {ts : List Token} (h : element? cs = some (ts, rest))
    (hend : endsInLineComment cs = false) :
    (rest = [] → beginsLineComment cs = false) ∧ endsInLineComment rest = false := by
  rw [endsInLineComment_element h] at hend
  cases rest with
  | nil => exact ⟨fun _ => hend, endsInLineComment_nil⟩
  | cons c rest => exact ⟨fun hnil => absurd hnil (by simp), hend⟩

/-! ## Blanks and comments -/

/-- A block comment is passed in a longer text, too. -/
theorem afterComment?_append {depth : Nat} (h : afterComment? depth cs = some rest)
    (tail : List Char) : afterComment? depth (cs ++ tail) = some (rest ++ tail) := by
  fun_induction afterComment? depth cs with
  | case1 depth cs ih => exact ih h
  | case2 depth cs hdepth =>
    rw [← Option.some.inj h, List.cons_append, List.cons_append, afterComment?, if_pos hdepth]
  | case3 depth cs hdepth ih =>
    rw [List.cons_append, List.cons_append, afterComment?, if_neg hdepth]
    exact ih h
  | case4 depth c cs hopen hclose ih =>
    cases cs with
    | nil => exact absurd h (by simp [afterComment?])
    | cons d cs =>
      rw [List.cons_append, List.cons_append, afterComment?]
      · exact ih h
      · rintro ds rfl hds
        exact hopen cs rfl (by rw [(List.cons.inj hds).1])
      · rintro ds rfl hds
        exact hclose cs rfl (by rw [(List.cons.inj hds).1])
  | case5 => exact absurd h (by simp)

/-- A comment that a line feed ends is passed in a longer text, too. -/
theorem restOfLine_append (h : (restOfLine cs).2 ≠ []) (tail : List Char) :
    (restOfLine (cs ++ tail)).2 = (restOfLine cs).2 ++ tail := by
  rw [restOfLine] at h
  rw [restOfLine, restOfLine]
  show List.dropWhile _ (cs ++ tail) = _
  rw [List.dropWhile_append, if_neg (by simpa using h)]

theorem element?_separator {c : Char} (hc : isSeparator c) (cs : List Char) :
    element? (c :: cs) = some ([], cs) := by
  have hslash : c ≠ '/' := by
    rintro rfl
    exact absurd hc (by decide)
  unfold element?
  split
  case h_11 heq =>
    obtain ⟨rfl, rfl⟩ := List.cons.inj heq
    rw [if_pos hc]
  case h_10 heq => exact absurd heq (by simp)
  all_goals
    next heq => exact absurd (List.cons.inj heq).1 hslash

theorem docTokens_ne_nil (inner : Bool) : docTokens inner ≠ [] := by
  cases inner <;> simp [docTokens]

theorem docLine?_tokens {inner : Bool} {ts : List Token} (h : docLine? inner cs = some (ts, rest)) :
    ts = docTokens inner := by
  simp only [docLine?, Option.ite_none_right_eq_some, Option.some.injEq, Prod.mk.injEq] at h
  exact h.2.1.symm

theorem docBlock?_tokens {inner : Bool} {ts : List Token}
    (h : docBlock? inner cs = some (ts, rest)) : ts = docTokens inner := by
  unfold docBlock? at h
  split at h
  · simp only [Option.ite_none_right_eq_some, Option.some.injEq, Prod.mk.injEq] at h
    exact h.2.1.symm
  · exact absurd h (by simp)

/-- A comment without a mark of documentation goes on to the end of the line. -/
theorem element?_lineComment {c : Char} (hslash : c ≠ '/') (hbang : c ≠ '!') (cs : List Char) :
    element? ('/' :: '/' :: c :: cs) = some ([], (restOfLine (c :: cs)).2) := by
  unfold element?
  split
  case h_4 heq =>
    rw [(List.cons.inj (List.cons.inj heq).2).2]
  all_goals grind

/-- A block comment that is no documentation is passed up to its end. -/
theorem element?_blockComment {c : Char} (hstar : c ≠ '*') (hbang : c ≠ '!') (cs : List Char) :
    element? ('/' :: '*' :: c :: cs) = (afterComment? 1 (c :: cs)).map ([], ·) := by
  unfold element?
  split
  case h_9 heq =>
    rw [(List.cons.inj (List.cons.inj heq).2).2]
  all_goals grind

/-- A blank or a comment is passed in a longer text, too. -/
theorem element?_append_gap (h : element? cs = some ([], rest))
    (hend : rest = [] → beginsLineComment cs = false) (tail : List Char) :
    element? (cs ++ tail) = some ([], rest ++ tail) := by
  -- a line comment that is not ended by a break would go on in what is added
  have hline : ∀ {line : List Char}, cs = '/' :: '/' :: line → (restOfLine line).2 = rest →
      line ≠ [] ∧ (restOfLine (line ++ tail)).2 = rest ++ tail := by
    rintro line rfl hrest
    have hne : (restOfLine line).2 ≠ [] := fun hnil =>
      absurd (hend (hrest ▸ hnil)) (by simp [beginsLineComment])
    refine ⟨?_, by rw [restOfLine_append hne, hrest]⟩
    rintro rfl
    exact hne rfl
  unfold element? at h
  split at h
  case h_1 line =>
    obtain ⟨-, hrest⟩ := hline rfl (Prod.mk.inj (Option.some.inj h)).2
    exact congrArg (fun after => some ([], after)) hrest
  case h_2 => exact absurd (docLine?_tokens h).symm (docTokens_ne_nil _)
  case h_3 => exact absurd (docLine?_tokens h).symm (docTokens_ne_nil _)
  case h_4 line _ hslash hbang =>
    obtain ⟨hne, hrest⟩ := hline rfl (Prod.mk.inj (Option.some.inj h)).2
    obtain ⟨c, line, rfl⟩ := List.exists_cons_of_ne_nil hne
    have hc : c ≠ '/' ∧ c ≠ '!' := ⟨fun hc => hslash line (by rw [hc]), fun hc => hbang line (by rw [hc])⟩
    rw [← hrest]
    exact element?_lineComment hc.1 hc.2 (line ++ tail)
  case h_5 =>
    rw [← (Prod.mk.inj (Option.some.inj h)).2]
    rfl
  case h_6 =>
    obtain ⟨after, hafter, heq⟩ := Option.map_eq_some_iff.1 h
    have hlonger := afterComment?_append hafter tail
    rw [← (Prod.mk.inj heq).2]
    exact congrArg (Option.map ([], ·)) hlonger
  case h_7 => exact absurd (docBlock?_tokens h).symm (docTokens_ne_nil _)
  case h_8 => exact absurd (docBlock?_tokens h).symm (docTokens_ne_nil _)
  case h_9 line _ _ hstar hbang =>
    obtain ⟨after, hafter, heq⟩ := Option.map_eq_some_iff.1 h
    have hlonger := afterComment?_append hafter tail
    rw [← (Prod.mk.inj heq).2]
    obtain _ | ⟨c, line⟩ := line
    · exact absurd hafter (by simp [afterComment?])
    have hc : c ≠ '*' ∧ c ≠ '!' := ⟨fun hc => hstar line (by rw [hc]), fun hc => hbang line (by rw [hc])⟩
    refine (element?_blockComment hc.1 hc.2 (line ++ tail)).trans ?_
    exact congrArg (Option.map ([], ·)) hlonger
  case h_10 => exact absurd h (by simp)
  case h_11 c cs _ _ _ _ _ _ _ _ _ =>
    split at h
    · next hc =>
      rw [← (Prod.mk.inj (Option.some.inj h)).2]
      exact element?_separator hc (cs ++ tail)
    · split at h
      · exact absurd (Prod.mk.inj (Option.some.inj h)).1 (by simp)
      · exact absurd h (by simp)

theorem isApart_of_isSeparator {c : Char} (hc : isSeparator c) (cs : List Char) :
    isApart (c :: cs) := by
  have hmarks : ∀ d ∈ ['"', '\'', '#'], isSeparator d = false := by
    simp only [List.mem_cons, List.not_mem_nil, or_false, forall_eq_or_imp, forall_eq]
    decide
  have hne : ∀ d ∈ ['"', '\'', '#'], c ≠ d := by
    rintro d hd rfl
    exact absurd hc (by simp [hmarks c hd])
  have hcontinue : isIdentContinue c = false := by
    by_cases h : isIdentContinue c
    · exact absurd hc (by simp [isSeparator_eq_false h])
    · simpa using h
  simp only [isApart, List.head?_cons, Option.all_some, hcontinue]
  simp only [Bool.not_false, Bool.true_and, Bool.and_eq_true, bne_iff_ne]
  exact ⟨⟨hne _ (by simp), hne _ (by simp)⟩, hne _ (by simp)⟩

/-- What follows a comment, its first slash being passed. -/
def afterSlash? : List Char → Option (List Char)
  | '/' :: cs => some (restOfLine cs).2
  | '*' :: cs => afterComment? 1 cs
  | _ => none

/-- What leaves no token is a blank or a comment. -/
theorem element?_gap_cases {c : Char} (h : element? (c :: cs) = some ([], rest)) :
    (isSeparator c ∧ rest = cs) ∨ c = '/' ∧ afterSlash? cs = some rest := by
  have hgap : ∀ {found : Option (List Char)}, found.map (([] : List Token), ·) = some ([], rest) →
      found = some rest := by
    intro found hfound
    obtain ⟨after, hafter, heq⟩ := Option.map_eq_some_iff.1 hfound
    rw [hafter, (Prod.mk.inj heq).2]
  unfold element? at h
  split at h
  case h_2 => exact absurd (docLine?_tokens h).symm (docTokens_ne_nil _)
  case h_3 => exact absurd (docLine?_tokens h).symm (docTokens_ne_nil _)
  case h_7 => exact absurd (docBlock?_tokens h).symm (docTokens_ne_nil _)
  case h_8 => exact absurd (docBlock?_tokens h).symm (docTokens_ne_nil _)
  case h_10 heq => exact absurd heq (by simp)
  case h_11 heq =>
    obtain ⟨rfl, rfl⟩ := List.cons.inj heq
    split at h
    · next hc => exact .inl ⟨hc, (Prod.mk.inj (Option.some.inj h)).2.symm⟩
    · split at h <;> simp at h
  case h_6 heq | h_9 heq =>
    obtain ⟨rfl, rfl⟩ := List.cons.inj heq
    exact .inr ⟨rfl, hgap h⟩
  all_goals
    next heq =>
      obtain ⟨rfl, rfl⟩ := List.cons.inj heq
      exact .inr ⟨rfl, congrArg some (Prod.mk.inj (Option.some.inj h)).2⟩

/-- What begins with a blank or a comment is not joined to a word before it. -/
theorem isApart_of_gap (h : element? cs = some ([], rest)) : isApart cs := by
  obtain _ | ⟨c, cs⟩ := cs
  · rfl
  rcases element?_gap_cases h with ⟨hc, -⟩ | ⟨rfl, -⟩
  · exact isApart_of_isSeparator hc cs
  · rfl

/-! ## Words -/

/-- A plain word is what the text begins with. -/
theorem plainWord?_eq_some {name : List Char} (h : plainWord? cs = some (name, rest)) :
    isBareWord name ∧ cs = name ++ rest := by
  cases cs with
  | nil => exact absurd h (by simp [plainWord?])
  | cons c cs =>
    simp only [plainWord?, Option.ite_none_right_eq_some, Option.some.injEq, Prod.mk.injEq] at h
    obtain ⟨hc, rfl, rfl⟩ := h
    have hall : (cs.takeWhile isIdentContinue).all isIdentContinue := List.all_takeWhile
    rw [isBareWord, hc, hall, afterWord, List.cons_append, List.takeWhile_append_dropWhile]
    exact ⟨rfl, rfl⟩

/-- An identifier is spelled as it is, or it is a raw one. -/
theorem word?_eq_some (h : word? cs = some (.word w, rest)) :
    (∃ name, isBareWord name ∧ cs = name ++ rest ∧ Token.ofWord (String.ofList name) = .word w)
      ∨ ∃ name, isBareWord name ∧ cs = 'r' :: '#' :: (name ++ rest) ∧ neverRaw name = false
        ∧ w = String.ofList ('r' :: '#' :: name) := by
  unfold word? at h
  split at h
  · next cs =>
    split at h
    · next name rest' hname =>
      split at h
      · exact absurd h (by simp)
      · next hnever =>
        simp only [Option.some.injEq, Prod.mk.injEq, Token.word.injEq] at h
        obtain ⟨rfl, rfl⟩ := h
        obtain ⟨hword, rfl⟩ := plainWord?_eq_some hname
        exact .inr ⟨name, hword, rfl, by simpa using hnever, rfl⟩
    · exact absurd h (by simp)
  · obtain ⟨⟨name, rest'⟩, hname, heq⟩ := Option.map_eq_some_iff.1 h
    obtain ⟨hword, hcs⟩ := plainWord?_eq_some hname
    obtain ⟨htoken, rfl⟩ := Prod.mk.inj heq
    exact .inl ⟨name, hword, hcs, htoken⟩

/-- The texts that identifiers are: words, and words with the mark of raw identifiers. -/
inductive IsSpelled : String → Prop
  | bare {name : String} (h : isBareWord name.toList) : IsSpelled name
  | raw {name : List Char} (h : isBareWord name) : IsSpelled (String.ofList ('r' :: '#' :: name))

theorem eq_of_ofWord {name : String} (h : Token.ofWord name = .word w) : name = w := by
  unfold Token.ofWord at h
  split at h
  · exact absurd h (by simp)
  · exact Token.word.inj h

/-- An identifier stands in front of what follows it as it is spelled. -/
theorem spelling_of_word? (h : word? cs = some (.word w, rest)) :
    IsSpelled w ∧ cs = w.toList ++ rest := by
  rcases word?_eq_some h with ⟨name, hname, hcs, htoken⟩ | ⟨name, hname, hcs, -, rfl⟩
  · rw [← eq_of_ofWord htoken]
    exact ⟨.bare (by rwa [String.toList_ofList]), by rw [String.toList_ofList, hcs]⟩
  · exact ⟨.raw hname, by rw [String.toList_ofList, hcs]; rfl⟩

/-- A raw identifier is scanned in full. -/
theorem element?_rawWord {name : List Char} (hname : isBareWord name)
    (hnever : neverRaw name = false) (h : isApart rest) :
    element? ('r' :: '#' :: (name ++ rest))
      = some ([.word (String.ofList ('r' :: '#' :: name))], rest) := by
  have hplain := plainWord?_append hname h
  obtain _ | ⟨c, name⟩ := name
  · exact absurd hname (by simp [isBareWord])
  rw [isBareWord, Bool.and_eq_true] at hname
  -- a quote or another mark behind `r#` would begin a literal
  have hquote : c ≠ '"' := ne_of_isIdentStart hname.1 (by decide)
  have hhash : c ≠ '#' := ne_of_isIdentStart hname.1 (by decide)
  have hhashes : ∀ cs, hashes ('#' :: c :: cs) = (1, c :: cs) := by
    intro cs
    have hc : hashes (c :: cs) = (0, c :: cs) := by
      unfold hashes
      split
      · next heq => exact absurd (List.cons.inj heq).1 hhash
      · rfl
    rw [hashes, hc]
  have hliteral : ∀ cs, afterLiteral? ('r' :: '#' :: c :: cs) = none := by
    intro cs
    show (afterRawMark? .text ('#' :: c :: cs)).map afterSuffix = none
    unfold afterRawMark?
    rw [hhashes]
    split
    · next heq => exact absurd (List.cons.inj (Prod.mk.inj heq).2).1 hquote
    · rfl
  have hopens : ∀ cs, opensLiteral ('r' :: '#' :: c :: cs) = false := by
    intro cs
    simp [opensLiteral, List.isPrefixOf, hquote.symm, hhash.symm]
  have hword : word? ('r' :: '#' :: (c :: name ++ rest))
      = some (.word (String.ofList ('r' :: '#' :: c :: name)), rest) := by
    simp only [word?, hplain]
    exact if_neg (by simp [hnever])
  have htoken : token? ('r' :: '#' :: (c :: name ++ rest))
      = some (.word (String.ofList ('r' :: '#' :: c :: name)), rest) := by
    have hmissing : afterMissing? ('r' :: '#' :: (c :: name ++ rest)) = none := rfl
    have hsign : sign? ('r' :: '#' :: (c :: name ++ rest)) = none := sign?_eq_none (by decide)
    rw [token?, List.cons_append, hliteral, ← List.cons_append, hmissing, hsign, List.cons_append,
      hopens, ← List.cons_append, hword]
    rfl
  exact element?_token (beginsComment_eq_false (by decide)) (by decide) htoken

/-- Only words are scanned as identifiers. -/
theorem word?_of_token? (h : token? cs = some (.word w, rest)) : word? cs = some (.word w, rest) := by
  have hquote : quote? cs ≠ some (.word w, rest) := by
    unfold quote?
    grind
  have hsign : sign? cs ≠ some (.word w, rest) := by
    unfold sign?
    grind [Option.map_eq_some_iff]
  unfold token? at h
  grind

/-- An element that is an identifier was read as a word. -/
theorem word?_of_element? (h : element? cs = some ([.word w], rest)) :
    word? cs = some (.word w, rest) := by
  have hdoc : ∀ inner, docTokens inner ≠ [.word w] := by
    intro inner
    cases inner <;> simp [docTokens]
  unfold element? at h
  split at h
  case h_2 => exact absurd (docLine?_tokens h).symm (hdoc _)
  case h_3 => exact absurd (docLine?_tokens h).symm (hdoc _)
  case h_7 => exact absurd (docBlock?_tokens h).symm (hdoc _)
  case h_8 => exact absurd (docBlock?_tokens h).symm (hdoc _)
  case h_11 c cs _ _ _ _ _ _ _ _ _ =>
    split at h
    · exact absurd h (by simp)
    · split at h
      · next t after htoken =>
        simp only [Option.some.injEq, Prod.mk.injEq, List.cons.injEq, and_true] at h
        rw [h.1, h.2] at htoken
        exact word?_of_token? htoken
      · exact absurd h (by simp)
  all_goals simp at h

/-- An identifier is passed in a longer text, too, unless the text goes on with more of it. -/
theorem element?_append_word (h : element? cs = some ([.word w], rest)) {tail : List Char}
    (hapart : isApart (rest ++ tail)) :
    element? (cs ++ tail) = some ([.word w], rest ++ tail) := by
  rcases word?_eq_some (word?_of_element? h) with ⟨name, hname, rfl, hw⟩ | ⟨name, hname, rfl, hnever, rfl⟩
  · rw [List.append_assoc, element?_word hname hapart, hw]
  · rw [List.cons_append, List.cons_append, List.append_assoc]
    exact element?_rawWord hname hnever hapart

/-! ## Scanning an identifier -/

/-- Words do not begin with an order mark. -/
theorem dropOrderMark_word {name : List Char} (h : isBareWord name) (rest : List Char) :
    dropOrderMark (name ++ rest) = name ++ rest := by
  obtain _ | ⟨c, name⟩ := name
  · exact absurd h (by simp [isBareWord])
  have hc := isIdentContinue_of_isBareWord h c List.mem_cons_self
  have hmark : c ≠ Char.ofNat 0xfeff := ne_of_isIdentContinue hc (by decide +kernel)
  have hcode : c.toNat ≠ 0xfeff := fun hcode => hmark (by rw [← hcode, Char.ofNat_toNat])
  exact if_neg hcode

/-- The identifier that a text holds. -/
def identifier? (text : String) : Option String :=
  match scan? text with
  | some [.word w] => some w
  | _ => none

/-- A text is one identifier exactly if it holds one. -/
theorem isIdentifier_iff {text : String} : isIdentifier text ↔ (identifier? text).isSome := by
  unfold isIdentifier
  split
  · next name hword =>
    have hname : identifier? text = some name := by
      rw [identifier?, hword]
    simp [hname]
  · next h =>
    have hnone : identifier? text = none := by
      unfold identifier?
      split
      · next name hword => exact absurd hword (h name)
      · rfl
    simp [hnone]

/-- Scanning only adds to the tokens that came before. -/
theorem scanFrom_eq_append (h : scanFrom before cs = some tokens) :
    ∃ ts, tokens = before.reverse ++ ts := by
  fun_induction scanFrom before cs with
  | case1 before cs hempty => exact ⟨[], by rw [← Option.some.inj h, List.append_nil]⟩
  | case2 before cs hne ts rest hfound ih =>
    obtain ⟨ts', hts'⟩ := ih h
    exact ⟨ts ++ ts', by rw [hts', List.reverse_append, List.reverse_reverse, List.append_assoc]⟩
  | case3 => exact absurd h (by simp)

/-- What has been scanned stays in front. -/
theorem prefix_of_scanFrom {ts us : List Token}
    (h : scanFrom (ts.reverse ++ before) cs = some (before.reverse ++ us)) : ∃ us', us = ts ++ us' := by
  obtain ⟨us', hus'⟩ := scanFrom_eq_append h
  rw [List.reverse_append, List.reverse_reverse, List.append_assoc] at hus'
  exact ⟨us', List.append_cancel_left hus'⟩

/-- A text without tokens consists of blanks and comments. -/
theorem element?_of_scanFrom (hcs : cs ≠ []) (h : scanFrom before cs = some before.reverse) :
    ∃ rest, element? cs = some ([], rest) ∧ scanFrom before rest = some before.reverse := by
  rw [scanFrom, if_neg (by simpa using hcs)] at h
  split at h
  · next ts rest hfound =>
    obtain ⟨us, hus⟩ := prefix_of_scanFrom (h.trans (by rw [List.append_nil]))
    obtain ⟨rfl, -⟩ := List.append_eq_nil_iff.1 hus.symm
    exact ⟨rest, hfound, h⟩
  · exact absurd h (by simp)

/-- A text that holds one identifier begins with a blank, a comment or that identifier. -/
theorem element?_of_scanFrom_word (h : scanFrom before cs = some (before.reverse ++ [.word w])) :
    (∃ rest, element? cs = some ([], rest) ∧ scanFrom before rest = some (before.reverse ++ [.word w]))
      ∨ ∃ rest, element? cs = some ([.word w], rest)
        ∧ scanFrom (.word w :: before) rest = some (Token.word w :: before).reverse := by
  have hne : cs.isEmpty = false := by
    cases cs with
    | nil =>
      rw [scanFrom] at h
      exact absurd h (by simp)
    | cons c cs => rfl
  rw [scanFrom, if_neg (by simp [hne])] at h
  split at h
  · next ts rest hfound =>
    obtain ⟨us, hus⟩ := prefix_of_scanFrom h
    cases ts with
    | nil => exact .inl ⟨rest, hfound, h⟩
    | cons t ts =>
      obtain ⟨rfl, htail⟩ := List.cons.inj hus
      obtain ⟨rfl, rfl⟩ := List.append_eq_nil_iff.1 htail.symm
      refine .inr ⟨rest, hfound, ?_⟩
      rw [List.reverse_cons]
      exact h
  · exact absurd h (by simp)

/-- An identifier that is scanned is spelled like one. -/
theorem isSpelled_of_scanFrom {cs : List Char}
    (h : scanFrom before cs = some (before.reverse ++ [.word w])) : IsSpelled w := by
  rcases element?_of_scanFrom_word h with ⟨rest, hfound, hrest⟩ | ⟨rest, hfound, -⟩
  · have hlength := element?_length hfound
    exact isSpelled_of_scanFrom hrest
  · exact (spelling_of_word? (word?_of_element? hfound)).1
termination_by cs.length

/-- A text that holds an identifier has it as its only token. -/
theorem scan?_of_identifier? {text : String} (h : identifier? text = some w) :
    scanFrom [] (dropOrderMark text.toList) = some [.word w] := by
  unfold identifier? at h
  split at h
  · next v hscan =>
    rw [Option.some.inj h] at hscan
    exact hscan
  · exact absurd h (by simp)

theorem isSpelled_of_identifier? {text : String} (h : identifier? text = some w) : IsSpelled w := by
  have hscan := scan?_of_identifier? h
  rw [← List.nil_append [Token.word w], ← List.reverse_nil] at hscan
  exact isSpelled_of_scanFrom hscan

end EnumNames.Target
