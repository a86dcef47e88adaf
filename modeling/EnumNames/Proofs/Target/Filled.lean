import EnumNames.Proofs.Target.Identifier

/-!
# Texts that a word is filled into

Several words are filled into the same place of a text, and each time the text holds one identifier.
Either the place belongs to the identifier, and then each word stands between the same characters in
it; or it does not, and then the identifier is the same for all words.

* `spelling`: the characters of the identifier that a text begins with.
* `holdsOrIgnores_filled`: how the identifiers depend on the words.
-/

namespace EnumNames.Target

open Text

variable {cs rest after word : List Char} {before : List Token} {w : String}

/-! ## Comments -/

/-- A character that belongs to no mark of a comment is passed. -/
theorem afterComment?_skip {c d : Char} (hd : d ≠ '*' ∧ d ≠ '/') (depth : Nat) (cs : List Char) :
    afterComment? depth (c :: d :: cs) = afterComment? depth (d :: cs) := by
  rw [afterComment?]
  · rintro ds - hds
    exact hd.1 (List.cons.inj hds).1
  · rintro ds - hds
    exact hd.2 (List.cons.inj hds).1

/-- A character without a meaning in comments is passed. -/
theorem afterComment?_ordinary {c : Char} (hc : c ≠ '*' ∧ c ≠ '/') (depth : Nat) (cs : List Char) :
    afterComment? depth (c :: cs) = afterComment? depth cs := by
  rw [afterComment?]
  · rintro ds hslash -
    exact hc.2 hslash
  · rintro ds hstar -
    exact hc.1 hstar

theorem ordinary_of_isIdentContinue {c : Char} (h : isIdentContinue c) : c ≠ '*' ∧ c ≠ '/' :=
  ⟨ne_of_isIdentContinue h (by decide), ne_of_isIdentContinue h (by decide)⟩

/-- A word does not end a comment. -/
theorem afterComment?_word (hword : ∀ c ∈ word, isIdentContinue c) (depth : Nat) (cs : List Char) :
    afterComment? depth (word ++ cs) = afterComment? depth cs := by
  induction word with
  | nil => rfl
  | cons c word ih =>
    rw [List.cons_append, afterComment?_ordinary (ordinary_of_isIdentContinue (hword c List.mem_cons_self))]
    exact ih fun d hd => hword d (List.mem_cons_of_mem _ hd)

/-- A comment ends before the place of the words, or where it ends does not depend on them. -/
theorem afterComment?_filled (depth : Nat) (start after : List Char) :
    (∃ start', start'.length ≤ start.length ∧ ∀ word, isBareWord word →
        afterComment? depth (start ++ word ++ after) = some (start' ++ word ++ after))
      ∨ ∃ found, ∀ word, isBareWord word → afterComment? depth (start ++ word ++ after) = found := by
  fun_induction afterComment? depth start with
  | case1 depth cs ih =>
    rcases ih with ⟨start', hlength, ih⟩ | ih
    · exact .inl ⟨start', by simp; omega, ih⟩
    · exact .inr ih
  | case2 depth cs hdepth =>
    refine .inl ⟨cs, by simp; omega, fun word _ => ?_⟩
    rw [List.cons_append, List.cons_append, List.cons_append, List.cons_append, afterComment?,
      if_pos hdepth]
  | case3 depth cs hdepth ih =>
    have hclose : ∀ cs, afterComment? depth ('*' :: '/' :: cs) = afterComment? (depth - 1) cs :=
      fun cs => by rw [afterComment?, if_neg hdepth]
    rcases ih with ⟨start', hlength, ih⟩ | ⟨found, ih⟩
    · exact .inl ⟨start', by simp; omega, fun word hword => (hclose _).trans (ih word hword)⟩
    · exact .inr ⟨found, fun word hword => (hclose _).trans (ih word hword)⟩
  | case4 depth c cs hopen hclose ih =>
    -- one character is passed; the next one is the first of the word if the start ends here
    have hskip : ∀ word, isBareWord word →
        afterComment? depth (c :: (cs ++ word ++ after)) = afterComment? depth (cs ++ word ++ after) := by
      intro word hword
      cases cs with
      | nil =>
        obtain _ | ⟨d, word⟩ := word
        · exact absurd hword (by simp [isBareWord])
        · have hd := isIdentContinue_of_isBareWord hword d List.mem_cons_self
          exact afterComment?_skip (ordinary_of_isIdentContinue hd) depth _
      | cons d cs =>
        show afterComment? depth (c :: d :: (cs ++ word ++ after)) = _
        rw [afterComment?]
        · rfl
        · rintro ds rfl hds
          exact hopen cs rfl (by rw [(List.cons.inj hds).1])
        · rintro ds rfl hds
          exact hclose cs rfl (by rw [(List.cons.inj hds).1])
    rcases ih with ⟨start', hlength, ih⟩ | ⟨found, ih⟩
    · exact .inl ⟨start', by simp; omega, fun word hword => (hskip word hword).trans (ih word hword)⟩
    · exact .inr ⟨found, fun word hword => (hskip word hword).trans (ih word hword)⟩
  | case5 depth =>
    exact .inr ⟨_, fun word hword => afterComment?_word (isIdentContinue_of_isBareWord hword) depth after⟩

/-- So does a comment that goes on to the end of the line. -/
theorem restOfLine_filled (start after : List Char) :
    (∃ start', start'.length ≤ start.length ∧ ∀ word, isBareWord word →
        (restOfLine (start ++ word ++ after)).2 = start' ++ word ++ after)
      ∨ ∃ found, ∀ word, isBareWord word → (restOfLine (start ++ word ++ after)).2 = found := by
  have hline : ∀ word, (restOfLine (start ++ word ++ after)).2
      = (start ++ (word ++ after)).dropWhile (· ≠ '\n') := fun word => by
    rw [List.append_assoc]
    rfl
  by_cases hstart : (start.dropWhile (· ≠ '\n')).isEmpty
  · refine .inr ⟨after.dropWhile (· ≠ '\n'), fun word hword => ?_⟩
    have hlineFeed : ∀ c ∈ word, decide (c ≠ '\n') = true := fun c hc =>
      decide_eq_true (ne_of_isIdentContinue (isIdentContinue_of_isBareWord hword c hc) (by decide))
    rw [hline, List.dropWhile_append, if_pos hstart, List.dropWhile_append_of_pos hlineFeed]
  · refine .inl ⟨start.dropWhile (· ≠ '\n'), (List.dropWhile_suffix _).length_le, fun word hword => ?_⟩
    rw [hline, List.dropWhile_append, if_neg hstart, List.append_assoc]

theorem afterSlash?_eq_none {c : Char} (hc : c ≠ '*' ∧ c ≠ '/') (cs : List Char) :
    afterSlash? (c :: cs) = none := by
  unfold afterSlash?
  split
  · next heq => exact absurd (List.cons.inj heq).1 hc.2
  · next heq => exact absurd (List.cons.inj heq).1 hc.1
  · rfl

/-- Whatever word is filled in, the rest of a comment holds it, or it ends before it. -/
theorem afterSlash?_filled (start after : List Char) :
    (∃ start', start'.length ≤ start.length ∧ ∀ word, isBareWord word →
        afterSlash? (start ++ word ++ after) = some (start' ++ word ++ after))
      ∨ ∃ found, ∀ word, isBareWord word → afterSlash? (start ++ word ++ after) = found := by
  obtain _ | ⟨c, start⟩ := start
  · refine .inr ⟨none, fun word hword => ?_⟩
    obtain _ | ⟨c, word⟩ := word
    · exact absurd hword (by simp [isBareWord])
    · have hc := isIdentContinue_of_isBareWord hword c List.mem_cons_self
      exact afterSlash?_eq_none (ordinary_of_isIdentContinue hc) _
  by_cases hslash : c = '/'
  · rw [hslash]
    rcases restOfLine_filled start after with ⟨start', hlength, hfilled⟩ | ⟨found, hfilled⟩
    · exact .inl ⟨start', Nat.le_succ_of_le hlength, fun word hword => congrArg some (hfilled word hword)⟩
    · exact .inr ⟨some found, fun word hword => congrArg some (hfilled word hword)⟩
  by_cases hstar : c = '*'
  · rw [hstar]
    rcases afterComment?_filled 1 start after with ⟨start', hlength, hfilled⟩ | ⟨found, hfilled⟩
    · exact .inl ⟨start', Nat.le_succ_of_le hlength, hfilled⟩
    · exact .inr ⟨found, hfilled⟩
  · exact .inr ⟨none, fun word _ => afterSlash?_eq_none ⟨hstar, hslash⟩ _⟩

/-! ## Elements -/

/-- The characters of the identifier that a text begins with. -/
def spelling : List Char → List Char
  | 'r' :: '#' :: cs => 'r' :: '#' :: cs.takeWhile isIdentContinue
  | cs => cs.takeWhile isIdentContinue

theorem plainWord?_takeWhile {name : List Char} (h : plainWord? cs = some (name, rest)) :
    name = cs.takeWhile isIdentContinue := by
  cases cs with
  | nil => exact absurd h (by simp [plainWord?])
  | cons c cs =>
    simp only [plainWord?, Option.ite_none_right_eq_some, Option.some.injEq, Prod.mk.injEq] at h
    obtain ⟨hc, rfl, -⟩ := h
    rw [List.takeWhile_cons, if_pos (isIdentContinue_of_isIdentStart hc)]

theorem spelling_raw (cs : List Char) :
    spelling ('r' :: '#' :: cs) = 'r' :: '#' :: cs.takeWhile isIdentContinue := rfl

theorem spelling_of_ne (h : ∀ cs', cs = 'r' :: '#' :: cs' → False) :
    spelling cs = cs.takeWhile isIdentContinue := by
  unfold spelling
  split
  · exact absurd rfl (h _)
  · rfl

/-- An identifier is spelled with its own characters. -/
theorem toList_of_word? (h : word? cs = some (.word w, rest)) : w.toList = spelling cs := by
  unfold word? at h
  split at h
  · next cs =>
    split at h
    · next name rest' hname =>
      split at h
      · exact absurd h (by simp)
      · simp only [Option.some.injEq, Prod.mk.injEq, Token.word.injEq] at h
        rw [← h.1, String.toList_ofList, spelling_raw, plainWord?_takeWhile hname]
    · exact absurd h (by simp)
  · next hraw =>
    obtain ⟨⟨name, rest'⟩, hname, heq⟩ := Option.map_eq_some_iff.1 h
    rw [← eq_of_ofWord (Prod.mk.inj heq).1, String.toList_ofList, plainWord?_takeWhile hname,
      spelling_of_ne hraw]

/-- Where an identifier ends does not depend on the words, or it ends before them. -/
theorem takeWhile_filled (start after : List Char) :
    (∃ left right, ∀ word, isBareWord word →
        (start ++ word ++ after).takeWhile isIdentContinue = left ++ word ++ right)
      ∨ ∃ found, ∀ word, isBareWord word →
        (start ++ word ++ after).takeWhile isIdentContinue = found := by
  by_cases hstart : start.all isIdentContinue
  · refine .inl ⟨start, after.takeWhile isIdentContinue, fun word hword => ?_⟩
    rw [List.takeWhile_append_of_pos]
    intro c hc
    rcases List.mem_append.1 hc with hc | hc
    · exact List.all_eq_true.1 hstart c hc
    · exact isIdentContinue_of_isBareWord hword c hc
  · refine .inr ⟨start.takeWhile isIdentContinue, fun word hword => ?_⟩
    have hlength : (start.takeWhile isIdentContinue).length ≠ start.length := by
      intro hlength
      refine hstart (List.all_eq_true.2 fun c hc => ?_)
      have hwhole := List.takeWhile_prefix isIdentContinue (l := start) |>.eq_of_length hlength
      rw [← hwhole] at hc
      exact List.all_eq_true.1 List.all_takeWhile c hc
    rw [List.append_assoc, List.takeWhile_append, if_neg hlength]

theorem spelling_of_not_raw (h : ∀ ds, cs ≠ 'r' :: '#' :: ds) :
    spelling cs = cs.takeWhile isIdentContinue := by
  unfold spelling
  split
  · exact absurd rfl (h _)
  · rfl

theorem isIdentContinue_number : isIdentContinue '#' = false := by
  decide

/-- Words do not make an identifier a raw one, unless the mark follows them. -/
theorem not_raw_filled (start after : List Char) (hstart : ∀ ds, start ≠ 'r' :: '#' :: ds)
    (h : after.head? = some '#' → start ++ word ≠ ['r']) (hword : isBareWord word) (ds : List Char) :
    start ++ word ++ after ≠ 'r' :: '#' :: ds := by
  have hcontinue := isIdentContinue_of_isBareWord hword
  have hmark : '#' ∉ word := fun hmem => absurd (hcontinue _ hmem) (by simp [isIdentContinue_number])
  obtain _ | ⟨c, word⟩ := word
  · exact absurd hword (by simp [isBareWord])
  intro heq
  obtain _ | ⟨b, _ | ⟨d, start⟩⟩ := start
  · have hc : c = 'r' := (List.cons.inj heq).1
    cases word with
    | nil =>
      have hafter : after = '#' :: ds := (List.cons.inj heq).2
      exact h (by rw [hafter]; rfl) (by rw [hc]; rfl)
    | cons d word =>
      have hd : d = '#' := (List.cons.inj (List.cons.inj heq).2).1
      exact hmark (by rw [hd]; simp)
  · have hc : c = '#' := (List.cons.inj (List.cons.inj heq).2).1
    exact hmark (by rw [hc]; exact List.mem_cons_self)
  · have hb : b = 'r' := (List.cons.inj heq).1
    have hd : d = '#' := (List.cons.inj (List.cons.inj heq).2).1
    exact hstart start (by rw [hb, hd])

/-- Whatever word is filled in, an identifier holds it, or it is always the same. -/
theorem spelling_filled {start after : List Char} (h : after.head? = some '#' → start ≠ []) :
    (∃ left right, ∀ word, isBareWord word →
        spelling (start ++ word ++ after) = left ++ word ++ right)
      ∨ ∃ found, ∀ word, isBareWord word → spelling (start ++ word ++ after) = found := by
  by_cases hraw : ∃ ds, start = 'r' :: '#' :: ds
  · obtain ⟨ds, rfl⟩ := hraw
    rcases takeWhile_filled ds after with ⟨left, right, hfilled⟩ | ⟨found, hfilled⟩
    · refine .inl ⟨'r' :: '#' :: left, right, fun word hword => ?_⟩
      exact congrArg ('r' :: '#' :: ·) (hfilled word hword)
    · refine .inr ⟨'r' :: '#' :: found, fun word hword => ?_⟩
      exact congrArg ('r' :: '#' :: ·) (hfilled word hword)
  · have hlong : ∀ word, isBareWord word → after.head? = some '#' → start ++ word ≠ ['r'] := by
      intro word hword hmark heq
      rcases List.append_eq_singleton_iff.1 heq with ⟨hnil, -⟩ | ⟨-, hnil⟩
      · exact h hmark hnil
      · exact absurd hword (by simp [hnil, isBareWord])
    have hbare : ∀ word, isBareWord word → spelling (start ++ word ++ after)
        = (start ++ word ++ after).takeWhile isIdentContinue := fun word hword =>
      spelling_of_not_raw (not_raw_filled start after (fun ds hds => hraw ⟨ds, hds⟩) (hlong word hword) hword)
    rcases takeWhile_filled start after with ⟨left, right, hfilled⟩ | ⟨found, hfilled⟩
    · exact .inl ⟨left, right, fun word hword => (hbare word hword).trans (hfilled word hword)⟩
    · exact .inr ⟨found, fun word hword => (hbare word hword).trans (hfilled word hword)⟩

/-! ## Identifiers -/

section Identifiers

variable {start : List Char} {words : List Char → Prop} {identifier : List Char → String}

/-- Either each word stands between the same characters in its identifier, or there is one identifier
for all words. -/
def HoldsOrIgnores (words : List Char → Prop) (identifier : List Char → String) : Prop :=
  (∃ left right, ∀ word, words word → (identifier word).toList = left ++ word ++ right)
    ∨ ∃ w, ∀ word, words word → identifier word = w

theorem holdsOrIgnores_of_eq (h : ∀ word, words word → ∀ word', words word' →
    identifier word = identifier word') : HoldsOrIgnores words identifier := by
  by_cases hwords : ∃ word, words word
  · obtain ⟨word, hword⟩ := hwords
    exact .inr ⟨identifier word, fun word' hword' => h word' hword' word hword⟩
  · exact .inr ⟨"", fun word hword => absurd ⟨word, hword⟩ hwords⟩

/-- A text that begins with neither a blank nor a comment begins with its identifier. -/
theorem element?_of_head {c : Char} (hc : ¬ isSeparator c) (hslash : c ≠ '/')
    (h : scanFrom before (c :: cs) = some (before.reverse ++ [.word w])) :
    ∃ rest, element? (c :: cs) = some ([.word w], rest)
      ∧ scanFrom (.word w :: before) rest = some (Token.word w :: before).reverse := by
  rcases element?_of_scanFrom_word h with ⟨rest, hgap, -⟩ | hword
  · rcases element?_gap_cases hgap with ⟨hsep, -⟩ | ⟨heq, -⟩
    · exact absurd hsep hc
    · exact absurd heq hslash
  · exact hword

/-- If the identifier is the first element, it holds the word or ignores it. -/
theorem holdsOrIgnores_of_element? (start after : List Char) (hmark : after.head? = some '#' → start ≠ [])
    (hwords : ∀ word, words word → isBareWord word)
    (h : ∀ word, words word →
      ∃ rest, element? (start ++ word ++ after) = some ([.word (identifier word)], rest)) :
    HoldsOrIgnores words identifier := by
  have hspelling : ∀ word, words word →
      (identifier word).toList = spelling (start ++ word ++ after) := by
    intro word hword
    obtain ⟨rest, hfound⟩ := h word hword
    exact toList_of_word? (word?_of_element? hfound)
  rcases spelling_filled hmark with ⟨left, right, hfilled⟩ | ⟨found, hfilled⟩
  · exact .inl ⟨left, right, fun word hword =>
      (hspelling word hword).trans (hfilled word (hwords word hword))⟩
  · refine .inr ⟨String.ofList found, fun word hword => String.toList_inj.1 ?_⟩
    rw [hspelling word hword, hfilled word (hwords word hword), String.toList_ofList]

/-- A mark of raw identifiers can follow the word `r` only. -/
theorem eq_r_of_element? (hword : isBareWord word) (hmark : after.head? = some '#')
    (hfound : element? (word ++ after) = some ([.word w], rest))
    (hrest : scanFrom (.word w :: before) rest = some (Token.word w :: before).reverse) :
    word = ['r'] := by
  refine Decidable.byContradiction fun hne => ?_
  have hbare : ∀ ds, word ++ after ≠ 'r' :: '#' :: ds :=
    not_raw_filled [] after (by simp) (fun _ => hne) hword
  have hw : w.toList = word := by
    rw [toList_of_word? (word?_of_element? hfound), spelling_of_not_raw hbare,
      List.takeWhile_append_of_pos (isIdentContinue_of_isBareWord hword)]
    obtain ⟨ds, rfl⟩ := List.head?_eq_some_iff.1 hmark
    rw [List.takeWhile_cons_of_neg (by simp [isIdentContinue_number]), List.append_nil]
  obtain ⟨-, hcs⟩ := spelling_of_word? (word?_of_element? hfound)
  rw [hw] at hcs
  obtain rfl := List.append_cancel_left hcs
  have hafter : after ≠ [] := by
    rintro rfl
    exact absurd hmark (by simp)
  obtain ⟨ds, hgap, -⟩ := element?_of_scanFrom hafter hrest
  have hapart := isApart_of_gap hgap
  rw [isApart, hmark] at hapart
  exact absurd hapart (by simp)

/-- Only a comment can begin with a slash. -/
theorem scanFrom_slash (h : scanFrom before ('/' :: cs) = some (before.reverse ++ [.word w])) :
    ∃ rest, afterSlash? cs = some rest
      ∧ scanFrom before rest = some (before.reverse ++ [.word w]) := by
  rcases element?_of_scanFrom_word h with ⟨rest, hgap, hrest⟩ | ⟨rest, hword, -⟩
  · rcases element?_gap_cases hgap with ⟨hsep, -⟩ | ⟨-, hcomment⟩
    · exact absurd hsep (by decide)
    · exact ⟨rest, hcomment, hrest⟩
  · have hnone : word? ('/' :: cs) = none := rfl
    rw [word?_of_element? hword] at hnone
    exact absurd hnone (by simp)

/-- Where a text begins with the words, it begins with identifiers that hold them. -/
theorem holdsOrIgnores_of_first (hwords : ∀ word, words word → isBareWord word)
    (h : ∀ word, words word →
      scanFrom before (word ++ after) = some (before.reverse ++ [.word (identifier word)])) :
    HoldsOrIgnores words identifier := by
  have hfound : ∀ word, words word → ∃ rest,
      element? (word ++ after) = some ([.word (identifier word)], rest)
        ∧ scanFrom (.word (identifier word) :: before) rest
          = some (Token.word (identifier word) :: before).reverse := by
    intro word hword
    have hscan := h word hword
    have hbare := hwords word hword
    obtain _ | ⟨c, word⟩ := word
    · exact absurd hbare (by simp [isBareWord])
    have hc := isIdentContinue_of_isBareWord hbare c List.mem_cons_self
    exact element?_of_head (by simp [isSeparator_eq_false hc]) (ordinary_of_isIdentContinue hc).2 hscan
  by_cases hmark : after.head? = some '#'
  · have hr : ∀ word, words word → word = ['r'] := by
      intro word hword
      obtain ⟨rest, hfirst, hrest⟩ := hfound word hword
      exact eq_r_of_element? (hwords word hword) hmark hfirst hrest
    exact holdsOrIgnores_of_eq fun word hword word' hword' => by rw [hr word hword, hr word' hword']
  · refine holdsOrIgnores_of_element? [] after (fun heq => absurd heq hmark) hwords
      fun word hword => ?_
    obtain ⟨rest, hfirst, -⟩ := hfound word hword
    exact ⟨rest, hfirst⟩

/-- A text holds one identifier at most. -/
theorem identifier_unique {w' : String}
    (h : scanFrom before rest = some (before.reverse ++ [.word w]))
    (h' : scanFrom before rest = some (before.reverse ++ [.word w'])) : w = w' := by
  rw [h] at h'
  exact Token.word.inj (List.cons.inj (List.append_cancel_left (Option.some.inj h'))).1

/-- The identifiers in texts that hold nothing else, with the words filled in. -/
theorem holdsOrIgnores_filled (start : List Char) (hwords : ∀ word, words word → isBareWord word)
    (h : ∀ word, words word → scanFrom before (start ++ word ++ after)
      = some (before.reverse ++ [.word (identifier word)])) : HoldsOrIgnores words identifier := by
  match start with
  | [] => exact holdsOrIgnores_of_first hwords h
  | c :: start =>
    by_cases hc : isSeparator c
    · refine holdsOrIgnores_filled start hwords fun word hword => ?_
      exact (scanFrom_element (element?_separator hc _) before).symm.trans (h word hword)
    by_cases hslash : c = '/'
    · rw [hslash] at h
      rcases afterSlash?_filled start after with ⟨start', hlength, hfilled⟩ | ⟨found, hfilled⟩
      · refine holdsOrIgnores_filled start' hwords fun word hword => ?_
        obtain ⟨rest, hcomment, hrest⟩ := scanFrom_slash (h word hword)
        have heq : start' ++ word ++ after = rest :=
          Option.some.inj ((hfilled word (hwords word hword)).symm.trans hcomment)
        rw [heq]
        exact hrest
      · -- the words stand in the comment, so the texts do not differ behind it
        refine holdsOrIgnores_of_eq fun word hword word' hword' => ?_
        obtain ⟨rest, hcomment, hrest⟩ := scanFrom_slash (h word hword)
        obtain ⟨rest', hcomment', hrest'⟩ := scanFrom_slash (h word' hword')
        have hfound : found = some rest := (hfilled word (hwords word hword)).symm.trans hcomment
        have hfound' : found = some rest' := (hfilled word' (hwords word' hword')).symm.trans hcomment'
        obtain rfl := Option.some.inj (hfound.symm.trans hfound')
        exact identifier_unique hrest hrest'
    · refine holdsOrIgnores_of_element? (c :: start) after (fun _ => List.cons_ne_nil c start) hwords
        fun word hword => ?_
      obtain ⟨rest, hfound, -⟩ := element?_of_head hc hslash (h word hword)
      exact ⟨rest, hfound⟩
termination_by start.length

end Identifiers

end EnumNames.Target
