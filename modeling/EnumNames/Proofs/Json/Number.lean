import EnumNames.Json.Value
import EnumNames.Proofs.Json.Reader
import EnumNames.Proofs.Text.Utf8

/-!
# Reading a written integer

An integer that was written is read as it was, if it fits 64 bits with or without a sign and what
follows it is no part of a number.

* `EndsPart`: a part of a document ends here.
* `yields_number`: a written integer.
-/

namespace EnumNames.Json

open Text (bytesOf)

variable {s rest : List UInt8} {cs : List Char} {n : Nat}

/-- A comma or a closing bracket comes next. -/
def EndsPart (rest : List UInt8) : Prop :=
  ∃ x s, rest = x :: s ∧ (x = 0x2c ∨ x = 0x5d ∨ x = 0x7d)

/-! ## Digits -/

theorem isDigit_of_mem {c : Char} (h : c ∈ Nat.toDigits 10 n) : c.isDigit :=
  Nat.isDigit_of_mem_toDigits (by decide) (by decide) h

/-- The bytes of digits. -/
theorem bytesOf_digits (h : ∀ c ∈ cs, c.isDigit) :
    bytesOf cs = cs.map fun c => UInt8.ofNat c.toNat :=
  Text.bytesOf_eq_map fun c hc => by
    have hle : c.toNat ≤ 0x39 := (Char.isDigit_iff_toNat.1 (h c hc)).2
    omega

theorem bytesOf_cons_digit {c : Char} (h : c.isDigit) (cs : List Char) :
    bytesOf (c :: cs) = UInt8.ofNat c.toNat :: bytesOf cs := by
  have hle : c.toNat ≤ 0x39 := (Char.isDigit_iff_toNat.1 h).2
  rw [Text.bytesOf_cons, Text.utf8EncodeChar_of_lt (by omega), List.singleton_append]

theorem ofUInt8_digit {c : Char} (h : c.isDigit) : Char.ofUInt8 (UInt8.ofNat c.toNat) = c :=
  Text.ofUInt8_ofNat (by
    have hle : c.toNat ≤ 0x39 := (Char.isDigit_iff_toNat.1 h).2
    omega)

/-- Digits are one byte each. -/
theorem isDigitByte_of_mem (h : ∀ c ∈ cs, c.isDigit) {x : UInt8} (hx : x ∈ bytesOf cs) :
    isDigitByte x := by
  rw [bytesOf_digits h, List.mem_map] at hx
  obtain ⟨c, hc, rfl⟩ := hx
  have hlow : 0x30 ≤ c.toNat := (Char.isDigit_iff_toNat.1 (h c hc)).1
  have hhigh : c.toNat ≤ 0x39 := (Char.isDigit_iff_toNat.1 (h c hc)).2
  have hnat : (UInt8.ofNat c.toNat).toNat = c.toNat := by
    rw [UInt8.toNat_ofNat']
    omega
  simp only [isDigitByte, Bool.and_eq_true, decide_eq_true_eq, UInt8.le_iff_toNat_le, hnat]
  exact ⟨hlow, hhigh⟩

/-- The values of some digits. -/
def digitValues (cs : List Char) : List Nat :=
  cs.map fun c => c.toNat - '0'.toNat

/-- The bytes of digits have their values. -/
theorem map_digitValue (h : ∀ c ∈ cs, c.isDigit) :
    (bytesOf cs).map digitValue = digitValues cs := by
  rw [bytesOf_digits h, digitValues, List.map_map]
  apply List.map_congr_left
  intro c hc
  have hhigh : c.toNat ≤ 0x39 := (Char.isDigit_iff_toNat.1 (h c hc)).2
  show (UInt8.ofNat c.toNat).toNat - 0x30 = c.toNat - 0x30
  rw [UInt8.toNat_ofNat', Nat.mod_eq_of_lt (by omega)]

/-- Only zero begins with a zero. -/
theorem eq_zero_of_head?_toDigits (h : (Nat.toDigits 10 n).head? = some '0') : n = 0 := by
  have hchar : ∀ d < 10, Nat.digitChar d = '0' → d = 0 := by
    decide
  -- the digits of a greater number begin as those of its tenth
  induction n using Nat.strongRecOn with
  | ind n ih =>
    by_cases hn : n < 10
    · rw [Nat.toDigits_of_lt_base hn, List.head?_cons] at h
      exact hchar n hn (Option.some.inj h)
    · obtain ⟨c, cs, hcs⟩ := List.exists_cons_of_ne_nil
        (Nat.toDigits_ne_nil (n := n / 10) (b := 10))
      rw [Nat.toDigits_of_base_le (by decide) (Nat.le_of_not_lt hn), hcs] at h
      have hzero := ih (n / 10) (by omega) (by rw [hcs]; exact h)
      omega

/-! ## Taking the parts -/

/-- No digit follows the end of a part. -/
theorem EndsPart.isDigitByte_eq_false {x : UInt8} (h : EndsPart (x :: s)) :
    isDigitByte x = false := by
  obtain ⟨_, _, heq, hx⟩ := h
  obtain ⟨rfl, rfl⟩ := List.cons.inj heq
  rcases hx with rfl | rfl | rfl <;> decide

/-- All digits are taken. -/
theorem takeWhile_digits (h : ∀ c ∈ cs, c.isDigit) (hrest : EndsPart rest) :
    (bytesOf cs ++ rest).takeWhile isDigitByte = bytesOf cs := by
  obtain ⟨x, s, rfl, -⟩ := id hrest
  rw [List.takeWhile_append_of_pos fun x hx => isDigitByte_of_mem h hx,
    List.takeWhile_cons_of_neg (by simp [hrest.isDigitByte_eq_false]), List.append_nil]

theorem dropWhile_digits (h : ∀ c ∈ cs, c.isDigit) (hrest : EndsPart rest) :
    (bytesOf cs ++ rest).dropWhile isDigitByte = rest := by
  obtain ⟨x, s, rfl, -⟩ := id hrest
  rw [List.dropWhile_append_of_pos fun x hx => isDigitByte_of_mem h hx,
    List.dropWhile_cons_of_neg (by simp [hrest.isDigitByte_eq_false])]

/-- At least one digit is taken. -/
theorem yields_takeSomeDigits (atEnd : Error) (hne : cs ≠ []) (h : ∀ c ∈ cs, c.isDigit)
    (hrest : EndsPart rest) :
    Yields (takeSomeDigits atEnd (bytesOf cs ++ rest)) (digitValues cs) rest := by
  obtain ⟨c, cs, rfl⟩ := List.exists_cons_of_ne_nil hne
  have hbytes := bytesOf_cons_digit (h c List.mem_cons_self) cs
  have hdigit : isDigitByte (UInt8.ofNat c.toNat) :=
    isDigitByte_of_mem h (by rw [hbytes]; exact List.mem_cons_self)
  have hvalues : leadingDigits (bytesOf (c :: cs) ++ rest) = digitValues (c :: cs) := by
    rw [leadingDigits, takeWhile_digits h hrest, map_digitValue h]
  rw [hbytes, List.cons_append] at hvalues ⊢
  rw [takeSomeDigits, if_pos hdigit]
  exact ⟨_, rfl, hvalues, dropWhile_digits (fun c' hc' => h c' (List.mem_cons_of_mem c hc')) hrest⟩

/-- No number but zero is written with a zero in front. -/
theorem head?_digitValues (h : (digitValues (Nat.toDigits 10 n)).head? = some 0) :
    digitValues (Nat.toDigits 10 n) = [0] := by
  rw [digitValues, List.head?_map, Option.map_eq_some_iff] at h
  obtain ⟨c, hc, hzero⟩ := h
  have hlow : 0x30 ≤ c.toNat :=
    (Char.isDigit_iff_toNat.1 (isDigit_of_mem (List.mem_of_mem_head? hc))).1
  have hzero' : c.toNat - 0x30 = 0 := hzero
  obtain rfl : c = '0' := Char.toNat_inj.1 (by show c.toNat = 0x30; omega)
  obtain rfl := eq_zero_of_head?_toDigits hc
  rfl

/-- A number is taken without zeros in front of it. -/
theorem yields_takeWhole (atEnd : Error) (n : Nat) (hrest : EndsPart rest) :
    Yields (takeWhole atEnd (bytesOf (Nat.toDigits 10 n) ++ rest))
      (digitValues (Nat.toDigits 10 n)) rest := by
  obtain ⟨t, ht, hvalue, htrest⟩ := yields_takeSomeDigits atEnd (Nat.toDigits_ne_nil (n := n))
    (fun _ => isDigit_of_mem) hrest
  -- the digits are not refused for a zero in front
  have hzero : ¬ (t.value.head? = some 0 ∧ t.value ≠ [0]) := by
    rw [hvalue]
    exact fun h => h.2 (head?_digitValues h.1)
  rw [takeWhole, ht]
  show Yields (if _ then _ else _) _ _
  rw [if_neg hzero]
  exact ⟨t, rfl, hvalue, htrest⟩

/-- Neither a point nor an exponent follows the digits. -/
theorem yields_takeUnsigned (atEnd : Error) (negative : Bool) (n : Nat) (hrest : EndsPart rest) :
    Yields (takeUnsigned atEnd negative (bytesOf (Nat.toDigits 10 n) ++ rest))
      ⟨negative, digitValues (Nat.toDigits 10 n), [], none⟩ rest := by
  obtain ⟨t, ht, hvalue, htrest⟩ := yields_takeWhole atEnd n hrest
  obtain ⟨x, s, heq, hx⟩ := hrest
  have hchar : Char.ofUInt8 x ≠ '.' ∧ ¬ (Char.ofUInt8 x = 'e' ∨ Char.ofUInt8 x = 'E') := by
    rcases hx with rfl | rfl | rfl <;> decide
  have hfraction : takeFraction atEnd t.rest = .ok ([], .nothing t.rest) := by
    rw [htrest, heq, takeFraction, if_neg hchar.1]
  have hexponent : takeExponent atEnd t.rest = .ok (none, .nothing t.rest) := by
    rw [htrest, heq, takeExponent, if_neg hchar.2]
  rw [takeUnsigned, ht]
  show Yields (takeFraction atEnd t.rest >>= _) _ _
  rw [hfraction]
  show Yields (takeExponent atEnd t.rest >>= _) _ _
  rw [hexponent]
  exact ⟨_, rfl, by rw [← hvalue]; rfl, htrest⟩

/-! ## Evaluation -/

theorem le_foldl (ds : List Nat) (n : Nat) : n ≤ ds.foldl (fun n d => 10 * n + d) n := by
  induction ds generalizing n with
  | nil => exact Nat.le_refl n
  | cons d ds ih => exact Nat.le_trans (by omega) (ih (10 * n + d))

/-- No digit is left over if all of them fit. -/
theorem gather_eq {ds : List Nat} {n : Nat}
    (h : ds.foldl (fun n d => 10 * n + d) n < 0x10000000000000000) :
    gather n ds = (ds.foldl (fun n d => 10 * n + d) n, 0) := by
  induction ds generalizing n with
  | nil => rfl
  | cons d ds ih =>
    have hle := le_foldl ds (10 * n + d)
    rw [List.foldl_cons] at h ⊢
    rw [gather, if_pos (Nat.lt_of_le_of_lt hle h), ih h]

/-- The digits of a number denote it. -/
theorem foldl_digitValues (n : Nat) :
    (digitValues (Nat.toDigits 10 n)).foldl (fun n d => 10 * n + d) 0 = n := by
  rw [digitValues, List.foldl_map]
  exact Nat.ofDigitChars_ten_toDigits

/-- The digits of a number of 64 bits are gathered without a rest. -/
theorem gather_digitValues (h : n < 0x10000000000000000) :
    gather 0 (digitValues (Nat.toDigits 10 n)) = (n, 0) := by
  rw [gather_eq (by rwa [foldl_digitValues]), foldl_digitValues]

/-- The parts of an integer are evaluated to it. -/
theorem value?_natural (h : n < 0x10000000000000000) :
    Numeral.value? ⟨false, digitValues (Nat.toDigits 10 n), [], none⟩ = .ok (.integer n) := by
  rw [Numeral.value?]
  dsimp only
  rw [gather_digitValues h]
  rfl

/-- A negative number of 64 bits is an integer. -/
theorem value?_negative (hne : n ≠ 0) (h : n ≤ 0x8000000000000000) :
    Numeral.value? ⟨true, digitValues (Nat.toDigits 10 n), [], none⟩ = .ok (.integer (-n)) := by
  rw [Numeral.value?]
  dsimp only
  rw [gather_digitValues (by omega)]
  dsimp only
  rw [if_pos ⟨rfl, rfl, rfl⟩, if_neg (by decide), if_neg (by omega)]

/-! ## Reading -/

theorem yields_readNumber {numeral : Numeral} {number : Number}
    (h : Yields (takeNumeral (.ended .value) s) numeral rest)
    (hvalue : numeral.value? = .ok number) : Yields (readNumber s) number rest := by
  obtain ⟨t, ht, rfl, hrest⟩ := h
  rw [readNumber, ht]
  show Yields (t.value.value? >>= _) _ _
  rw [hvalue]
  exact ⟨_, rfl, rfl, hrest⟩

/-- A number is read from its sign or first digit on. -/
theorem yields_number_of_readNumber {x : UInt8} {number : Number} (expected : String)
    (hx : Char.ofUInt8 x = '-' ∨ (Char.ofUInt8 x).isDigit)
    (h : Yields (readNumber (x :: s)) number rest) :
    Yields (Reader.number expected (x :: s)) number rest := by
  -- neither a sign nor a digit is passed as a blank
  have hblank : isBlankByte x = false := by
    refine Bool.eq_false_iff.2 fun hblank => ?_
    simp only [isBlankByte, Bool.or_eq_true, beq_iff_eq] at hblank
    rcases hblank with ((rfl | rfl) | rfl) | rfl <;> exact absurd hx (by decide)
  obtain ⟨p, hp, hchar, -, hwhole⟩ := exists_peek? rfl hblank
  rw [Reader.number, hp]
  dsimp only
  rw [hchar, if_pos hx]
  rw [← hwhole] at h
  exact h.map (fun _ => id) fun _ => rfl

/-- A number of 64 bits is read from its digits. -/
theorem yields_number_natural (expected : String) (h : n < 0x10000000000000000)
    (hrest : EndsPart rest) :
    Yields (Reader.number expected (bytesOf (Nat.toDigits 10 n) ++ rest)) (.integer n) rest := by
  have hnumeral := yields_takeUnsigned (.ended .value) false n hrest
  have hvalue := value?_natural h
  -- the first digit decides that there is no sign
  obtain ⟨c, cs, hcs⟩ := List.exists_cons_of_ne_nil (Nat.toDigits_ne_nil (n := n) (b := 10))
  have hc : c.isDigit := isDigit_of_mem (n := n) (by rw [hcs]; exact List.mem_cons_self)
  have hminus : Char.ofUInt8 (UInt8.ofNat c.toNat) ≠ '-' := by
    rw [ofUInt8_digit hc]
    rintro rfl
    exact absurd hc (by decide)
  rw [hcs, bytesOf_cons_digit hc, List.cons_append] at hnumeral ⊢
  apply yields_number_of_readNumber expected (.inr (by rwa [ofUInt8_digit hc]))
  rw [hcs] at hvalue
  refine yields_readNumber ?_ hvalue
  rw [takeNumeral, if_neg hminus]
  exact hnumeral

theorem yields_number_negative (expected : String) (hne : n ≠ 0) (h : n ≤ 0x8000000000000000)
    (hrest : EndsPart rest) :
    Yields (Reader.number expected (0x2d :: bytesOf (Nat.toDigits 10 n) ++ rest)) (.integer (-n))
      rest := by
  apply yields_number_of_readNumber expected (.inl (by decide))
  refine yields_readNumber ?_ (value?_negative hne h)
  rw [takeNumeral, if_pos (by decide)]
  exact (yields_takeUnsigned (.ended .value) true n hrest).map (fun _ => id) fun _ => rfl

/-- A written integer is read. -/
theorem yields_number (expected : String) {n : Int} (hlow : -0x8000000000000000 ≤ n)
    (hhigh : n < 0x10000000000000000) (hrest : EndsPart rest) :
    Yields (Reader.number expected (bytesOf (Number.integer n).text.toList ++ rest))
      (.integer n) rest := by
  cases n with
  | ofNat n =>
    have htext : (Number.integer (.ofNat n)).text.toList = Nat.toDigits 10 n := by
      show (Nat.repr n).toList = _
      rw [Nat.toList_repr]
    rw [htext]
    exact yields_number_natural expected (Int.ofNat_lt.1 hhigh) hrest
  | negSucc n =>
    have htext : (Number.integer (.negSucc n)).text.toList = '-' :: Nat.toDigits 10 (n + 1) := by
      show ("-" ++ (n + 1).repr).toList = _
      rw [String.toList_append, Nat.toList_repr]
      rfl
    rw [htext]
    exact yields_number_negative expected (Nat.succ_ne_zero n) (by omega) hrest

end EnumNames.Json
