import EnumNames.Json.Value
import EnumNames.Proofs.Json.Number
import EnumNames.Proofs.Json.Text

/-!
# Reading written values and lists

A value that was written is read as it was, before whatever part of the document. For a list this
follows from its elements: a comma or the closing bracket ends each of them, and none begins with a
closing bracket.

* `ReadsBack`: a reader takes a written value for what it is.
* `yields_moreElements`: the elements of a list, up to its closing bracket.
* `readsBack_text`, `readsBack_number`, `readsBack_list`: written values.
-/

namespace EnumNames.Json

open Text (bytesOf)

variable {α β : Type} {s s' rest : List UInt8} {read : Reader α} {t : Tree} {a : α} {x : UInt8}

/-- A reader takes a written value for what it is, before whatever part of the document. -/
def ReadsBack (read : Reader α) (t : Tree) (a : α) : Prop :=
  ∀ rest, EndsPart rest → Yields (read (bytesOf t.chars ++ rest)) a rest

/-- What is made of a value that is read back is read back. -/
theorem ReadsBack.map (h : ReadsBack read t a) (f : α → β) :
    ReadsBack (fun s => do return (← read s).map f) t (f a) := by
  intro rest hrest
  obtain ⟨u, hu, rfl, hurest⟩ := h rest hrest
  show Yields (read _ >>= _) _ _
  rw [hu]
  exact ⟨_, rfl, rfl, hurest⟩

theorem readsBack_text (expected text : String) :
    ReadsBack (Reader.text expected) (.text text) text := by
  intro rest _
  rw [Tree.chars]
  exact yields_text expected text rest

/-- An integer of 64 bits is read back, signed or not. -/
theorem readsBack_number (expected : String) {n : Int} (hlow : -0x8000000000000000 ≤ n)
    (hhigh : n < 0x10000000000000000) :
    ReadsBack (Reader.number expected) (.number (Number.integer n).text) (.integer n) := by
  intro rest hrest
  rw [Tree.chars]
  exact yields_number expected hlow hhigh hrest

/-! ## Openings -/

/-- A byte that opens a value: a quote or an opening bracket. -/
def IsOpening (x : UInt8) : Prop :=
  x = 0x22 ∨ x = 0x5b ∨ x = 0x7b

/-- An opening is no blank, no closing bracket and no letter of null. -/
theorem IsOpening.apart (h : IsOpening x) :
    isBlankByte x = false ∧ Char.ofUInt8 x ≠ ']' ∧ Char.ofUInt8 x ≠ 'n' := by
  rcases h with rfl | rfl | rfl <;> decide

/-- A written value begins with an opening. -/
def Tree.IsOpened (t : Tree) : Prop :=
  ∃ x s, bytesOf t.chars = x :: s ∧ IsOpening x

theorem isOpened_text (text : String) : (Tree.text text).IsOpened := by
  refine ⟨0x22, bytesOf (text.toList.flatMap escapeChar ++ ['"']), ?_, .inl rfl⟩
  rw [Tree.chars]
  rfl

/-- A record begins like a value. -/
theorem isOpened_record (fields : List (String × Tree)) : (Tree.record fields).IsOpened := by
  refine ⟨0x7b, bytesOf (Tree.fieldChars fields ++ ['\x7d']), ?_, .inr (.inr rfl)⟩
  rw [Tree.chars]
  rfl

/-- What is opened is not null. -/
theorem readsBack_nullable (h : ReadsBack read t a) (ht : t.IsOpened) :
    ReadsBack (Reader.nullable read) t (some a) := by
  intro rest hrest
  have hread := h rest hrest
  obtain ⟨x, s, hbytes, hx⟩ := ht
  obtain ⟨hblank, -, hnull⟩ := hx.apart
  rw [hbytes, List.cons_append] at hread ⊢
  obtain ⟨p, hp, hchar, -⟩ := exists_peek? rfl hblank
  rw [Reader.nullable, hp]
  dsimp only
  rw [hchar, if_neg hnull]
  exact hread.map (fun _ => congrArg some) fun _ => rfl

/-! ## Lists -/

/-- The elements of a list, each after a comma. -/
def moreElementChars (ts : List Tree) : List Char :=
  ts.flatMap fun t => ',' :: t.chars

theorem elementChars_cons (t : Tree) (ts : List Tree) :
    Tree.elementChars (t :: ts) = t.chars ++ moreElementChars ts := by
  induction ts generalizing t with
  | nil => rw [Tree.elementChars, moreElementChars, List.flatMap_nil, List.append_nil]
  | cons t' ts ih =>
    rw [Tree.elementChars, ih]
    · rfl
    · exact nofun

theorem bytesOf_moreElementChars (t : Tree) (ts : List Tree) :
    bytesOf (moreElementChars (t :: ts))
      = 0x2c :: (bytesOf t.chars ++ bytesOf (moreElementChars ts)) := by
  rw [moreElementChars, List.flatMap_cons, Text.bytesOf_append]
  rfl

/-- Elements or fields after a comma end the part before them, and so does a closing bracket. -/
theorem endsPart_comma (s : List UInt8) : EndsPart (0x2c :: s) :=
  ⟨_, _, rfl, .inl rfl⟩

/-- After an element, another one follows or the list ends. -/
theorem endsPart_moreElementChars (ts : List Tree) (s : List UInt8) :
    EndsPart (bytesOf (moreElementChars ts) ++ 0x5d :: s) := by
  cases ts with
  | nil => exact ⟨_, _, rfl, .inr (.inl rfl)⟩
  | cons t ts => exact endsPart_comma _

/-- At the closing bracket there is no further element. -/
theorem nextElement_end (isFirst : Bool) (s : List UInt8) :
    Reader.nextElement isFirst (0x5d :: s) = .ok none := by
  obtain ⟨p, hp, hchar, -⟩ := exists_peek? (s := 0x5d :: s) rfl rfl
  rw [Reader.nextElement, hp]
  dsimp only
  rw [if_pos (hchar.trans (by decide))]

/-- The first element is read without a comma. -/
theorem exists_nextElement_first (ht : t.IsOpened) (s : List UInt8) :
    ∃ next, Reader.nextElement true (bytesOf t.chars ++ s) = .ok (some next)
      ∧ next.rest = bytesOf t.chars ++ s := by
  obtain ⟨x, bytes, hbytes, hx⟩ := ht
  obtain ⟨hblank, hclosing, -⟩ := hx.apart
  obtain ⟨p, hp, hchar, -, hwhole⟩ := exists_peek? (congrArg (· ++ s) hbytes) hblank
  rw [Reader.nextElement, hp]
  dsimp only
  rw [hchar, if_neg hclosing, if_pos rfl]
  exact ⟨_, rfl, hwhole⟩

theorem exists_nextElement_later (ht : t.IsOpened) (s : List UInt8) :
    ∃ next, Reader.nextElement false (0x2c :: (bytesOf t.chars ++ s)) = .ok (some next)
      ∧ next.rest = bytesOf t.chars ++ s := by
  obtain ⟨x, bytes, hbytes, hx⟩ := ht
  obtain ⟨hblank, hclosing, -⟩ := hx.apart
  obtain ⟨p, hp, hchar, hrest, -⟩ := exists_peek? (s := 0x2c :: (bytesOf t.chars ++ s)) rfl rfl
  obtain ⟨q, hq, hqchar, -, hqwhole⟩ := exists_peek? (hrest.trans (congrArg (· ++ s) hbytes)) hblank
  have hcomma : p.char = ',' := hchar.trans (by decide)
  rw [Reader.nextElement, hp]
  dsimp only
  rw [if_neg (by rw [hcomma]; decide), if_neg (by decide), if_pos hcomma, hq]
  dsimp only
  rw [hqchar, if_neg hclosing]
  exact ⟨_, rfl, hqwhole.trans hrest⟩

theorem yields_listEnd (as : List α) (s : List UInt8) :
    Yields (Reader.listEnd as (0x5d :: s)) as s := by
  obtain ⟨p, hp, hchar, hrest, -⟩ := exists_peek? (s := 0x5d :: s) rfl rfl
  rw [Reader.listEnd, hp]
  dsimp only
  rw [if_pos (hchar.trans (by decide))]
  exact ⟨_, rfl, rfl, hrest⟩

theorem yields_elements_end (before : List α) (s : List UInt8) :
    Yields (Reader.elements read before (0x5d :: s)) before.reverse s := by
  rw [Reader.elements, nextElement_end]
  exact yields_listEnd before.reverse s

/-- One element is read if it is reached, then those after it. -/
theorem yields_elements_cons {before as : List α} (hread : ReadsBack read t a)
    (hnext : ∃ next, Reader.nextElement before.isEmpty s = .ok (some next)
      ∧ next.rest = bytesOf t.chars ++ s')
    (hends : EndsPart s') (h : Yields (Reader.elements read (a :: before) s') as rest) :
    Yields (Reader.elements read before s) as rest := by
  obtain ⟨next, hnext, hs⟩ := hnext
  have helement := hread s' hends
  rw [← hs] at helement
  obtain ⟨u, hu, rfl, rfl⟩ := helement
  obtain ⟨v, hv, has, hrest⟩ := h
  rw [Reader.elements, hnext]
  dsimp only
  rw [hu]
  dsimp only
  rw [hv]
  exact ⟨_, rfl, has, hrest⟩

section Elements

variable {f : α → Tree} {as : List α}

/-- The elements that follow others are read in order. -/
theorem yields_moreElements (h : ∀ a ∈ as, ReadsBack read (f a) a ∧ (f a).IsOpened)
    (before : List α) (hbefore : before.isEmpty = false) (s : List UInt8) :
    Yields (Reader.elements read before (bytesOf (moreElementChars (as.map f)) ++ 0x5d :: s))
      (before.reverse ++ as) s := by
  -- the reader keeps the elements before these in reverse
  induction as generalizing before with
  | nil =>
    rw [List.append_nil]
    exact yields_elements_end before s
  | cons a as ih =>
    obtain ⟨hread, hopened⟩ := h a List.mem_cons_self
    have hmore := ih (fun a' ha' => h a' (List.mem_cons_of_mem a ha')) (a :: before) rfl
    rw [List.reverse_cons, List.append_assoc, List.singleton_append] at hmore
    rw [List.map_cons, bytesOf_moreElementChars, List.cons_append, List.append_assoc]
    refine yields_elements_cons hread ?_ (endsPart_moreElementChars (as.map f) s) hmore
    rw [hbefore]
    exact exists_nextElement_later hopened _

/-- The elements of a list are read back in order. -/
theorem yields_elements (h : ∀ a ∈ as, ReadsBack read (f a) a ∧ (f a).IsOpened) (s : List UInt8) :
    Yields (Reader.elements read [] (bytesOf (Tree.elementChars (as.map f)) ++ 0x5d :: s)) as
      s := by
  cases as with
  | nil => exact yields_elements_end [] s
  | cons a as =>
    obtain ⟨hread, hopened⟩ := h a List.mem_cons_self
    have hmore := yields_moreElements (fun a' ha' => h a' (List.mem_cons_of_mem a ha')) [a] rfl s
    rw [List.map_cons, elementChars_cons, Text.bytesOf_append, List.append_assoc]
    exact yields_elements_cons hread (exists_nextElement_first hopened _)
      (endsPart_moreElementChars (as.map f) s) hmore

/-- A written list is read, if its elements are. -/
theorem readsBack_list (h : ∀ a ∈ as, ReadsBack read (f a) a ∧ (f a).IsOpened) :
    ReadsBack (Reader.list read) (.list (as.map f)) as := by
  intro rest _
  have hbytes : bytesOf (Tree.list (as.map f)).chars ++ rest
      = 0x5b :: (bytesOf (Tree.elementChars (as.map f)) ++ 0x5d :: rest) := by
    rw [Tree.chars, Text.bytesOf_append, List.append_assoc]
    rfl
  obtain ⟨p, hp, hchar, hrest, -⟩ := exists_peek? hbytes rfl
  rw [Reader.list, Reader.bracketed, hp]
  dsimp only
  rw [if_pos (hchar.trans (by decide))]
  have helements := yields_elements h rest
  rw [← hrest] at helements
  exact helements.map (fun _ => id) fun _ => rfl

end Elements

end EnumNames.Json
