import EnumNames.Proofs.Code.Expression

/-!
# Reading expressions back

The lexemes of a readable expression are read as that expression, whatever follows, unless what
follows goes on with it.

* `readList_flatMap`: elements that are read one by one.
* `readAtom_slice` and its like: what is read of an expression, for each kind of expression.
* `Expr.IsReadable.isReadBack`: after the lexemes of an expression, reading goes on with the
  operators that follow.
* `readUpTo_lexemes`: the lexemes of a whole expression.
-/

namespace EnumNames.Code

open Target

/-! ## Small parts -/

theorem pass?_append (phrase ts : List Lexeme) : pass? phrase (phrase ++ ts) = some ts := by
  rw [pass?, if_pos (List.isPrefixOf_iff_prefix.2 (List.prefix_append phrase ts)),
    List.drop_left]

theorem shorter?_eq_some {ts rest : List Lexeme} (h : rest.length < ts.length) :
    shorter? ts rest = some ⟨rest, h⟩ :=
  dif_pos h

theorem named?_typeName (type : IntType) : IntType.named? type.name = some type := by
  cases type with
  | ofKind kind => cases kind <;> rfl
  | i128 => rfl

theorem readNat?_number (n : Nat) (ts : List Lexeme) :
    readNat? (.number n "" :: ts) = some (n, ts) :=
  rfl

theorem readInt?_lexemes (n : Int) (ts : List Lexeme) :
    readInt? (intLexemes n ++ ts) = some (n, ts) := by
  rw [intLexemes]
  split
  · next h =>
    show some (-((n.natAbs : Nat) : Int), ts) = some (n, ts)
    rw [show -((n.natAbs : Nat) : Int) = n by omega]
  · next h =>
    show some (((n.natAbs : Nat) : Int), ts) = some (n, ts)
    rw [show ((n.natAbs : Nat) : Int) = n by omega]

theorem binOp?_lexemes (op : BinOp) (ts : List Lexeme) :
    binOp? (op.lexemes ++ ts) = some (op, ts) := by
  cases op <;> rfl

/-- Elements that are read up to a comma behind each are read up to the bracket that closes them, if
no element begins with a closing bracket. -/
theorem readList_flatMap {α : Type} {read : List Lexeme → Option (α × List Lexeme)}
    {lexemes : α → List Lexeme} {as : List α} (hclosing : ∀ b ts, read (.closing b :: ts) = none)
    (h : ∀ a ∈ as, ∀ ts, read (lexemes a ++ ts) = some (a, .sign .comma false :: ts))
    (ts : List Lexeme) :
    readList read (as.flatMap lexemes ++ .closing .square :: ts) = some (as, ts) := by
  induction as with
  | nil =>
    show readList read (.closing .square :: ts) = _
    rw [readList]
  | cons a as ih =>
    obtain ⟨ha, has⟩ := List.forall_mem_cons.1 h
    have hrest := ih has
    have hne : lexemes a ≠ [] := by
      intro hnil
      have hread := ha [.closing .square]
      rw [hnil, List.nil_append, hclosing] at hread
      contradiction
    rw [List.flatMap_cons, List.append_assoc]
    generalize as.flatMap lexemes ++ .closing .square :: ts = rest at hrest ⊢
    have hread := ha rest
    have hshorter : rest.length < (lexemes a ++ rest).length := by
      have hpos := List.length_pos_iff.2 hne
      rw [List.length_append]
      omega
    unfold readList
    split
    · next heq =>
      rw [heq, hclosing] at hread
      contradiction
    · simp only [hread, Option.bind_eq_bind, Option.bind_some, shorter?_eq_some hshorter, hrest]
      rfl

/-! ## Lengths -/

theorem BinOp.length_lexemes_pos (op : BinOp) : 0 < op.lexemes.length := by
  cases op <;> exact of_decide_eq_true rfl

theorem length_intLexemes_pos (n : Int) : 0 < (intLexemes n).length := by
  rw [intLexemes]
  split <;> exact Nat.succ_pos _

/-- Less is left after an expression. -/
theorem Expr.IsReadable.length_lt {e : Expr} (h : e.IsReadable) (ts : List Lexeme) :
    ts.length < (e.lexemes ++ ts).length := by
  have hpos : 0 < e.lexemes.length := by
    cases e with
    | int n => exact length_intLexemes_pos n
    | binary op a b =>
      have hop := op.length_lexemes_pos
      rw [lexemes, List.length_append, List.length_append]
      omega
    | path reference => exact absurd h (by simp [IsReadable])
    | _ => simp [lexemes]
  rw [List.length_append]
  omega

/-! ## Paths -/

theorem pathName?_namePiece {name : String} (h : isPathName name) :
    ∃ l, (namePiece name).lexemes = [l] ∧ pathName? l = some name := by
  rw [isPathName, Bool.or_eq_true, decide_eq_true_iff] at h
  rcases h with h | h
  · have hlookup : keywords.lookup name = none := by
      rw [isPlainIdentifier, Bool.and_eq_true, Option.isNone_iff_eq_none] at h
      exact h.2
    rw [namePiece, hlookup]
    exact ⟨.word name, rfl, rfl⟩
  · have hall : ∀ name ∈ ["crate", "super", "self", "Self"], ∃ k, keywords.lookup name = some k
        ∧ pathName? (.keyword k) = some name := by decide
    obtain ⟨k, hlookup, hname⟩ := hall name h
    rw [namePiece, hlookup]
    exact ⟨.keyword k, rfl, hname⟩

/-- The first lexeme is no separator of names. -/
def endsPath : List Lexeme → Bool
  | .sign .colon true :: _ => false
  | _ => true

theorem readPathFrom_lexemes {names : List String} (h : ∀ name ∈ names, isPathName name)
    {ts : List Lexeme} (hts : endsPath ts) (path : String) :
    readPathFrom path (piecesLexemes (morePieces names) ++ ts)
      = some (path ++ String.join (names.map ("::" ++ ·)), ts) := by
  induction names generalizing path with
  | nil =>
    show readPathFrom path ts = some (path ++ "", ts)
    rw [String.append_empty]
    unfold readPathFrom
    split
    · exact absurd hts (by simp [endsPath])
    · rfl
  | cons name names ih =>
    obtain ⟨l, hl, hname⟩ := pathName?_namePiece (h name List.mem_cons_self)
    have hcons : piecesLexemes (morePieces (name :: names)) ++ ts
        = .sign .colon true :: .sign .colon false :: l
          :: (piecesLexemes (morePieces names) ++ ts) := by
      show [Lexeme.sign .colon true, .sign .colon false] ++ ((namePiece name).lexemes
        ++ piecesLexemes (morePieces names)) ++ ts = _
      rw [hl]
      rfl
    rw [hcons, readPathFrom, hname]
    show readPathFrom (path ++ "::" ++ name) _ = _
    rw [ih fun name hmem => h name (List.mem_cons_of_mem _ hmem)]
    rw [List.map_cons, String.join_cons]
    simp only [String.append_assoc]

theorem readPath?_names {name : String} {names : List String}
    (h : ∀ name' ∈ name :: names, isPathName name') {ts : List Lexeme} (hts : endsPath ts)
    (isGlobal : Bool) :
    readPath? (piecesLexemes
        ((if isGlobal then [.separator] else []) ++ namePiece name :: morePieces names) ++ ts)
      = some (pathText isGlobal (name :: names), ts) := by
  obtain ⟨l, hl, hname⟩ := pathName?_namePiece (h name List.mem_cons_self)
  have hmore := readPathFrom_lexemes (fun name hmem => h name (List.mem_cons_of_mem _ hmem)) hts
  have hcons : piecesLexemes (namePiece name :: morePieces names) ++ ts
      = l :: (piecesLexemes (morePieces names) ++ ts) := by
    show (namePiece name).lexemes ++ piecesLexemes (morePieces names) ++ ts = _
    rw [hl]
    rfl
  cases isGlobal with
  | true =>
    have hseparator : piecesLexemes [.separator] = pathSeparator := rfl
    rw [if_pos rfl, piecesLexemes_append, List.append_assoc, hcons, hseparator, pathSeparator]
    simp only [List.cons_append, List.nil_append, readPath?, hname]
    exact hmore ("::" ++ name)
  | false =>
    rw [if_neg Bool.false_ne_true, List.nil_append, hcons]
    unfold readPath?
    split
    · next heq =>
      rw [(List.cons.inj heq).1] at hname
      contradiction
    · next heq =>
      obtain ⟨rfl, rfl⟩ := List.cons.inj heq
      rw [hname, pathText, if_neg Bool.false_ne_true, String.empty_append]
      exact hmore name
    · contradiction

/-- A path is read as its text. -/
theorem readPath?_lexemes {reference : String} (h : isPath reference) {ts : List Lexeme}
    (hts : endsPath ts) :
    readPath? (pathLexemes reference ++ ts) = some (reference, ts) := by
  simp only [isPath, Bool.and_eq_true, beq_iff_eq] at h
  obtain ⟨⟨hne, hnames⟩, htext⟩ := h
  rw [pathLexemes, pathPieces]
  cases hcases : pathNames reference with
  | nil => exact absurd hne (by simp [hcases])
  | cons name names =>
    rw [hcases] at hnames htext
    have hread := readPath?_names (List.all_eq_true.1 hnames) hts (isGlobal reference)
    rw [htext] at hread
    exact hread

/-! ## What may follow an expression -/

/-- The rank of the operator that follows an operand, if one does. -/
def operatorRank? (ts : List Lexeme) : Option Nat :=
  match ts with
  | .keyword .asKw :: .word _ :: _ => some Level.cast.rank
  | _ => (binOp? ts).map fun found => found.1.level.rank

/-- Whether lexemes go on with the word before them. -/
def continuesWord : List Lexeme → Bool
  | .opening .square :: _ | .opening .paren :: _ | .sign .dot false :: _ | .sign .bang false :: _ =>
    true
  | _ => false

/-- Whether lexemes begin like the arguments of a type. -/
def opensArguments : List Lexeme → Bool
  | .sign .less false :: _ => true
  | _ => false

/-- Lexemes that may follow an expression: they do not go on with its last word or type, and their
operator does not bind more tightly. -/
structure MayFollow (e : Expr) (ts : List Lexeme) : Prop where
  rank_le : ∀ rank ∈ operatorRank? ts, rank ≤ e.rank
  continuesWord : continuesWord ts = false
  opensArguments : e.endsInType → opensArguments ts = false

/-- Lexemes of which none goes on with an expression. -/
structure EndsExpr (ts : List Lexeme) : Prop where
  operatorRank? : operatorRank? ts = none
  continuesWord : continuesWord ts = false
  opensArguments : opensArguments ts = false

theorem EndsExpr.mayFollow {ts : List Lexeme} (h : EndsExpr ts) (e : Expr) : MayFollow e ts := by
  refine ⟨fun rank hrank => ?_, h.continuesWord, fun _ => h.opensArguments⟩
  rw [h.operatorRank?] at hrank
  contradiction

theorem readOperators_stop {rank : Nat} {ts : List Lexeme}
    (h : ∀ r ∈ operatorRank? ts, r < rank) (e : Expr) :
    readOperators rank e ts = some (e, ts) := by
  unfold readOperators
  split
  · rw [if_pos (h _ rfl)]
  · next hcast =>
    have hrank : operatorRank? ts = (binOp? ts).map fun found => found.1.level.rank := by
      unfold operatorRank?
      split
      · exact absurd rfl (hcast _ _)
      · rfl
    split
    · rfl
    · next op rest hop =>
      rw [hrank, hop] at h
      rw [if_pos (h _ rfl)]

theorem EndsExpr.readOperators {ts : List Lexeme} (h : EndsExpr ts) (rank : Nat) (e : Expr) :
    readOperators rank e ts = some (e, ts) := by
  refine readOperators_stop (fun r hr => ?_) e
  rw [h.operatorRank?] at hr
  contradiction

/-! ## Operators that follow -/

theorem operatorRank?_lexemes (op : BinOp) (ts : List Lexeme) :
    operatorRank? (op.lexemes ++ ts) = some op.level.rank := by
  cases op <;> rfl

theorem readOperators_cast {rank : Nat} (hrank : rank ≤ Level.cast.rank) {ts : List Lexeme}
    (hts : opensArguments ts = false) (e : Expr) (type : IntType) :
    readOperators rank e (.keyword .asKw :: .word type.name :: ts)
      = readOperators rank (.cast e type) ts := by
  conv_lhs => unfold readOperators
  show (if Level.cast.rank < rank then _ else _) = _
  rw [if_neg (Nat.not_lt.2 hrank), named?_typeName]
  split
  · exact absurd hts (by simp [opensArguments])
  · next heq _ =>
    rw [Option.some.inj heq]
  · contradiction

theorem readOperators_binary {rank : Nat} {op : BinOp} (hrank : rank ≤ op.level.rank)
    {ts rest : List Lexeme} {b : Expr} (hb : readExpr op.level.rightRank ts = some (b, rest))
    (hlength : rest.length ≤ ts.length) (a : Expr) :
    readOperators rank a (op.lexemes ++ ts) = readOperators rank (.binary op a b) rest := by
  have hshorter : ts.length < (op.lexemes ++ ts).length := by
    rw [List.length_append]
    have hpos := op.length_lexemes_pos
    omega
  conv_lhs => unfold readOperators
  split
  · next heq => cases op <;> exact absurd (List.cons.inj heq).1 (by simp)
  · rw [binOp?_lexemes]
    show (if op.level.rank < rank then _ else _) = _
    rw [if_neg (Nat.not_lt.2 hrank)]
    simp only [shorter?_eq_some hshorter, hb,
      shorter?_eq_some (Nat.lt_of_le_of_lt hlength hshorter), Option.bind_eq_bind,
      Option.bind_some]

/-! ## The beginning of an expression -/

theorem Expr.lexemes_of_beginsWord {e : Expr} (h : e.beginsWord) :
    ∃ x ls, e.lexemes = .word x :: ls := by
  induction e with
  | var x => exact ⟨x, [], rfl⟩
  | length array => exact ⟨array, _, rfl⟩
  | element array i => exact ⟨array, _, rfl⟩
  | wrappingMul x n => exact ⟨x, _, rfl⟩
  | cast e type ih =>
    obtain ⟨x, ls, hls⟩ := ih h
    exact ⟨x, _, by rw [lexemes, hls]; rfl⟩
  | binary op a b iha =>
    obtain ⟨x, ls, hls⟩ := iha h
    exact ⟨x, _, by rw [lexemes, hls]; rfl⟩
  | _ => exact absurd h (by simp [beginsWord])

theorem endsExpr_closing (b : Bracket) (ts : List Lexeme) : EndsExpr (.closing b :: ts) :=
  ⟨rfl, rfl, rfl⟩

theorem endsExpr_dots (ts : List Lexeme) :
    EndsExpr (.sign .dot true :: .sign .dot false :: ts) :=
  ⟨rfl, rfl, rfl⟩

/-- A range whose values are tested does not begin with a word. -/
theorem readWithin?_word (x : String) (ts : List Lexeme) : readWithin? (.word x :: ts) = none :=
  rfl

theorem readExpr_of_readAtom {ts rest : List Lexeme} {e : Expr}
    (h : readAtom ts = some (e, rest)) (hlength : rest.length < ts.length) (rank : Nat) :
    readExpr rank ts = readOperators rank e rest := by
  rw [readExpr, h]
  show (shorter? ts rest).bind _ = _
  rw [shorter?_eq_some hlength]
  rfl

/-! ## Expressions without operands -/

section Leaves

variable {x : String} {ts : List Lexeme}

theorem readAtom_receiver (ts : List Lexeme) :
    readAtom (Expr.receiver.lexemes ++ ts) = some (.receiver, ts) := by
  show readAtom (.keyword .selfValue :: .sign .dot false :: .number 0 "" :: ts) = _
  rw [readAtom]
  rfl

theorem readAtom_int (n : Int) (ts : List Lexeme) :
    readAtom ((Expr.int n).lexemes ++ ts) = some (.int n, ts) := by
  rw [Expr.lexemes, intLexemes]
  split
  · next h =>
    show readAtom (.sign .minus false :: .number n.natAbs "" :: ts) = _
    rw [readAtom]
    show some (Expr.int (-((n.natAbs : Nat) : Int)), ts) = _
    rw [show -((n.natAbs : Nat) : Int) = n by omega]
  · next h =>
    show readAtom (.number n.natAbs "" :: ts) = _
    rw [readAtom]
    show some (Expr.int ((n.natAbs : Nat) : Int), ts) = _
    rw [show ((n.natAbs : Nat) : Int) = n by omega]

theorem typeName_ne_empty (type : IntType) : type.name ≠ "" := by
  cases type with
  | ofKind kind => cases kind <;> decide
  | i128 => decide

/-- The type at the end of a number is kept. -/
theorem readAtom_typedInt (type : IntType) (n : Nat) (ts : List Lexeme) :
    readAtom ((Expr.typedInt type n).lexemes ++ ts) = some (.typedInt type n, ts) := by
  show readAtom (.number n type.name :: ts) = _
  rw [readAtom, if_neg (typeName_ne_empty type), named?_typeName]
  rfl

theorem readAtom_literal (s : String) (ts : List Lexeme) :
    readAtom ((Expr.literal s).lexemes ++ ts) = some (.literal s, ts) := by
  show readAtom (.text s :: ts) = _
  rw [readAtom]

/-- A word that nothing goes on with is `None` or a variable. -/
theorem readWord_alone (hts : continuesWord ts = false) :
    readWord x ts = if x = "None" then some (.none, ts) else some (.var x, ts) := by
  unfold readWord
  split
  · exact absurd hts (by simp [continuesWord])
  · exact absurd hts (by simp [continuesWord])
  · exact absurd hts (by simp [continuesWord])
  · exact absurd hts (by simp [continuesWord])
  · rfl

theorem readAtom_var (hx : x ≠ "None") (hts : continuesWord ts = false) :
    readAtom ((Expr.var x).lexemes ++ ts) = some (.var x, ts) := by
  show readAtom (.word x :: ts) = _
  rw [readAtom, readWord_alone hts, if_neg hx]

theorem readAtom_none (hts : continuesWord ts = false) :
    readAtom (Expr.none.lexemes ++ ts) = some (.none, ts) := by
  show readAtom (.word "None" :: ts) = _
  rw [readAtom, readWord_alone hts, if_pos rfl]

theorem readAtom_length (array : String) (ts : List Lexeme) :
    readAtom ((Expr.length array).lexemes ++ ts) = some (.length array, ts) := by
  show readAtom (.word array :: .sign .dot false :: .word "len" :: .opening .paren
    :: .closing .paren :: ts) = _
  rw [readAtom, readWord]
  rfl

theorem readAtom_wrappingMul (x : String) (n : Nat) (ts : List Lexeme) :
    readAtom ((Expr.wrappingMul x n).lexemes ++ ts) = some (.wrappingMul x n, ts) := by
  show readAtom (.word x :: .sign .dot false :: .word "wrapping_mul" :: .opening .paren
    :: .number n "" :: .closing .paren :: ts) = _
  rw [readAtom, readWord]
  rfl

/-- What follows the range in a test. -/
def containsCall (x : String) (ts : List Lexeme) : List Lexeme :=
  .closing .paren :: .sign .dot false :: .word "contains" :: .opening .paren :: .sign .amp false
    :: .word x :: .closing .paren :: ts

theorem readWithin?_lexemes (low high : Int) (x : String) (ts : List Lexeme) (joined : Bool) :
    readWithin? (intLexemes low ++ .sign .dot true :: .sign .dot true :: .sign .eq joined
      :: (intLexemes high ++ containsCall x ts)) = some (.within low high x, ts) := by
  rw [readWithin?, readInt?_lexemes]
  simp only [readInt?_lexemes, containsCall]
  rfl

theorem readAtom_within (low high : Int) (x : String) (ts : List Lexeme) :
    readAtom ((Expr.within low high x).lexemes ++ ts) = some (.within low high x, ts) := by
  have hlexemes : (Expr.within low high x).lexemes ++ ts = .opening .paren :: (intLexemes low
      ++ .sign .dot true :: .sign .dot true :: .sign .eq (decide (high < 0))
      :: (intLexemes high ++ containsCall x ts)) := by
    rw [Expr.lexemes, containsCall]
    simp
  rw [hlexemes, readAtom, readWithin?_lexemes]

end Leaves

/-! ## Expressions with operands -/

/-- After the lexemes of an expression, reading goes on with the operators that follow. -/
def Expr.IsReadBack (e : Expr) : Prop :=
  ∀ ⦃rank : Nat⦄, rank ≤ e.rank → ∀ ⦃ts : List Lexeme⦄, MayFollow e ts →
    readExpr rank (e.lexemes ++ ts) = readOperators rank e ts

section Operands

variable {e a b i low high : Expr}

/-- Inside brackets, an expression is read as a whole. -/
theorem Expr.IsReadBack.whole (h : e.IsReadBack) {ts : List Lexeme} (hts : EndsExpr ts) :
    readExpr Level.or.rank (e.lexemes ++ ts) = some (e, ts) := by
  rw [h e.or_rank_le (hts.mayFollow e), hts.readOperators]

theorem readAtom_element (hi : i.IsReadBack) (array : String) (ts : List Lexeme) :
    readAtom ((Expr.element array i).lexemes ++ ts) = some (.element array i, ts) := by
  rw [Expr.lexemes]
  show readAtom (.word array :: .opening .square :: (i.lexemes ++ [.closing .square] ++ ts)) = _
  rw [readAtom, readWord, List.append_assoc]
  show (readExpr Level.or.rank (i.lexemes ++ .closing .square :: ts)).bind _ = _
  rw [hi.whole (endsExpr_closing .square ts)]
  rfl

/-- The two places of a slice are read one after the other, with the dots between them. -/
theorem readAtom_slice (hlow : low.IsReadBack) (hhigh : high.IsReadBack) (s : String)
    (ts : List Lexeme) :
    readAtom ((Expr.slice s low high).lexemes ++ ts) = some (.slice s low high, ts) := by
  have hreadhigh := hhigh.whole (endsExpr_closing .square ts)
  have hreadlow := hlow.whole (endsExpr_dots (high.lexemes ++ .closing .square :: ts))
  have hlexemes : (Expr.slice s low high).lexemes ++ ts = .sign .amp false :: .word s
      :: .opening .square :: (low.lexemes ++ .sign .dot true :: .sign .dot false
      :: (high.lexemes ++ .closing .square :: ts)) := by
    rw [Expr.lexemes]
    simp
  have hshorter : (high.lexemes ++ .closing .square :: ts).length < (Lexeme.sign .amp false
      :: .word s :: .opening .square :: (low.lexemes ++ .sign .dot true :: .sign .dot false
      :: (high.lexemes ++ .closing .square :: ts))).length := by
    simp only [List.length_append, List.length_cons]
    omega
  have hdots := pass?_append [.sign .dot true, .sign .dot false]
    (high.lexemes ++ .closing .square :: ts)
  have hclose := pass?_append [.closing .square] ts
  simp only [List.cons_append, List.nil_append] at hdots hclose
  rw [hlexemes, readAtom]
  simp only [hreadlow, hdots, shorter?_eq_some hshorter, hreadhigh, hclose,
    Option.bind_eq_bind, Option.bind_some]
  rfl

/-- What stands in parentheses begins with a word, so it is not taken for a range. -/
theorem readAtom_paren (he : e.IsReadBack) (hword : e.beginsWord) (ts : List Lexeme) :
    readAtom ((Expr.paren e).lexemes ++ ts) = some (.paren e, ts) := by
  obtain ⟨x, ls, hls⟩ := Expr.lexemes_of_beginsWord hword
  have hwithin : readWithin? (e.lexemes ++ .closing .paren :: ts) = none := by
    rw [hls]
    exact readWithin?_word x _
  rw [Expr.lexemes, List.append_assoc]
  show readAtom (.opening .paren :: (e.lexemes ++ .closing .paren :: ts)) = _
  rw [readAtom, hwithin]
  show (readExpr Level.or.rank (e.lexemes ++ .closing .paren :: ts)).bind _ = _
  rw [he.whole (endsExpr_closing .paren ts)]
  rfl

/-- A constant is found under its path, an element of an array under its place. -/
theorem readAtom_someOf (h : (Expr.someOf e).IsReadable) (he : e.IsReadable → e.IsReadBack)
    (ts : List Lexeme) :
    readAtom ((Expr.someOf e).lexemes ++ ts) = some (.someOf e, ts) := by
  rw [Expr.lexemes, List.append_assoc]
  show readAtom (.word "Some" :: .opening .paren :: (e.lexemes ++ .closing .paren :: ts)) = _
  rw [readAtom, readWord, if_pos rfl]
  cases e with
  | path reference =>
    have hpath : readPath? ((Expr.path reference).lexemes ++ .closing .paren :: ts)
        = some (reference, .closing .paren :: ts) := readPath?_lexemes h rfl
    simp only [hpath]
  | element array i =>
    -- the array alone is read as a path, but no parenthesis follows it
    have hpath : readPath? ((Expr.element array i).lexemes ++ .closing .paren :: ts)
        = some (array, .opening .square :: (i.lexemes ++ [.closing .square]
          ++ .closing .paren :: ts)) := rfl
    rw [hpath]
    show (readExpr Level.or.rank ((Expr.element array i).lexemes ++ .closing .paren :: ts)).bind _
      = _
    rw [(he h).whole (endsExpr_closing .paren ts)]
    rfl
  | _ => exact absurd h (by simp [Expr.IsReadable])

theorem readAtom_writeText (he : e.IsReadBack) (ts : List Lexeme) :
    readAtom ((Expr.writeText e).lexemes ++ ts) = some (.writeText e, ts) := by
  rw [Expr.lexemes, List.append_assoc, List.append_assoc]
  show readAtom (.word "f" :: .sign .dot false :: .word "write_str" :: .opening .paren
    :: (e.lexemes ++ .closing .paren :: ts)) = _
  rw [readAtom, readWord]
  show (readExpr Level.or.rank (e.lexemes ++ .closing .paren :: ts)).bind _ = _
  rw [he.whole (endsExpr_closing .paren ts)]
  rfl

theorem readAtom_writeNumber (he : e.IsReadBack) (template : String) (ts : List Lexeme) :
    readAtom ((Expr.writeNumber template e).lexemes ++ ts) = some (.writeNumber template e, ts) := by
  rw [Expr.lexemes, List.append_assoc, List.append_assoc]
  show readAtom (.word "write" :: .sign .bang false :: .opening .paren :: .word "f"
    :: .sign .comma false :: .text template :: .sign .comma false
    :: (e.lexemes ++ .closing .paren :: ts)) = _
  rw [readAtom, readWord]
  show (readExpr Level.or.rank (e.lexemes ++ .closing .paren :: ts)).bind _ = _
  rw [he.whole (endsExpr_closing .paren ts)]
  rfl

/-- A conversion is an operator that follows what is converted. -/
theorem Expr.IsReadBack.cast (he : e.IsReadBack) (hle : Level.cast.rank ≤ e.rank)
    (type : IntType) : (Expr.cast e type).IsReadBack := by
  intro rank hrank ts hts
  have hfollow : MayFollow e (.keyword .asKw :: .word type.name :: ts) := by
    refine ⟨fun r hr => ?_, rfl, fun _ => rfl⟩
    rw [← Option.some.inj hr]
    exact hle
  rw [Expr.lexemes, List.append_assoc]
  show readExpr rank (e.lexemes ++ .keyword .asKw :: .word type.name :: ts) = _
  rw [he (Nat.le_trans hrank hle) hfollow, readOperators_cast hrank (hts.opensArguments rfl)]

/-- What follows a left operand goes on with the operator, which does not bind more tightly. -/
theorem mayFollow_operator {op : BinOp} (hleft : op.level.rank ≤ a.rank)
    (hless : op = .less → a.endsInType = false) (ts : List Lexeme) :
    MayFollow a (op.lexemes ++ ts) := by
  refine ⟨fun r hr => ?_, by cases op <;> rfl, fun hends => ?_⟩
  · rw [operatorRank?_lexemes] at hr
    rw [← Option.some.inj hr]
    exact hleft
  · cases op with
    | less => rw [hless rfl] at hends; contradiction
    | _ => rfl

theorem Expr.IsReadBack.binary {op : BinOp} (ha : a.IsReadBack) (hb : b.IsReadBack)
    (h : (Expr.binary op a b).IsReadable) : (Expr.binary op a b).IsReadBack := by
  intro rank hrank ts hts
  obtain ⟨-, hreadable, hleft, hright, hless⟩ := h
  have hleft : op.level.rank ≤ a.rank := Nat.le_trans op.rank_le_leftRank hleft
  have hrankb : op.level.rank < op.level.rightRank := by cases op <;> decide
  have hfollow : MayFollow b ts := by
    refine ⟨fun r hr => ?_, hts.continuesWord, hts.opensArguments⟩
    have hle : r ≤ op.level.rank := hts.rank_le r hr
    omega
  -- no operator that follows binds as tightly as what the right operand may hold
  have hreadb : readExpr op.level.rightRank (b.lexemes ++ ts) = some (b, ts) := by
    rw [hb hright hfollow]
    refine readOperators_stop (fun r hr => ?_) b
    have hle : r ≤ op.level.rank := hts.rank_le r hr
    omega
  rw [Expr.lexemes, List.append_assoc, List.append_assoc,
    ha (Nat.le_trans hrank hleft) (mayFollow_operator hleft hless (b.lexemes ++ ts)),
    readOperators_binary hrank hreadb (Nat.le_of_lt (hreadable.length_lt ts))]

end Operands

/-! ## Whole expressions -/

/-- What is read without the operators around it is read back. -/
theorem Expr.IsReadable.isReadBack_of_readAtom {e : Expr} (h : e.IsReadable)
    (hatom : ∀ ⦃ts⦄, continuesWord ts = false → readAtom (e.lexemes ++ ts) = some (e, ts)) :
    e.IsReadBack :=
  fun rank _ ts hts => readExpr_of_readAtom (hatom hts.continuesWord) (h.length_lt ts) rank

/-- Readable expressions are read back. -/
theorem Expr.IsReadable.isReadBack {e : Expr} (h : e.IsReadable) : e.IsReadBack := by
  induction e with
  | receiver => exact h.isReadBack_of_readAtom fun ts _ => readAtom_receiver ts
  | var x => exact h.isReadBack_of_readAtom fun _ hts => readAtom_var h.2 hts
  | int n => exact h.isReadBack_of_readAtom fun ts _ => readAtom_int n ts
  | typedInt type n => exact h.isReadBack_of_readAtom fun ts _ => readAtom_typedInt type n ts
  | literal s => exact h.isReadBack_of_readAtom fun ts _ => readAtom_literal s ts
  | cast e type ih => exact (ih h.1).cast h.2 type
  | binary op a b iha ihb => exact (iha h.1).binary (ihb h.2.1) h
  | within low high x =>
    exact h.isReadBack_of_readAtom fun ts _ => readAtom_within low high x ts
  | length array => exact h.isReadBack_of_readAtom fun ts _ => readAtom_length array ts
  | element array i ih =>
    exact h.isReadBack_of_readAtom fun ts _ => readAtom_element (ih h.2) array ts
  | slice s low high ihlow ihhigh =>
    exact h.isReadBack_of_readAtom fun ts _ =>
      readAtom_slice (ihlow h.2.1) (ihhigh h.2.2.1) s ts
  | wrappingMul x n => exact h.isReadBack_of_readAtom fun ts _ => readAtom_wrappingMul x n ts
  | paren e ih => exact h.isReadBack_of_readAtom fun ts _ => readAtom_paren (ih h.1) h.2 ts
  | path reference => exact absurd h (by simp [IsReadable])
  | someOf e ih => exact h.isReadBack_of_readAtom fun ts _ => readAtom_someOf h ih ts
  | none => exact h.isReadBack_of_readAtom fun _ hts => readAtom_none hts
  | writeText e ih => exact h.isReadBack_of_readAtom fun ts _ => readAtom_writeText (ih h) ts
  | writeNumber template e ih =>
    exact h.isReadBack_of_readAtom fun ts _ => readAtom_writeNumber (ih h) template ts

/-- An expression is read up to what does not go on with it. -/
theorem readExpr_eq_some {e : Expr} (h : e.IsReadable) {ts : List Lexeme} (hts : EndsExpr ts) :
    readExpr Level.or.rank (e.lexemes ++ ts) = some (e, ts) :=
  h.isReadBack.whole hts

/-- A whole expression is read up to what has to follow it. -/
theorem readUpTo_lexemes {e : Expr} (h : e.IsReadable) {phrase ts : List Lexeme}
    (hphrase : EndsExpr (phrase ++ ts)) :
    readUpTo phrase (e.lexemes ++ (phrase ++ ts)) = some (e, ts) := by
  rw [readUpTo, readExpr_eq_some h hphrase]
  show (pass? phrase (phrase ++ ts)).bind _ = _
  rw [pass?_append]
  rfl

end EnumNames.Code
