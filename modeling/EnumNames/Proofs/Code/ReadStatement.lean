import EnumNames.Proofs.Code.ReadExpression
import EnumNames.Proofs.Code.Statement

/-!
# Reading statements back

The lexemes of a readable statement are read as this statement, those of statements in a row up to
the brace that closes them. A result is read only where such a brace follows.

* `Stmt.readStmt_lexemes`: the lexemes of a statement.
* `blockIsRead`: those of a block, whatever follows its closing brace.
-/

namespace EnumNames.Code

open Target

/-! ## Statements of one line -/

section Lines

variable {x y : String} {e e₁ e₂ : Expr}

/-- Of the keywords, only the receiver is the first lexeme of an expression. -/
theorem Expr.IsReadable.lexemes_ne (he : e.IsReadable) {k : Keyword} (hk : k ≠ .selfValue)
    (ts rest : List Lexeme) : e.lexemes ++ ts ≠ .keyword k :: rest := by
  induction e generalizing ts with
  | receiver =>
    intro heq
    exact hk (Lexeme.keyword.inj (List.cons.inj heq).1).symm
  | int n =>
    rw [lexemes, intLexemes]
    split <;> simp
  | cast e type ih =>
    rw [lexemes, List.append_assoc]
    exact ih he.1 _
  | binary op a b iha =>
    rw [lexemes, List.append_assoc, List.append_assoc]
    exact iha he.1 _
  | path reference => exact absurd he (by simp [IsReadable])
  | _ => simp [lexemes]

theorem readUpTo_semi (he : e.IsReadable) (ts : List Lexeme) :
    readUpTo [.sign .semi false] (e.lexemes ++ ([.sign .semi false] ++ ts)) = some (e, ts) :=
  readUpTo_lexemes he ⟨rfl, rfl, rfl⟩

theorem readUpTo_comma (he : e.IsReadable) (ts : List Lexeme) :
    readUpTo [.sign .comma false] (e.lexemes ++ ([.sign .comma false] ++ ts)) = some (e, ts) :=
  readUpTo_lexemes he ⟨rfl, rfl, rfl⟩

theorem readUpTo_brace (he : e.IsReadable) (ts : List Lexeme) :
    readUpTo [.opening .brace] (e.lexemes ++ ([.opening .brace] ++ ts)) = some (e, ts) :=
  readUpTo_lexemes he ⟨rfl, rfl, rfl⟩

/-- After `let`, a declaration is read. -/
theorem readStmt_let (ts : List Lexeme) : readStmt (.keyword .letKw :: ts) = readLet ts := by
  rw [readStmt]

theorem readStmt_bind (he : e.IsReadable) (ts : List Lexeme) :
    readStmt ((Stmt.bind x e).lexemes ++ ts) = some (.bind x e, ts) := by
  have hread := readUpTo_semi he ts
  rw [Stmt.lexemes, List.append_assoc, List.append_assoc]
  show readStmt (.keyword .letKw :: .word x :: .sign .eq false
    :: (e.lexemes ++ ([.sign .semi false] ++ ts))) = _
  rw [readStmt_let]
  unfold readLet
  split
  · next heq => exact absurd (List.cons.inj heq).1 (by simp)
  · next heq => exact absurd (List.cons.inj heq).1 (by simp)
  · next heq =>
    have htail := (List.cons.inj (List.cons.inj heq).2).2
    exact absurd htail (he.lexemes_ne (by decide) _ _)
  · next heq =>
    have htail := (List.cons.inj (List.cons.inj heq).2).2
    exact absurd htail (he.lexemes_ne (by decide) _ _)
  · next heq =>
    obtain ⟨hword, htail⟩ := List.cons.inj heq
    obtain ⟨-, hrest⟩ := List.cons.inj htail
    rw [← hrest, ← Lexeme.word.inj hword, hread]
    rfl
  · next hno => exact absurd rfl (hno _ _)

theorem readStmt_bindVar (type : IntType) (he : e.IsReadable) (ts : List Lexeme) :
    readStmt ((Stmt.bindVar x type e).lexemes ++ ts) = some (.bindVar x type e, ts) := by
  have hread := readUpTo_semi he ts
  rw [Stmt.lexemes, List.append_assoc, List.append_assoc]
  show readStmt (.keyword .letKw :: .keyword .mutKw :: .word x :: .sign .colon false
    :: .word type.name :: .sign .eq false :: (e.lexemes ++ ([.sign .semi false] ++ ts))) = _
  rw [readStmt_let, readLet, named?_typeName]
  show (readUpTo [.sign .semi false] (e.lexemes ++ ([.sign .semi false] ++ ts))).bind _ = _
  rw [hread]
  rfl

theorem readStmt_bindVars (he₁ : e₁.IsReadable) (he₂ : e₂.IsReadable) (ts : List Lexeme) :
    readStmt ((Stmt.bindVars x y e₁ e₂).lexemes ++ ts) = some (.bindVars x y e₁ e₂, ts) := by
  have hends : EndsExpr ([.closing .paren, .sign .semi false] ++ ts) := ⟨rfl, rfl, rfl⟩
  have hsecond := readUpTo_lexemes he₂ hends
  have hfirst := readUpTo_comma he₁
    (e₂.lexemes ++ ([.closing .paren, .sign .semi false] ++ ts))
  rw [Stmt.lexemes]
  simp only [List.append_assoc]
  show readStmt (.keyword .letKw :: .opening .paren :: .keyword .mutKw :: .word x
    :: .sign .comma false :: .keyword .mutKw :: .word y :: .closing .paren :: .sign .eq false
    :: .opening .paren :: (e₁.lexemes ++ ([.sign .comma false]
      ++ (e₂.lexemes ++ ([.closing .paren, .sign .semi false] ++ ts))))) = _
  rw [readStmt_let, readLet, hfirst]
  show (readUpTo [.closing .paren, .sign .semi false]
    (e₂.lexemes ++ ([.closing .paren, .sign .semi false] ++ ts))).bind _ = _
  rw [hsecond]
  rfl

/-- An assignment is told from other statements by the sign after its variable. -/
theorem readStmt_assign (he : e.IsReadable) (ts : List Lexeme) :
    readStmt ((Stmt.assign x e).lexemes ++ ts) = some (.assign x e, ts) := by
  have hread := readUpTo_semi he ts
  rw [Stmt.lexemes, List.append_assoc, List.append_assoc]
  show readStmt (.word x :: .sign .eq false :: (e.lexemes ++ ([.sign .semi false] ++ ts))) = _
  rw [readStmt, hread]
  rfl

theorem readStmt_mix (he : e.IsReadable) (ts : List Lexeme) :
    readStmt ((Stmt.mix x e).lexemes ++ ts) = some (.mix x e, ts) := by
  have hread := readUpTo_semi he ts
  rw [Stmt.lexemes, List.append_assoc, List.append_assoc]
  show readStmt (.word x :: .sign .caret true :: .sign .eq false
    :: (e.lexemes ++ ([.sign .semi false] ++ ts))) = _
  rw [readStmt, hread]
  rfl

theorem readStmt_ret (he : e.IsReadable) (ts : List Lexeme) :
    readStmt ((Stmt.ret e).lexemes ++ ts) = some (.ret e, ts) := by
  have hread := readUpTo_semi he ts
  rw [Stmt.lexemes, List.append_assoc, List.append_assoc]
  show readStmt (.keyword .returnKw :: (e.lexemes ++ ([.sign .semi false] ++ ts))) = _
  rw [readStmt, hread]
  rfl

/-- A result is read up to the closing brace of its block. -/
theorem readStmt_result (he : e.IsReadable) (hresult : e.isResult) (ts : List Lexeme) :
    readStmt ((Stmt.result e).lexemes ++ .closing .brace :: ts)
      = some (.result e, .closing .brace :: ts) := by
  have hread := readExpr_eq_some he (endsExpr_closing .brace ts)
  have hrest : readResult (e.lexemes ++ .closing .brace :: ts)
      = some (.result e, .closing .brace :: ts) := by
    rw [readResult, hread]
    rfl
  rw [Stmt.lexemes, ← hrest]
  cases e with
  | var x => unfold readStmt; rfl
  | none => unfold readStmt; rfl
  | slice s low high =>
    rw [Expr.lexemes, List.append_assoc, List.append_assoc]
    unfold readStmt
    rfl
  | writeText e =>
    rw [Expr.lexemes, List.append_assoc, List.append_assoc]
    unfold readStmt
    rfl
  | _ => exact absurd hresult (by simp [Expr.isResult])

end Lines

/-! ## Arms and entries -/

section Arms

variable {x y : String} {e : Expr}

/-- A numbered arm is not taken for the last one, which begins with a word. -/
theorem intLexemes_ne_word (n : Int) (x : String) (ts rest : List Lexeme) :
    intLexemes n ++ ts ≠ .word x :: rest := by
  rw [intLexemes]
  split <;> simp

/-- The arms of a match on numbers are read up to the closing brace. -/
theorem readArms_lexemes {arms : List (Int × Expr)} (h : ∀ arm ∈ arms, arm.2.IsReadable)
    (he : e.IsReadable) (ts : List Lexeme) :
    readArms (arms.flatMap armLexemes ++ (.word y :: ((armArrow ++ [.keyword .returnKw])
      ++ (e.lexemes ++ ([.sign .comma false, .closing .brace] ++ ts)))))
      = some ((arms, y, e), ts) := by
  induction arms with
  | nil =>
    have hends : EndsExpr ([.sign .comma false, .closing .brace] ++ ts) := ⟨rfl, rfl, rfl⟩
    have hread := readUpTo_lexemes he hends
    show readArms (.word y :: _) = _
    rw [readArms, pass?_append]
    show (readUpTo [.sign .comma false, .closing .brace] (e.lexemes
      ++ ([.sign .comma false, .closing .brace] ++ ts))).bind _ = _
    rw [hread]
    rfl
  | cons arm arms ih =>
    obtain ⟨n, e'⟩ := arm
    have hrest := ih fun arm harm => h arm (List.mem_cons_of_mem _ harm)
    have he' : e'.IsReadable := h (n, e') List.mem_cons_self
    generalize hlast : Lexeme.word y :: ((armArrow ++ [.keyword .returnKw])
      ++ (e.lexemes ++ ([.sign .comma false, .closing .brace] ++ ts))) = last at hrest ⊢
    have hread := readUpTo_comma he' (arms.flatMap armLexemes ++ last)
    have hshorter : (arms.flatMap armLexemes ++ last).length < (intLexemes n ++ (armArrow
        ++ (e'.lexemes ++ ([Lexeme.sign .comma false]
          ++ (arms.flatMap armLexemes ++ last))))).length := by
      simp only [List.length_append, List.length_singleton]
      omega
    rw [List.flatMap_cons, armLexemes]
    simp only [List.append_assoc]
    unfold readArms
    split
    · next heq => exact absurd heq (intLexemes_ne_word n _ _ _)
    · simp only [readInt?_lexemes, Option.bind_eq_bind, Option.bind_some, pass?_append, hread,
        shorter?_eq_some hshorter, hrest]
      rfl

/-- A match on numbers is read with all of its arms and the last one. -/
theorem readStmt_select {subject : Expr} {arms : List (Int × Expr)} (hsubject : subject.IsReadable)
    (harms : ∀ arm ∈ arms, arm.2.IsReadable) (he : e.IsReadable) (ts : List Lexeme) :
    readStmt ((Stmt.select x subject arms y e).lexemes ++ ts)
      = some (.select x subject arms y e, ts) := by
  have harmsRead := readArms_lexemes (y := y) harms he ([.sign .semi false] ++ ts)
  generalize hlast : arms.flatMap armLexemes ++ (Lexeme.word y
    :: ((armArrow ++ [.keyword .returnKw]) ++ (e.lexemes ++ ([.sign .comma false, .closing .brace]
      ++ ([.sign .semi false] ++ ts))))) = last at harmsRead
  have hread := readUpTo_brace hsubject last
  have hlexemes : (Stmt.select x subject arms y e).lexemes ++ ts = .keyword .letKw :: .word x
      :: .sign .eq false :: .keyword .matchKw
      :: (subject.lexemes ++ ([.opening .brace] ++ last)) := by
    rw [← hlast, Stmt.lexemes]
    simp
  rw [hlexemes, readStmt_let, readLet, hread]
  show (readArms last).bind _ = _
  rw [harmsRead]
  rfl

/-- An assignment in an arm is read up to its comma. -/
theorem readSetting_lexemes {setting : String × Expr} (h : setting.2.IsReadable)
    (ts : List Lexeme) :
    readSetting (settingLexemes setting ++ ts) = some (setting, ts) := by
  have hread := readUpTo_comma h ts
  rw [settingLexemes, List.append_assoc, List.append_assoc]
  show readSetting (.word setting.1 :: .sign .eq false
    :: (setting.2.lexemes ++ ([.sign .comma false] ++ ts))) = _
  rw [readSetting, hread]
  rfl

/-- A comparison of texts is read with its three arms. -/
theorem readStmt_order {a b : String} {less greater : String × Expr} (he : e.IsReadable)
    (hless : less.2.IsReadable) (hgreater : greater.2.IsReadable) (ts : List Lexeme) :
    readStmt ((Stmt.order a b e less greater).lexemes ++ ts)
      = some (.order a b e less greater, ts) := by
  have hgreaterRead := readSetting_lexemes hgreater ([.closing .brace] ++ ts)
  have hlessRead := readSetting_lexemes hless
    (orderingArm "Greater" ++ (settingLexemes greater ++ ([.closing .brace] ++ ts)))
  have hfound := readUpTo_comma he (orderingArm "Less" ++ (settingLexemes less
    ++ (orderingArm "Greater" ++ (settingLexemes greater ++ ([.closing .brace] ++ ts)))))
  have hlexemes : (Stmt.order a b e less greater).lexemes ++ ts = .keyword .matchKw :: .word a
      :: .sign .dot false :: .word "cmp" :: .opening .paren :: .word b :: .closing .paren
      :: .opening .brace :: ((orderingArm "Equal" ++ [.keyword .returnKw]) ++ (e.lexemes
        ++ ([.sign .comma false] ++ (orderingArm "Less" ++ (settingLexemes less
          ++ (orderingArm "Greater" ++ (settingLexemes greater
            ++ ([.closing .brace] ++ ts)))))))) := by
    rw [Stmt.lexemes]
    simp
  rw [hlexemes, readStmt]
  show readOrder a b _ = _
  simp only [readOrder, pass?_append, Option.bind_eq_bind, Option.bind_some, hfound, hlessRead,
    hgreaterRead]
  rfl

/-- An entry of a map is read up to the comma behind it. -/
theorem readEntry?_lexemes {entry : String × String} (h : isPath entry.2) (ts : List Lexeme) :
    readEntry? (entryLexemes entry ++ ts) = some (entry, .sign .comma false :: ts) := by
  have hends : endsPath (.closing .paren :: .sign .comma false :: ts) := rfl
  have hpath := readPath?_lexemes h hends
  rw [entryLexemes, List.append_assoc, List.append_assoc]
  show readEntry? (.opening .paren :: .text entry.1 :: .sign .comma false
    :: (pathLexemes entry.2 ++ .closing .paren :: .sign .comma false :: ts)) = _
  rw [ readEntry?, hpath]
  rfl

/-- A map is read with all of its entries. -/
theorem readStmt_mapLookup {typeName : String} {entries : List (String × String)}
    (h : ∀ entry ∈ entries, isPath entry.2) (ts : List Lexeme) :
    readStmt ((Stmt.mapLookup typeName entries x).lexemes ++ ts)
      = some (.mapLookup typeName entries x, ts) := by
  have hentries := readList_flatMap (fun _ _ => rfl)
    (fun entry hentry => readEntry?_lexemes (h entry hentry))
    (mapGet ++ (.word x :: .closing .paren :: (plainCall "copied" ++ ts)))
  have hlexemes : (Stmt.mapLookup typeName entries x).lexemes ++ ts = mapHead ++ (.word typeName
      :: (mapInit ++ (entries.flatMap entryLexemes ++ .closing .square
        :: (mapGet ++ (.word x :: .closing .paren :: (plainCall "copied" ++ ts)))))) := by
    rw [Stmt.lexemes]
    simp
  rw [hlexemes]
  have hread : ∀ rest, readStmt (mapHead ++ rest) = readMapLookup (mapHead ++ rest) := by
    intro rest
    unfold readStmt
    rfl
  rw [hread]
  simp only [readMapLookup, pass?_append, Option.bind_eq_bind, Option.bind_some, hentries]
  rfl

end Arms

/-! ## Blocks -/

/-- The lexemes of a block with the brace that closes it, before others. -/
def closedBlock (body : List Stmt) (ts : List Lexeme) : List Lexeme :=
  blockLexemes body ++ ([.closing .brace] ++ ts)

/-- Whether a block is read as its statements, whatever follows its closing brace. -/
def BlockIsRead (body : List Stmt) : Prop :=
  ∀ ts, readBlock (closedBlock body ts) = some (body, ts)

/-- Less is left behind a block. -/
theorem length_lt_closedBlock (body : List Stmt) (ts : List Lexeme) :
    ts.length < (closedBlock body ts).length := by
  simp only [closedBlock, List.length_append, List.length_singleton]
  omega

theorem length_lt_closedBlock_of_cons (body : List Stmt) (a b : Lexeme) (ts : List Lexeme) :
    ts.length < (closedBlock body (a :: b :: ts)).length :=
  Nat.lt_trans (Nat.lt_trans (Nat.lt_succ_self _) (Nat.lt_succ_self _))
    (length_lt_closedBlock body (a :: b :: ts))

/-- Less is left behind the brace that a condition stands before. -/
theorem length_lt_condition (c : Expr) (ts : List Lexeme) :
    ts.length < (c.lexemes ++ ([Lexeme.opening .brace] ++ ts)).length := by
  simp only [List.length_append, List.length_singleton]
  omega

theorem length_lt_head (k : Keyword) (c : Expr) (ts : List Lexeme) :
    ts.length < (.keyword k :: (c.lexemes ++ ([Lexeme.opening .brace] ++ ts))).length :=
  Nat.lt_succ_of_lt (length_lt_condition c ts)

section Blocks

variable {x text : String} {c : Expr} {body other : List Stmt}

theorem readStmt_when (hc : c.IsReadable) (hbody : BlockIsRead body) (ts : List Lexeme) :
    readStmt ((Stmt.when c body).lexemes ++ ts) = some (.when c body, ts) := by
  have hhead := readUpTo_brace hc (closedBlock body ts)
  have hshorter := length_lt_head .ifKw c (closedBlock body ts)
  have hlexemes : (Stmt.when c body).lexemes ++ ts
      = .keyword .ifKw :: (c.lexemes ++ ([.opening .brace] ++ closedBlock body ts)) := by
    rw [Stmt.lexemes, closedBlock]
    simp
  rw [hlexemes, readStmt]
  simp only [hhead, shorter?_eq_some hshorter, hbody ts, Option.bind_eq_bind, Option.bind_some]
  rfl

theorem readStmt_loop (hc : c.IsReadable) (hbody : BlockIsRead body) (ts : List Lexeme) :
    readStmt ((Stmt.loop c body).lexemes ++ ts) = some (.loop c body, ts) := by
  have hhead := readUpTo_brace hc (closedBlock body ts)
  have hshorter := length_lt_head .whileKw c (closedBlock body ts)
  have hlexemes : (Stmt.loop c body).lexemes ++ ts
      = .keyword .whileKw :: (c.lexemes ++ ([.opening .brace] ++ closedBlock body ts)) := by
    rw [Stmt.lexemes, closedBlock]
    simp
  rw [hlexemes, readStmt]
  simp only [hhead, shorter?_eq_some hshorter, hbody ts, Option.bind_eq_bind, Option.bind_some]
  rfl

theorem readStmt_eachByte (hbody : BlockIsRead body) (ts : List Lexeme) :
    readStmt ((Stmt.eachByte x text body).lexemes ++ ts) = some (.eachByte x text body, ts) := by
  have hshorter : (closedBlock body ts).length < (Lexeme.keyword .forKw :: .sign .amp false
      :: .word x :: .keyword .inKw :: .word text
      :: ((plainCall "as_bytes" ++ [.opening .brace]) ++ closedBlock body ts)).length := by
    simp only [List.length_append, List.length_cons]
    omega
  have hlexemes : (Stmt.eachByte x text body).lexemes ++ ts = .keyword .forKw :: .sign .amp false
      :: .word x :: .keyword .inKw :: .word text
      :: ((plainCall "as_bytes" ++ [.opening .brace]) ++ closedBlock body ts) := by
    rw [Stmt.lexemes, closedBlock]
    simp
  rw [hlexemes, readStmt]
  simp only [pass?_append, shorter?_eq_some hshorter, hbody ts, Option.bind_eq_bind,
    Option.bind_some]
  rfl

/-- The lexemes after the numbered arms of a match. -/
def emptyArm : List Lexeme :=
  .keyword .underscore :: (armArrow ++ [.opening .brace, .closing .brace, .closing .brace])

/-- Whether numbered arms are read up to the last one, whatever follows the match. -/
def ArmsAreRead (arms : List (UInt32 × List Stmt)) : Prop :=
  ∀ ts, readSwitch (armBlockLexemes arms ++ (emptyArm ++ ts)) = some (arms, ts)

theorem armsAreRead_nil : ArmsAreRead [] := by
  intro ts
  show readSwitch (.keyword .underscore
    :: ((armArrow ++ [.opening .brace, .closing .brace, .closing .brace]) ++ ts)) = _
  rw [readSwitch, pass?_append]
  rfl

theorem armsAreRead_cons (n : UInt32) (hbody : BlockIsRead body) {arms : List (UInt32 × List Stmt)}
    (harms : ArmsAreRead arms) : ArmsAreRead ((n, body) :: arms) := by
  intro ts
  have hblock := hbody (armBlockLexemes arms ++ (emptyArm ++ ts))
  have hlength := length_lt_closedBlock body (armBlockLexemes arms ++ (emptyArm ++ ts))
  have hlexemes : armBlockLexemes ((n, body) :: arms) ++ (emptyArm ++ ts) = .number n.toNat ""
      :: ((armArrow ++ [.opening .brace])
        ++ closedBlock body (armBlockLexemes arms ++ (emptyArm ++ ts))) := by
    rw [armBlockLexemes, closedBlock]
    simp
  rw [hlexemes]
  generalize closedBlock body (armBlockLexemes arms ++ (emptyArm ++ ts)) = rest at hblock hlength ⊢
  have hshorter : rest.length
      < (Lexeme.number n.toNat "" :: ((armArrow ++ [.opening .brace]) ++ rest)).length := by
    simp only [List.length_append, List.length_cons]
    omega
  unfold readSwitch
  simp only [readNat?_number, pass?_append, shorter?_eq_some hshorter, hblock,
    shorter?_eq_some (Nat.lt_trans hlength hshorter), harms ts, Option.bind_eq_bind,
    Option.bind_some, if_pos n.toNat_lt, UInt32.ofNat_toNat]
  rfl

/-- A match with blocks for arms is read up to its last brace. -/
theorem readStmt_switch {arms : List (UInt32 × List Stmt)} (harms : ArmsAreRead arms)
    (ts : List Lexeme) :
    readStmt ((Stmt.switch x arms).lexemes ++ ts) = some (.switch x arms, ts) := by
  have hlexemes : (Stmt.switch x arms).lexemes ++ ts = .keyword .matchKw :: .word x
      :: .opening .brace :: (armBlockLexemes arms ++ (emptyArm ++ ts)) := by
    rw [Stmt.lexemes, emptyArm]
    simp
  rw [hlexemes, readStmt, harms ts]
  rfl

/-- The lexemes of a choice behind the keyword of its first condition, up to its last brace. -/
def choiceLexemes (x : String) : List (Expr × List Stmt) → List Stmt → List Lexeme
  | [], _ => []
  | (c, body) :: rest, other =>
    c.lexemes ++ [.opening .brace] ++ blockLexemes body ++ branchLexemes x false rest
      ++ [.closing .brace, .keyword .elseKw, .opening .brace] ++ blockLexemes other
      ++ [.closing .brace]

/-- Whether a choice is read up to its last brace, whatever follows. -/
def ChoiceIsRead (x : String) (branches : List (Expr × List Stmt)) (other : List Stmt) : Prop :=
  ∀ ts, readBranches (choiceLexemes x branches other ++ ts) = some ((branches, other), ts)

theorem choiceIsRead_singleton (hc : c.IsReadable) (hbody : BlockIsRead body)
    (hother : BlockIsRead other) (x : String) : ChoiceIsRead x [(c, body)] other := by
  intro ts
  have hblock := hbody (.keyword .elseKw :: .opening .brace :: closedBlock other ts)
  have hlength := length_lt_closedBlock_of_cons body (.keyword .elseKw) (.opening .brace)
    (closedBlock other ts)
  have hlexemes : choiceLexemes x [(c, body)] other ++ ts = c.lexemes ++ ([.opening .brace]
      ++ closedBlock body (.keyword .elseKw :: .opening .brace :: closedBlock other ts)) := by
    rw [choiceLexemes, branchLexemes, closedBlock, closedBlock]
    simp
  rw [hlexemes]
  generalize closedBlock body (.keyword .elseKw :: .opening .brace :: closedBlock other ts) = rest
    at hblock hlength ⊢
  have hhead := readUpTo_brace hc rest
  have hshorter := length_lt_condition c rest
  rw [readBranches]
  simp only [hhead, shorter?_eq_some hshorter, hblock,
    shorter?_eq_some (Nat.lt_trans hlength hshorter), hother ts, Option.bind_eq_bind,
    Option.bind_some]
  rfl

/-- One more condition is read in front of a choice. -/
theorem choiceIsRead_cons (hc : c.IsReadable) (hbody : BlockIsRead body) {c' : Expr}
    {body' : List Stmt} {rest : List (Expr × List Stmt)}
    (hrest : ChoiceIsRead x ((c', body') :: rest) other) :
    ChoiceIsRead x ((c, body) :: (c', body') :: rest) other := by
  intro ts
  have hnext := hrest ts
  have hlexemes : choiceLexemes x ((c, body) :: (c', body') :: rest) other ++ ts = c.lexemes
      ++ ([.opening .brace] ++ closedBlock body (.keyword .elseKw :: .keyword .ifKw
        :: (choiceLexemes x ((c', body') :: rest) other ++ ts))) := by
    rw [choiceLexemes, branchLexemes, choiceLexemes, closedBlock]
    simp
  rw [hlexemes]
  generalize choiceLexemes x ((c', body') :: rest) other ++ ts = next at hnext ⊢
  have hblock := hbody (.keyword .elseKw :: .keyword .ifKw :: next)
  have hlength := length_lt_closedBlock_of_cons body (.keyword .elseKw) (.keyword .ifKw) next
  generalize closedBlock body (.keyword .elseKw :: .keyword .ifKw :: next) = block
    at hblock hlength ⊢
  have hhead := readUpTo_brace hc block
  have hshorter := length_lt_condition c block
  rw [readBranches]
  simp only [hhead, shorter?_eq_some hshorter, hblock,
    shorter?_eq_some (Nat.lt_trans hlength hshorter), hnext, Option.bind_eq_bind, Option.bind_some]
  rfl

/-- A choice of values is read up to the semicolon behind it. -/
theorem readStmt_choose {branches : List (Expr × List Stmt)} (hne : branches ≠ [])
    (h : ChoiceIsRead x branches other) (ts : List Lexeme) :
    readStmt ((Stmt.choose x branches other).lexemes ++ ts)
      = some (.choose x branches other, ts) := by
  have hread := h ([.sign .semi false] ++ ts)
  have hlexemes : (Stmt.choose x branches other).lexemes ++ ts = .keyword .letKw :: .word x
      :: .sign .eq false :: .keyword .ifKw
      :: (choiceLexemes x branches other ++ ([.sign .semi false] ++ ts)) := by
    obtain ⟨branch, rest, rfl⟩ := List.exists_cons_of_ne_nil hne
    rw [Stmt.lexemes, branchLexemes, choiceLexemes]
    simp
  rw [hlexemes, readStmt_let, readLet]
  simp only [hread, Option.bind_eq_bind, Option.bind_some, pass?_append]
  rfl

end Blocks

/-! ## Statements in a row -/

/-- No statement begins with a closing brace. -/
theorem Stmt.lexemes_ne {s : Stmt} (h : s.IsReadable) (ts rest : List Lexeme) :
    s.lexemes ++ ts ≠ .closing .brace :: rest := by
  cases s with
  | choose x branches other =>
    rw [Stmt.IsReadable] at h
    obtain ⟨branch, branches, rfl⟩ := List.exists_cons_of_ne_nil h.2.1
    simp [Stmt.lexemes, branchLexemes]
  | mapLookup typeName entries x => simp [Stmt.lexemes, mapHead]
  | result e =>
    rw [Stmt.IsReadable] at h
    cases e <;> simp [Expr.isResult] at h <;> simp [Stmt.lexemes, Expr.lexemes]
  | comment | blank => exact absurd h (by simp [Stmt.IsReadable])
  | _ => simp [Stmt.lexemes]

/-- Less is left after a statement. -/
theorem Stmt.IsReadable.length_lt {s : Stmt} (h : s.IsReadable) (ts : List Lexeme) :
    ts.length < (s.lexemes ++ ts).length := by
  have hpos : 0 < s.lexemes.length := by
    cases s with
    | choose x branches other =>
      rw [IsReadable] at h
      obtain ⟨branch, branches, rfl⟩ := List.exists_cons_of_ne_nil h.2.1
      simp [lexemes, branchLexemes]
    | mapLookup typeName entries x => simp [lexemes, mapHead]
    | result e =>
      rw [IsReadable] at h
      have hlength := h.1.length_lt []
      rw [List.append_nil] at hlength
      rw [lexemes]
      exact hlength
    | comment | blank => exact absurd h (by simp [IsReadable])
    | _ => simp [lexemes]
  rw [List.length_append]
  omega

theorem blockIsRead_nil : BlockIsRead [] := by
  intro ts
  show readBlock (.closing .brace :: ts) = _
  rw [readBlock]

/-- One more statement is read in front of a block. -/
theorem blockIsRead_cons {s : Stmt} {body : List Stmt} (h : s.IsReadable)
    (hs : ∀ ts, readStmt (s.lexemes ++ closedBlock body ts) = some (s, closedBlock body ts))
    (hbody : BlockIsRead body) : BlockIsRead (s :: body) := by
  intro ts
  have hlexemes : closedBlock (s :: body) ts = s.lexemes ++ closedBlock body ts := by
    rw [closedBlock, closedBlock, blockLexemes, List.append_assoc]
  rw [hlexemes]
  unfold readBlock
  split
  · next heq => exact absurd heq (Stmt.lexemes_ne h _ _)
  · simp only [hs ts, shorter?_eq_some (h.length_lt (closedBlock body ts)), hbody ts,
      Option.bind_eq_bind, Option.bind_some]
    rfl

mutual

/-- The lexemes of a readable statement are read as the statement. -/
theorem Stmt.readStmt_lexemes : (s : Stmt) → s.IsReadable → (ts : List Lexeme) →
    (s.isResult → ∃ rest, ts = .closing .brace :: rest) →
    readStmt (s.lexemes ++ ts) = some (s, ts)
  | .comment _, h, _, _ => absurd h (by simp [Stmt.IsReadable])
  | .blank, h, _, _ => absurd h (by simp [Stmt.IsReadable])
  | .bind _ _, h, ts, _ => by
    rw [Stmt.IsReadable] at h
    exact readStmt_bind h.2 ts
  | .bindVar _ type _, h, ts, _ => by
    rw [Stmt.IsReadable] at h
    exact readStmt_bindVar type h.2 ts
  | .bindVars _ _ _ _, h, ts, _ => by
    rw [Stmt.IsReadable] at h
    exact readStmt_bindVars h.2.2.1 h.2.2.2 ts
  | .choose x branches other, h, ts, _ => by
    rw [Stmt.IsReadable] at h
    obtain ⟨-, hne, hbranches, hother⟩ := h
    exact readStmt_choose hne (choiceIsRead x (blockIsRead other hother) branches hne hbranches) ts
  | .select _ _ _ _ _, h, ts, _ => by
    rw [Stmt.IsReadable] at h
    exact readStmt_select h.2.1 h.2.2.1 h.2.2.2.2 ts
  | .assign _ _, h, ts, _ => by
    rw [Stmt.IsReadable] at h
    exact readStmt_assign h.2 ts
  | .mix _ _, h, ts, _ => by
    rw [Stmt.IsReadable] at h
    exact readStmt_mix h.2 ts
  | .when _ body, h, ts, _ => by
    rw [Stmt.IsReadable] at h
    exact readStmt_when h.1 (blockIsRead body h.2) ts
  | .loop _ body, h, ts, _ => by
    rw [Stmt.IsReadable] at h
    exact readStmt_loop h.1 (blockIsRead body h.2) ts
  | .eachByte _ _ body, h, ts, _ => by
    rw [Stmt.IsReadable] at h
    exact readStmt_eachByte (blockIsRead body h.2.2) ts
  | .switch _ arms, h, ts, _ => by
    rw [Stmt.IsReadable] at h
    exact readStmt_switch (armsAreRead arms h.2) ts
  | .order _ _ _ _ _, h, ts, _ => by
    rw [Stmt.IsReadable] at h
    obtain ⟨-, -, hfound, hless, hgreater⟩ := h
    exact readStmt_order hfound hless.2 hgreater.2 ts
  | .mapLookup _ _ _, h, ts, _ => by
    rw [Stmt.IsReadable] at h
    exact readStmt_mapLookup h.2.1 ts
  | .ret _, h, ts, _ => by
    rw [Stmt.IsReadable] at h
    exact readStmt_ret h ts
  | .result _, h, ts, hts => by
    rw [Stmt.IsReadable] at h
    obtain ⟨rest, rfl⟩ := hts rfl
    exact readStmt_result h.1 h.2 rest

/-- The lexemes of readable statements in a row are read as the statements. -/
theorem blockIsRead : (body : List Stmt) → blockReadable body → BlockIsRead body
  | [], _ => blockIsRead_nil
  | s :: rest, h => by
    rw [blockReadable] at h
    obtain ⟨hs, hresult, hrest⟩ := h
    refine blockIsRead_cons hs (fun ts => ?_) (blockIsRead rest hrest)
    refine Stmt.readStmt_lexemes s hs _ fun hlast => ⟨ts, ?_⟩
    rw [hresult hlast]
    rfl

/-- By induction on the conditions, a choice is read. -/
theorem choiceIsRead (x : String) {other : List Stmt} (hother : BlockIsRead other) :
    (branches : List (Expr × List Stmt)) → branches ≠ [] → branchesReadable branches →
    ChoiceIsRead x branches other
  | [], hne, _ => absurd rfl hne
  | [(_, body)], _, h => by
    rw [branchesReadable] at h
    exact choiceIsRead_singleton h.1 (blockIsRead body h.2.1) hother x
  | (_, body) :: (c', body') :: rest, _, h => by
    rw [branchesReadable] at h
    have hrest := choiceIsRead x hother ((c', body') :: rest) (List.cons_ne_nil _ _) h.2.2
    exact choiceIsRead_cons h.1 (blockIsRead body h.2.1) hrest

/-- By induction on the arms, a match with blocks is read. -/
theorem armsAreRead : (arms : List (UInt32 × List Stmt)) → armsReadable arms → ArmsAreRead arms
  | [], _ => armsAreRead_nil
  | (n, body) :: rest, h => by
    rw [armsReadable] at h
    exact armsAreRead_cons n (blockIsRead body h.1) (armsAreRead rest h.2)

end

end EnumNames.Code
