import EnumNames.Proofs.Code.Expression
import EnumNames.Proofs.Syntax.Operand

/-!
# Paths

A run passes the names of a path one after the other. Some names of a path are keywords, after which
no arguments may stand, so that two goals can be met after a name.

* `leads_path`: a path is passed as an operand.
* `leads_path_whole`: a path is passed where a whole expression is expected.
-/

namespace EnumNames.Code

open Target Stage

variable {fields : Bool} {s : Shape} {ts : List Token} {later : List Goal}

/-- The goals after a name in a path that does not begin with a type. -/
def IsAfterName (g : PathGoal) : Prop :=
  ∃ p : PathShape, p.qualified = false ∧ (g = .arguments .expression p ∨ g = .more .expression p)

/-- A name in a path is one token: an identifier or one of a few keywords. -/
theorem exists_token_namePiece {name : String} (h : isPathName name) :
    ∃ t, (namePiece name).lexemes.map Lexeme.token = [t]
      ∧ (t = .word name ∨ ∃ k : Keyword, k.inPath ∧ t = .keyword k) := by
  rw [isPathName, Bool.or_eq_true, decide_eq_true_iff] at h
  rcases h with hplain | hmem
  · have hlookup : keywords.lookup name = none := by
      rw [isPlainIdentifier, Bool.and_eq_true, Option.isNone_iff_eq_none] at hplain
      exact hplain.2
    exact ⟨.word name, by rw [namePiece, hlookup]; rfl, .inl rfl⟩
  · have hall : ∀ name ∈ ["crate", "super", "self", "Self"], ∃ k : Keyword,
        keywords.lookup name = some k ∧ k.inPath := by decide
    obtain ⟨k, hlookup, hk⟩ := hall name hmem
    exact ⟨.keyword k, by rw [namePiece, hlookup]; rfl, .inr ⟨k, hk, rfl⟩⟩

/-- A path begins with a name. -/
theorem leads_firstName {name : String} (h : isPathName name) {t : Token}
    (ht : (namePiece name).lexemes.map Lexeme.token = [t]) (hts : begins [.pound] ts = false) :
    ∃ g, IsAfterName g ∧ Leads ⟨.expr (.operand fields) :: later, s, t :: ts⟩
      ⟨.path g :: .expr (.pathEnd fields) :: .expr .trailers :: later, .plain, ts⟩ := by
  obtain ⟨t', ht', hname⟩ := exists_token_namePiece h
  obtain rfl : t = t' := by simpa [ht] using ht'
  rcases hname with rfl | ⟨k, hk, rfl⟩
  · exact ⟨_, ⟨_, rfl, .inl rfl⟩, leads_word name hts⟩
  · cases k with
    | selfType => exact ⟨_, ⟨{ single := true }, rfl, .inl rfl⟩, leads_take (fun _ => rfl) rfl rfl⟩
    | selfValue | superKw | crateKw =>
      exact ⟨_, ⟨{ single := true }, rfl, .inr rfl⟩, leads_take (fun _ => rfl) rfl rfl⟩
    | _ => exact absurd hk (by decide)

/-- A name follows a separator. -/
theorem leads_segment {name : String} (h : isPathName name) {p : PathShape}
    (hp : p.qualified = false) :
    ∃ g, IsAfterName g ∧ Leads ⟨.path (.segment .expression p) :: later, s,
        (namePiece name).lexemes.map Lexeme.token ++ ts⟩ ⟨.path g :: later, .plain, ts⟩ := by
  obtain ⟨t, ht, hname⟩ := exists_token_namePiece h
  rw [ht]
  rcases hname with rfl | ⟨k, hk, rfl⟩
  · exact ⟨_, ⟨p, hp, .inl rfl⟩, leads_take (fun _ => rfl) rfl rfl⟩
  · cases k with
    | selfType => exact ⟨_, ⟨p, hp, .inl rfl⟩, leads_take (fun _ => rfl) rfl rfl⟩
    | selfValue | superKw | crateKw =>
      exact ⟨_, ⟨{ p with endsBare := true }, hp, .inr rfl⟩, leads_take (fun _ => rfl) rfl rfl⟩
    | _ => exact absurd hk (by decide)

/-- After a name, a separator leads to the next one. -/
theorem leads_separator {g : PathGoal} (hg : IsAfterName g) {name : String} (h : isPathName name) :
    ∃ p : PathShape, p.qualified = false ∧ Leads
      ⟨.path g :: later, s, .sign .colon true :: .sign .colon false
        :: ((namePiece name).lexemes.map Lexeme.token ++ ts)⟩
      ⟨.path (.segment .expression p) :: later, .plain,
        (namePiece name).lexemes.map Lexeme.token ++ ts⟩ := by
  obtain ⟨t, ht, hname⟩ := exists_token_namePiece h
  rw [ht]
  have hmore : ∀ p : PathShape, p.more .expression (.sign .colon true :: .sign .colon false
      :: ([t] ++ ts)) = .take 1 [.path (.segment .expression { p with single := false })] := by
    intro p
    have hparen : isOpening .paren (t :: ts) = false := by
      rcases hname with rfl | ⟨k, -, rfl⟩ <;> rfl
    show (if true && (p.qualified || !isOpening .paren (t :: ts)) then _ else _) = _
    rw [hparen, Bool.not_false, Bool.or_true]
    rfl
  have hless : isPathLess (.sign .colon true :: .sign .colon false :: ([t] ++ ts)) = false := by
    rcases hname with rfl | ⟨k, -, rfl⟩ <;> rfl
  obtain ⟨p, hp, rfl | rfl⟩ := hg
  · have hstep : p.arguments .expression (.sign .colon true :: .sign .colon false :: ([t] ++ ts))
        = .take 1 [.path (.segment .expression { p with single := false, endsBare := true })] := by
      rw [PathShape.arguments, hless, hmore]
      rfl
    exact ⟨{ p with single := false, endsBare := true }, hp,
      leads_take (g := .path (.arguments .expression p)) (fun _ => hstep) rfl rfl⟩
  · exact ⟨{ p with single := false }, hp,
      leads_take (g := .path (.more .expression p)) (fun _ => hmore p) rfl rfl⟩

/-- The names that go on a path are passed. -/
theorem leads_morePieces {names : List String} (hnames : ∀ name ∈ names, isPathName name)
    (hts : begins [.colon, .colon] ts = false) {g : PathGoal} (hg : IsAfterName g) :
    ∃ p, Leads ⟨.path g :: later, s, (piecesLexemes (morePieces names)).map Lexeme.token ++ ts⟩
      ⟨later, .path p, ts⟩ := by
  induction names generalizing g s with
  | nil =>
    obtain ⟨p, -, rfl | rfl⟩ := hg
    · have hstep : p.arguments .expression ts = .leave (.path { p with endsBare := true }) := by
        simp [PathShape.arguments, PathShape.more, isPathLess, hts]
      exact ⟨_, leads_leave (g := .path (.arguments .expression p)) fun _ => hstep⟩
    · have hstep : p.more .expression ts = .leave (.path p) := by
        simp [PathShape.more, hts]
      exact ⟨_, leads_leave (g := .path (.more .expression p)) fun _ => hstep⟩
  | cons name names ih =>
    have hname := hnames name List.mem_cons_self
    have htokens : (piecesLexemes (morePieces (name :: names))).map Lexeme.token ++ ts
        = .sign .colon true :: .sign .colon false :: ((namePiece name).lexemes.map Lexeme.token
          ++ ((piecesLexemes (morePieces names)).map Lexeme.token ++ ts)) := by
      rw [← List.append_assoc, ← List.map_append]
      rfl
    rw [htokens]
    obtain ⟨p, hp, hseparator⟩ := leads_separator hg hname
    obtain ⟨g', hg', hsegment⟩ := leads_segment hname hp
    obtain ⟨p', hmore⟩ := ih (fun name hmem => hnames name (List.mem_cons_of_mem _ hmem)) hg'
    exact ⟨p', hseparator.trans <| hsegment.trans hmore⟩

/-- A path is passed, up to what may follow it. -/
theorem leads_path {reference : String} (h : isPath reference) (hts : endsName fields ts) :
    ∃ p, Leads ⟨.expr (.operand fields) :: later, s,
        (pathLexemes reference).map Lexeme.token ++ ts⟩
      ⟨.expr .trailers :: later, .path p, ts⟩ := by
  obtain ⟨hbrace, hcolon, hbang, hpound⟩ := endsName_iff.1 hts
  simp only [isPath, Bool.and_eq_true] at h
  obtain ⟨⟨hne, hall⟩, -⟩ := h
  have hnames := List.all_eq_true.1 hall
  have hend : ∀ p, Leads ⟨.expr (.pathEnd fields) :: .expr .trailers :: later, .path p, ts⟩
      ⟨.expr .trailers :: later, .path p, ts⟩ := by
    intro p
    have hstep : ExprGoal.step (.pathEnd fields) (.path p) ts = .leave (.path p) := by
      simp [ExprGoal.step, hbang, hbrace]
    exact leads_leave (g := .expr (.pathEnd fields)) fun _ => hstep
  rw [pathLexemes, pathPieces]
  cases hcases : pathNames reference with
  | nil => exact absurd hne (by simp [hcases])
  | cons name names =>
    rw [hcases] at hnames
    have hname := hnames name List.mem_cons_self
    have hrest : ∀ name ∈ names, isPathName name :=
      fun name hmem => hnames name (List.mem_cons_of_mem _ hmem)
    have htokens : (piecesLexemes (namePiece name :: morePieces names)).map Lexeme.token ++ ts
        = (namePiece name).lexemes.map Lexeme.token
          ++ ((piecesLexemes (morePieces names)).map Lexeme.token ++ ts) := by
      rw [← List.append_assoc, ← List.map_append]
      rfl
    cases isGlobal reference with
    | true =>
      -- the separator before the first name is passed like any other one
      have hglobal : (piecesLexemes ((if true then [Piece.separator] else [])
          ++ namePiece name :: morePieces names)).map Lexeme.token ++ ts
            = .sign .colon true :: .sign .colon false :: ((namePiece name).lexemes.map Lexeme.token
              ++ ((piecesLexemes (morePieces names)).map Lexeme.token ++ ts)) := by
        rw [← htokens]
        rfl
      obtain ⟨g, hg, hsegment⟩ := leads_segment hname (p := {}) rfl
      obtain ⟨p, hmore⟩ := leads_morePieces hrest hcolon hg
      rw [hglobal]
      exact ⟨p, (leads_take (fun _ => rfl) rfl rfl).trans <| hsegment.trans <| hmore.trans (hend p)⟩
    | false =>
      obtain ⟨t, ht, -⟩ := exists_token_namePiece hname
      have hpound' : begins [.pound]
          ((piecesLexemes (morePieces names)).map Lexeme.token ++ ts) = false := by
        cases names with
        | nil => exact hpound
        | cons name names => rfl
      obtain ⟨g, hg, hfirst⟩ := leads_firstName hname ht hpound'
      obtain ⟨p, hmore⟩ := leads_morePieces hrest hcolon hg
      rw [ht] at htokens
      refine ⟨p, ?_⟩
      show Leads ⟨_, s, (piecesLexemes (namePiece name :: morePieces names)).map Lexeme.token ++ ts⟩ _
      rw [htokens]
      exact hfirst.trans <| hmore.trans (hend p)

/-- A path does not begin with a closing bracket. -/
theorem isClosing_path {reference : String} (h : isPath reference) (b : Bracket)
    (ts : List Token) : isClosing b ((pathLexemes reference).map Lexeme.token ++ ts) = false := by
  simp only [isPath, Bool.and_eq_true] at h
  obtain ⟨⟨hne, hall⟩, -⟩ := h
  have hnames := List.all_eq_true.1 hall
  rw [pathLexemes, pathPieces]
  cases hcases : pathNames reference with
  | nil => exact absurd hne (by simp [hcases])
  | cons name names =>
    rw [hcases] at hnames
    obtain ⟨t, ht, hname⟩ := exists_token_namePiece (hnames name List.mem_cons_self)
    cases isGlobal reference with
    | true => rfl
    | false =>
      show isClosing b (((namePiece name).lexemes ++ piecesLexemes (morePieces names)).map
        Lexeme.token ++ ts) = false
      rw [List.map_append, ht]
      rcases hname with rfl | ⟨k, -, rfl⟩ <;> rfl

/-- A path is passed where a whole expression is expected. -/
theorem leads_path_whole {reference : String} (h : isPath reference) (hts : endsWhole fields ts) :
    ∃ p, Leads ⟨.expr (.whole fields) :: later, s,
        (pathLexemes reference).map Lexeme.token ++ ts⟩ ⟨later, .path p, ts⟩ := by
  simp only [endsWhole, Bool.and_eq_true] at hts
  obtain ⟨p, hpath⟩ := leads_path h (endsName_of_endsOperand hts.1.1)
  exact ⟨p, leads_whole_operand.trans <| hpath.trans <| (leads_trailers hts.1.1).trans
    (leads_operators hts.1.2)⟩

/-- A path opens no brackets. -/
theorem balanced_path (reference : String) :
    Balanced ((pathLexemes reference).map Lexeme.token) := by
  have hname : ∀ name, Balanced ((namePiece name).lexemes.map Lexeme.token) := by
    intro name
    rcases namePiece_eq name with ⟨k, hk⟩ | hk <;> rw [hk] <;> exact .cons rfl .nil
  have hmore : ∀ names, Balanced ((piecesLexemes (morePieces names)).map Lexeme.token) := by
    intro names
    induction names with
    | nil => exact .nil
    | cons name names ih =>
      have hrest := (hname name).append ih
      rw [← List.map_append] at hrest
      exact .cons rfl (.cons rfl hrest)
  rw [pathLexemes, pathPieces]
  cases pathNames reference with
  | nil => exact .nil
  | cons name names =>
    cases isGlobal reference with
    | true => exact hmore (name :: names)
    | false =>
      have hall := (hname name).append (hmore names)
      rw [← List.map_append] at hall
      exact hall

end EnumNames.Code
