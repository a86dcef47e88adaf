import EnumNames.Proofs.Code.Comparison
import EnumNames.Proofs.Generated.Source
import EnumNames.Proofs.MemberSet

/-!
# What a header can change

A header that keeps to its lines is read as nothing, so files with different headers differ in their
comments alone. A line break in the arguments ends the comment that they are written into: what
follows it is read as code.

* `spelledTokens?`: all tokens of a text, each with the characters that it was read from.
* `GeneratedFile.content`: all of a file but its comments.
* `content_generate_eq`: headers that keep to their lines do not change the content.
* `scanFrom_header_lineFeed`: a line of the arguments is read as code.
-/

namespace EnumNames

open Code Target Text

/-! ## Tokens with their spellings -/

/-- All tokens of a text, each with the characters of the lexical element that it was read from. A
token tells neither the digits of a number nor what a string or a lifetime says; its spelling does. -/
def spelledTokens? (cs : List Char) : Option (List Spelled) :=
  if cs.isEmpty then some []
  else
    match _found : element? cs with
    | some (ts, rest) =>
      let spelling := cs.take (cs.length - rest.length)
      (spelledTokens? rest).map (ts.map (⟨·, spelling⟩) ++ ·)
    | none => none
termination_by cs.length
decreasing_by exact element?_length (by assumption)

variable {cs rest : List Char} {ts : List Token}

/-- The tokens of an element are kept with all of its characters. -/
theorem spelledTokens?_element (h : element? cs = some (ts, rest)) :
    spelledTokens? cs = (spelledTokens? rest).map
      (ts.map (⟨·, cs.take (cs.length - rest.length)⟩) ++ ·) := by
  rw [spelledTokens?, isEmpty_eq_false_of_element? h, h]
  rfl

theorem spelledTokens?_gap (h : element? cs = some ([], rest)) :
    spelledTokens? cs = spelledTokens? rest := by
  rw [spelledTokens?_element h]
  exact Option.map_id'

/-- What is cut into nothing adds no tokens. -/
theorem spelledTokens?_eq_of_cut (h : Cut cs [] rest) : spelledTokens? cs = spelledTokens? rest := by
  generalize hnone : ([] : List Lexeme) = ls at h
  induction h with
  | nil cs => rfl
  | gap hgap _ ih => exact (spelledTokens?_gap hgap).trans (ih hnone)
  | cons _ _ _ _ => exact absurd hnone (by simp)

/-- Without their spellings, these are the tokens that the scanner gives. -/
theorem scanFrom_eq_spelledTokens? (before : List Token) (cs : List Char) :
    scanFrom before cs
      = (spelledTokens? cs).map fun ss => before.reverse ++ ss.map Spelled.token := by
  -- both functions go through the elements of the text
  fun_induction scanFrom before cs with
  | case1 before cs hempty =>
    rw [spelledTokens?, if_pos hempty]
    simp
  | case2 before cs _ ts rest hfound ih =>
    rw [ih, spelledTokens?_element hfound, Option.map_map]
    congr 1
    funext ss
    simp [Function.comp_def]
  | case3 before cs hempty hfound =>
    rw [spelledTokens?, if_neg hempty, hfound]
    rfl

/-! ## The content of a file -/

variable {o : Options} {types : List Enumeration} {header header' : Header}

namespace GeneratedFile

/-- All that a file consists of, its comments apart: the reports, the verdict, the diagnostics and
the tokens of the source with their spellings. -/
def content (file : GeneratedFile) :
    List TypeReport × Bool × List Diagnostic × Option (List Spelled) :=
  (file.types, file.verified, file.diagnostics, spelledTokens? (dropOrderMark file.source.toList))

end GeneratedFile

/-- A source begins with its header, so it has no order mark to drop. -/
theorem dropOrderMark_header (h : Header) (body : String) :
    dropOrderMark (h.text ++ body).toList = (h.text ++ body).toList := by
  obtain ⟨cs, hcs⟩ := exists_toList_header h body
  rw [hcs]
  rfl

/-- A header adds nothing to the tokens. -/
theorem spelledTokens?_header (hline : header.IsOneLine) (body : String) :
    spelledTokens? (dropOrderMark (header.text ++ body).toList) = spelledTokens? body.toList := by
  rw [dropOrderMark_header, String.toList_append]
  exact spelledTokens?_eq_of_cut ((reads_header hline).cut body.toList)

/-- Below a header, the source is scanned and checked as if the header were not there. -/
theorem GeneratedFile.content_ofOutcomes_eq (hline : header.IsOneLine)
    (hline' : header'.IsOneLine) (outcomes : List Outcome) :
    (ofOutcomes header outcomes).content = (ofOutcomes header' outcomes).content := by
  have htokens : ∀ body, spelledTokens? (dropOrderMark (header.text ++ body).toList)
      = spelledTokens? (dropOrderMark (header'.text ++ body).toList) := fun body => by
    rw [spelledTokens?_header hline, spelledTokens?_header hline']
  have hcheck : ∀ body, isSourceFile (header.text ++ body) = isSourceFile (header'.text ++ body) :=
    fun body => by
      rw [isSourceFile_header, isSourceFile_header, scanFrom_header hline, scanFrom_header hline']
  simp only [content, ofOutcomes, syntaxFinding?, htokens, hcheck]

/-- What is done with a result does not change the checks before it. -/
theorem map_bind_const {ε α β γ : Type} (check : Except ε α) (result : Except ε β) (f : β → γ) :
    (check >>= fun _ => result).map f = check >>= fun _ => result.map f := by
  cases check with
  | error e => rfl
  | ok a => rfl

/-- Two runs that differ in their headers alone give the same reports, verdicts, diagnostics and
tokens, or fail in the same way, whatever the types are. -/
theorem content_generate_eq (hline : header.IsOneLine) (hline' : header'.IsOneLine) :
    (GeneratedFile.generate o header types).map GeneratedFile.content
      = (GeneratedFile.generate o header' types).map GeneratedFile.content := by
  have hcontent := GeneratedFile.content_ofOutcomes_eq hline hline' (outcomes o types)
  have hgenerate : ∀ h : Header, (GeneratedFile.generate o h types).map GeneratedFile.content
      = o.validate >>= fun _ => (types.forM fun e => o.validateType e.name) >>= fun _ =>
        .ok (GeneratedFile.ofOutcomes h (outcomes o types)).content := by
    intro h
    unfold GeneratedFile.generate
    exact (map_bind_const _ _ _).trans
      (congrArg (fun result => o.validate >>= fun _ => result) (map_bind_const _ _ _))
  rw [hgenerate, hgenerate, hcontent]

/-- Arguments with the end of a block comment, and no arguments. -/
theorem content_generate_arguments :
    (GeneratedFile.generate { lookupTemplate := "find_\x7b\x7d" }
        { arguments := "--type Gauge --trim-prefix */", digest := some "0f" } [gauge]).map
        GeneratedFile.content
      = (GeneratedFile.generate { lookupTemplate := "find_\x7b\x7d" }
        { arguments := "", digest := some "0f" } [gauge]).map GeneratedFile.content :=
  content_generate_eq ⟨by decide, by decide⟩ ⟨by decide, by decide⟩

/-! ## Arguments with a line break -/

/-- What stands on a line of its own in the arguments is read as code. -/
theorem scanFrom_header_lineFeed {before code after : String} {ls : List Lexeme}
    (harguments : trim header.arguments = before ++ "\n" ++ code ++ "\n// " ++ after)
    (hdigest : header.digest = none) (hbefore : '\n' ∉ before.toList)
    (hcode : LineLexesTo code ls) (hafter : '\n' ∉ after.toList) (body : String) :
    scanFrom [] (header.text ++ body).toList
      = scanFrom (ls.map Lexeme.token).reverse body.toList := by
  have hcommand : header.command
      = "stringer " ++ (before ++ "\n" ++ code ++ "\n// " ++ after) := by
    have hne : (before ++ "\n" ++ code ++ "\n// " ++ after).isEmpty = false := by
      simp
    rw [Header.command, harguments, hne]
    rfl
  have htext : (header.text ++ body).toList
      = ("// " ++ ("Code generated by \"stringer " ++ before)).toList ++ '\n'
        :: (code.toList ++ '\n' :: (("// " ++ (after ++ "\"; DO NOT EDIT.")).toList ++ '\n'
          :: body.toList)) := by
    unfold Header.text
    rw [hcommand, hdigest]
    simp
  have hfirst : '\n' ∉ ("Code generated by \"stringer " ++ before).toList := by
    simp [hbefore]
  have hlast : '\n' ∉ (after ++ "\"; DO NOT EDIT.").toList := by
    simp [hafter]
  have hcut := (lineLexesTo_comment hfirst _).trans
    ((hcode _).trans (lineLexesTo_comment hlast body.toList))
  rw [htext, hcut.scanFrom_eq]
  simp

/-- Arguments that ask for a module in their second line. -/
def threeLines : Header :=
  { arguments := "--type Gauge\nmod m;\n// --lookup f" }

/-- Below the first line of the header, there is a module. -/
theorem scan?_threeLines :
    scan? (threeLines.text ++ "") = some [.keyword .modKw, .word "m", .sign .semi false] := by
  have hmod : IsLine "mod m;" [.keyword "mod" .modKw, .gap, .name "m", .semi] := by
    refine ⟨rfl, ?_, of_decide_eq_true rfl⟩
    simp +decide [Piece.IsValid]
  rw [scan?_header, scanFrom_header_lineFeed (by decide : trim threeLines.arguments
    = "--type Gauge" ++ "\n" ++ "mod m;" ++ "\n// " ++ "--lookup f") rfl (by decide)
    hmod.lineLexesTo (by decide), scanFrom]
  rfl

/-- The module is in the file, although no type asks for it. -/
theorem content_generate_threeLines_ne :
    (GeneratedFile.generate {} threeLines []).map GeneratedFile.content
      ≠ (GeneratedFile.generate {} {} []).map GeneratedFile.content := by
  have hempty : scan? (({} : Header).text ++ "") = some [] := by
    have hline : ({} : Header).IsOneLine := ⟨by decide, by decide⟩
    rw [scan?_header, scanFrom_header hline, scanFrom]
    rfl
  intro h
  have hspelled : spelledTokens? (dropOrderMark (threeLines.text ++ "").toList)
      = spelledTokens? (dropOrderMark (({} : Header).text ++ "").toList) :=
    congrArg (fun content => content.2.2.2) (Except.ok.inj h)
  have htokens : scan? (threeLines.text ++ "") = scan? (({} : Header).text ++ "") := by
    rw [scan?, scan?, scanFrom_eq_spelledTokens?, scanFrom_eq_spelledTokens?, hspelled]
  rw [scan?_threeLines, hempty] at htokens
  exact absurd htokens (by simp)

end EnumNames
