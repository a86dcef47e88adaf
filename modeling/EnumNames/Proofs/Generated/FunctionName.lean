import EnumNames.Proofs.Generated.File

/-!
# Lookup functions that a file declares

A template is accepted for a type if the name that it yields holds one identifier. The name is
written into the file as it is, and there it has to stand for that identifier, too: it does, unless
it begins with an order mark or ends inside a comment.

* `functionHead`: the tokens that declare a lookup function.
* `generate_declares`: the file declares the functions whose names were accepted.
-/

namespace EnumNames

open Code Target Text

variable {o : Options} {header : Header} {types : List Enumeration}

/-- The tokens that declare a lookup function, up to its body. -/
def functionHead (name typeName : String) : List Token :=
  .keyword .pubKw :: .keyword .fnKw :: .word name :: (lookupParameters.map Lexeme.token
    ++ [.word typeName, .sign .greater false, .opening .brace])

/-- The text of a lookup function holds its head. -/
theorem functionHead_infix_lookup (name typeName : String) (body : List Stmt) :
    functionHead (identifierOf name) typeName <:+: (Item.lookup name typeName body).tokens := by
  refine ⟨(allowance "non_snake_case").map Lexeme.token,
    (blockLexemes (codeOf body)).map Lexeme.token ++ [.closing .brace], ?_⟩
  simp [functionHead, Item.tokens, Item.lexemes, Lexeme.token]

/-- The tokens of an item stand together among those of all items. -/
theorem tokens_infix_itemsTokens {item : Item} {items : List Item} (h : item ∈ items) :
    item.tokens <:+: itemsTokens items := by
  obtain ⟨before, after, rfl⟩ := List.append_of_mem h
  refine ⟨itemsTokens before, itemsTokens after, ?_⟩
  simp [itemsTokens, Item.tokens]

/-- The first type of a name has an outcome of its own. -/
theorem ofType_mem_outcomesFrom {seen : List String} {before after : List Enumeration}
    {e : Enumeration} (hseen : e.name ∉ seen) (hbefore : e.name ∉ before.map Enumeration.name) :
    Outcome.ofType o e ∈ outcomesFrom o seen (before ++ e :: after) := by
  induction before generalizing seen with
  | nil =>
    rw [List.nil_append, outcomesFrom, if_neg hseen]
    exact List.mem_cons_self
  | cons e' before ih =>
    rw [List.map_cons, List.mem_cons, not_or] at hbefore
    rw [List.cons_append, outcomesFrom]
    have hnext : e.name ∉ e'.name :: seen := by
      rw [List.mem_cons, not_or]
      exact ⟨hbefore.1, hseen⟩
    exact List.mem_cons_of_mem _ (ih hnext hbefore.2)

/-- The lookup function is among the items of a type. -/
theorem exists_lookup_mem_items {e : Enumeration} {g : GeneratedType} {name : String}
    (hg : e.generate o = .ok g) (hname : name ∈ o.lookupName? e.name) :
    ∃ body, Item.lookup name e.name body ∈ g.items := by
  obtain ⟨-, rfl⟩ := Enumeration.eq_of_generate hg
  refine ⟨(LookupPlan.select e.distinctMembers o.lookupThresholds).body e.name, ?_⟩
  rw [Option.mem_def] at hname
  simp [GeneratedType.items, GeneratedType.lookupItems, hname, LookupPlan.items_eq]

/-- Accepted names hold one identifier. -/
theorem isIdentifier_of_validateType {typeName name : String}
    (h : o.validateType typeName = .ok ()) (hname : name ∈ o.lookupName? typeName) :
    isIdentifier name := by
  rw [Options.validateType, Option.mem_def.1 hname] at h
  by_cases hident : isIdentifier name
  · exact hident
  · exact absurd h (by simp [hident])

/-- If the names that a template yields neither begin with an order mark nor end inside a comment,
being accepted is enough: the file passes the syntax check, and it declares a function for each type
with code, named by the identifier that was accepted. -/
theorem generate_declares {file : GeneratedFile}
    (h : GeneratedFile.generate o header types = .ok file) (hplain : ∀ e ∈ types, e.IsPlain)
    (harguments : '\n' ∉ header.arguments.toList)
    (hdigest : ∀ digest ∈ header.digest, '\n' ∉ digest.toList)
    (hname : ∀ e ∈ types, ∀ name ∈ o.lookupName? e.name,
      dropOrderMark name.toList = name.toList ∧ endsInLineComment name.toList = false) :
    file.verified = true ∧ (∀ d ∈ file.diagnostics, d.code ≠ .internalBug)
      ∧ ∀ before e after, types = before ++ e :: after → e.name ∉ before.map Enumeration.name →
        (Kind.ofText? e.kind).isSome → e.constants ≠ [] → ∀ name ∈ o.lookupName? e.name,
          ∃ w tokens, identifier? name = some w ∧ scan? file.source = some tokens
            ∧ functionHead w e.name <:+: tokens := by
  obtain ⟨-, hvalid, rfl⟩ := generate_eq_ok_iff.1 h
  have hline : header.IsOneLine := ⟨fun hmem => harguments (mem_of_mem_trim hmem), hdigest⟩
  have hrequest : IsReadableRequest o types := by
    refine ⟨hplain, fun e he name hmem => ?_⟩
    have hident := isIdentifier_of_validateType (hvalid e he) hmem
    exact ⟨hident, (hname e he name hmem).1, (hname e he name hmem).2⟩
  have hreads := hrequest.reads_source hline
  obtain ⟨hverified, hcodes⟩ := verified_ofOutcomes hreads
  refine ⟨hverified, hcodes, ?_⟩
  rintro before e after rfl hfirst hkind hne name hmem
  have he : e ∈ before ++ e :: after := by simp
  have hident := isIdentifier_of_validateType (hvalid e he) hmem
  obtain ⟨w, hw⟩ := Option.isSome_iff_exists.1 (isIdentifier_iff.1 hident)
  obtain ⟨g, hg⟩ := exists_generate (o := o) hkind hne
  obtain ⟨body, hbody⟩ := exists_lookup_mem_items hg hmem
  have houtcome : Outcome.generated g ∈ outcomes o (before ++ e :: after) := by
    have hmemOutcomes : Outcome.ofType o e ∈ outcomes o (before ++ e :: after) :=
      ofType_mem_outcomesFrom (by simp) hfirst
    rwa [Outcome.ofType, hg] at hmemOutcomes
  have hitem : Item.lookup name e.name body ∈ fileItems o (before ++ e :: after) :=
    List.mem_flatMap.2 ⟨_, houtcome, hbody⟩
  have hof : identifierOf name = w := by
    rw [identifierOf, hw]
    rfl
  have hhead := functionHead_infix_lookup name e.name body
  rw [hof] at hhead
  exact ⟨w, _, hw, hreads.scan?_eq, hhead.trans (tokens_infix_itemsTokens hitem)⟩

/-- A template with a comment after the name that ends with its line. -/
def commentedOptions : Options :=
  { lookupTemplate := "find_\x7b\x7d //\n" }

theorem toList_commentedName : (fillTemplate commentedOptions.lookupTemplate "Gauge").toList
    = ['f', 'i', 'n', 'd', '_', 'G', 'a', 'u', 'g', 'e', ' ', '/', '/', '\n'] := by
  decide +kernel

theorem scan?_commentedName :
    scan? (fillTemplate commentedOptions.lookupTemplate "Gauge") = some [.word "find_Gauge"] := by
  rw [scan?, toList_commentedName]
  show scanFrom [] ['f', 'i', 'n', 'd', '_', 'G', 'a', 'u', 'g', 'e', ' ', '/', '/', '\n'] = _
  iterate 4 rw [scanFrom_element (rfl : element? _ = some (_, _))]
  rw [scanFrom]
  rfl

theorem endsInLineComment_commentedName :
    endsInLineComment (fillTemplate commentedOptions.lookupTemplate "Gauge").toList = false := by
  rw [toList_commentedName]
  iterate 4 rw [endsInLineComment_element (rfl : element? _ = some (_, _))]
  rfl

theorem isIdentifier_commentedName :
    isIdentifier (fillTemplate commentedOptions.lookupTemplate "Gauge") := by
  rw [isIdentifier, scan?_commentedName]

/-- A template with a comment at its end that a line break closes. -/
theorem generate_declares_gauge : ∃ file tokens,
    GeneratedFile.generate commentedOptions {} [gauge] = .ok file ∧ file.verified = true
      ∧ scan? file.source = some tokens ∧ functionHead "find_Gauge" "Gauge" <:+: tokens := by
  have hplain : ∀ e ∈ [gauge], e.IsPlain := by
    intro e he
    rw [List.mem_singleton.1 he]
    exact ⟨by decide, by decide, by decide⟩
  have hname : ∀ e ∈ [gauge], ∀ name ∈ commentedOptions.lookupName? e.name,
      name = fillTemplate commentedOptions.lookupTemplate "Gauge" := by
    intro e he name hmem
    rw [List.mem_singleton.1 he] at hmem
    exact (Option.some.inj hmem).symm
  have hgenerate : GeneratedFile.generate commentedOptions {} [gauge]
      = .ok (.ofOutcomes {} (outcomes commentedOptions [gauge])) :=
    generate_eq_ok_iff.2 ⟨rfl, fun e he => validateType_of_isIdentifier fun name hmem => by
      rw [hname e he name hmem]
      exact isIdentifier_commentedName, rfl⟩
  obtain ⟨hverified, -, hdeclares⟩ := generate_declares hgenerate hplain (by decide) (by decide)
    fun e he name hmem => by
      rw [hname e he name hmem]
      exact ⟨by rw [toList_commentedName]; rfl, endsInLineComment_commentedName⟩
  obtain ⟨w, tokens, hw, htokens, hhead⟩ := hdeclares [] gauge [] rfl (by simp) (by decide)
    (by simp [gauge]) _ rfl
  have hident : identifier? (fillTemplate commentedOptions.lookupTemplate "Gauge")
      = some "find_Gauge" := by
    rw [identifier?, scan?_commentedName]
  have hfind : w = "find_Gauge" := Option.some.inj (hw.symm.trans hident)
  rw [hfind] at hhead
  exact ⟨_, tokens, hgenerate, hverified, htokens, hhead⟩

end EnumNames
