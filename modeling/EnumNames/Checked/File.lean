import EnumNames.Checked.Display
import EnumNames.Generated.File
import EnumNames.Manifest.Document
import EnumNames.Manifest.Resolve

/-!
# Checked files

The generation of a file by checked operations, type after type, from the bytes of a manifest to the
file with all errors recorded. What neither counts nor reads by place is taken over as it is: reading
and resolving the manifest, the guard, the code of lookup plans, and the syntax check.

* `Checked.layOut` lays steps out; the depth is a machine word.
* `Checked.generateType` and `Checked.generate` generate a type and a file.
* `Checked.run` is the whole.
-/

namespace EnumNames.Checked

open Layout

/-! ## Layout -/

/-- One block deeper. -/
def deeper (w : Writer) : Checked Writer :=
  return { w with depth := ← add w.depth 1 }

/-- Takes one step. -/
def applyStep (w : Writer) : Step → Checked Writer
  | .indent => deeper w
  | .openBlock head => deeper (w.line (head ++ " \x7b"))
  | .reopen joint => deeper (w.shallower.line joint)
  | step => return w.apply step

/-- The text of a list of steps. -/
def layOut (steps : List Step) : Checked String :=
  return (← steps.foldlM applyStep {}).text

/-! ## Types -/

/-- The member set of an enumeration. -/
def memberSet (e : Enumeration) : Checked (Except InputError MemberSet) := do
  match Kind.ofText? e.kind with
  | none => return .error (.unsupportedKind e.name e.kind)
  | some kind =>
    if e.constants.isEmpty then return .error (.noConstants e.name)
    else
      let declared := (← enumerate e.constants).map fun (constant, position) =>
        Member.mk position constant
      return .ok ⟨e.name, kind,
        keepFirst (fun kept later => kept.constant.bits == later.constant.bits)
          (declared.mergeSort fun a b => a.value ≤ b.value)⟩

/-- Generates the text of a type, and what is reported about it. -/
def generateType (o : Options) (e : Enumeration) :
    Checked (Except InputError (String × TypeReport)) := do
  match ← memberSet e with
  | .error err => return .error err
  | .ok set =>
    let plan ← Plan.select set.members o.runThreshold
    let displayItems ← plan.items e.name
    let lookup := (o.lookupName? e.name).map fun functionName =>
      (functionName, LookupPlan.select set.members o.lookupThresholds)
    let lookupItems := match lookup with
      | some (functionName, plan) => plan.items e.name functionName
      | none => []
    let text ← layOut (Code.itemsSteps (Guard.item e.constants :: displayItems ++ lookupItems))
    return .ok (text, ⟨e.name, true, some set.members.length, some plan.shape,
      lookup.map (·.2.shape)⟩)

/-! ## Files -/

/-- Adds types to a file, `seen` being the names that occurred before. -/
def addTypes (o : Options) (seen : List String) (file : GeneratedFile) :
    List Enumeration → Checked GeneratedFile
  | [] => return file
  | e :: rest => do
    if e.name ∈ seen then
      let notice : Diagnostic :=
        .warning .duplicateType (repeatedTypeMessage e.name) (some e.name)
      addTypes o (e.name :: seen) { file with diagnostics := file.diagnostics ++ [notice] } rest
    else
      match ← generateType o e with
      | .ok (text, report) =>
        addTypes o (e.name :: seen)
          { file with source := file.source ++ "\n" ++ text, types := file.types ++ [report] } rest
      | .error err => addTypes o (e.name :: seen) (file.record err) rest

/-- Notes whether the text passes the syntax check. -/
def verify (file : GeneratedFile) : GeneratedFile :=
  match syntaxFinding? file.source with
  | none => file
  | some finding =>
    { file with verified := false, diagnostics := file.diagnostics ++ [finding] }

/-- Generates the file of some types. -/
def generate (o : Options) (header : Header) (types : List Enumeration) :
    Checked (Except OptionsError GeneratedFile) := do
  match o.validate with
  | .error e => return .error e
  | .ok () =>
    match types.forM fun e => o.validateType e.name with
    | .error e => return .error e
    | .ok () => return .ok (verify (← addTypes o [] ⟨header.text, [], true, []⟩ types))

/-- Why there is no file for a manifest. -/
inductive NoFile
  | manifest (e : ManifestError)
  | options (e : OptionsError)

/-- Reads a manifest, resolves the requested types, generates the file, and records the errors. -/
def run (o : Options) (policy : NamingPolicy) (header : Header) (requested : List String)
    (bytes : List UInt8) : Checked (Except NoFile GeneratedFile) := do
  match Manifest.read bytes with
  | .error e => return .error (.manifest e)
  | .ok manifest =>
    let resolved := manifest.resolve requested policy
    match ← generate o header resolved.types with
    | .error e => return .error (.options e)
    | .ok file => return .ok (resolved.errors.foldl GeneratedFile.record file)

end EnumNames.Checked
