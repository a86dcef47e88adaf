import EnumNames.Code.Basic

/-!
# Names in emitted code

Emitted code stands in the module of its type, among the constants that it refers to. A path of one
name leads to such a constant unless something nearer has that name, and the few names that the code
takes from the language have to mean there what the language means by them.

* `Item.variables`: the names of the variables in the function that an item holds.
* `areApart`: whether the names of the module, of the code and of the language are different.
-/

namespace EnumNames

/-- An identifier without the mark of raw ones. -/
def unmarked (name : String) : String :=
  match name.toList with
  | 'r' :: '#' :: cs => String.ofList cs
  | _ => name

namespace Code

/-! ## Variables -/

mutual

/-- The variables that a statement introduces, in its blocks, too. -/
def Stmt.variables : Stmt → List String
  | .bind x _ | .bindVar x _ _ => [x]
  | .bindVars x y _ _ => [x, y]
  | .choose x branches other => x :: (branchVariables branches ++ blockVariables other)
  | .select x _ _ y _ => [x, y]
  | .when _ body | .loop _ body => blockVariables body
  | .eachByte x _ body => x :: blockVariables body
  | .switch _ arms => armVariables arms
  | .comment _ | .blank | .assign _ _ | .mix _ _ | .order _ _ _ _ _ | .mapLookup _ _ _ | .ret _
  | .result _ => []

/-- The variables that statements in a row introduce. -/
def blockVariables : List Stmt → List String
  | [] => []
  | s :: rest => s.variables ++ blockVariables rest

/-- The variables in the blocks of conditions. -/
def branchVariables : List (Expr × List Stmt) → List String
  | [] => []
  | (_, body) :: rest => blockVariables body ++ branchVariables rest

/-- The variables in the blocks of numbered arms. -/
def armVariables : List (UInt32 × List Stmt) → List String
  | [] => []
  | (_, body) :: rest => blockVariables body ++ armVariables rest

end

/-- The variables of the function that an item holds, its parameter first. -/
def Item.variables : Item → List String
  | display _ body => "f" :: blockVariables body
  | lookup _ _ body => "name" :: blockVariables body
  | _ => []

/-! ## Names apart -/

/-- The values that emitted code takes from the language. -/
def languageValues : List String :=
  ["None", "Some"]

/-- The types that emitted code takes from the language. -/
def languageTypes : List String :=
  ["Option", "str", "u8", "u16", "u32", "usize"]

/-- Whether items can stand in the module that declares a type and some constants. No variable is
called like the type, whose name is also that of its constructor, or like a constant: in a pattern,
these names stand for what they name. No item is called like them or like another item, since in a
module no two things have the same name. What the code takes from the language keeps its name for
itself. -/
def areApart (typeName : String) (constants : List String) (items : List Item) : Bool :=
  let given := typeName :: constants
  let names := (items.filterMap Item.name?).map unmarked
  (items.flatMap Item.variables ++ languageValues).all (fun x => x ∉ given)
    && names.all (fun x => x ∉ given ++ languageValues) && decide names.Nodup
    && typeName ∉ languageTypes

end Code

end EnumNames
