import EnumNames.Json.Skip

/-!
# Readers of values

Readers of texts, truth values, numbers, lists, pairs and words of a choice. A reader that meets a
value of another type says what it met and what it expected.
-/

namespace EnumNames.Json

/-- What stands at the front of a document: texts and numbers are read whole, of a list or a record
only the bracket. -/
def lookAt (s : List UInt8) : Except Error Found :=
  match peek? s with
  | none => ended .value
  | some p =>
    match p.char with
    | 'n' => (passWord "ull".toList p.rest).map fun _ => .null
    | 't' => (passWord "rue".toList p.rest).map fun _ => .bool true
    | 'f' => (passWord "alse".toList p.rest).map fun _ => .bool false
    | '"' => (readText p.rest).map fun t => .text t.value
    | '[' => .ok .list
    | '\x7b' => .ok .record
    | c =>
      if c = '-' ∨ c.isDigit then (readNumber p.whole.rest).map fun t => .number t.value
      else breach .noValue

/-- Refuses the value at the front of a document. -/
def refuse {α : Type} (expected : String) (s : List UInt8) : Except Error α := do
  .error (.invalidType (← lookAt s) expected)

namespace Reader

/-! ## Values without parts -/

/-- Reads a text. -/
def text (expected : String) : Reader String := fun s =>
  match peek? s with
  | none => ended .value
  | some p =>
    if p.char = '"' then (readText p.rest).map p.andThen
    else refuse expected s

/-- Reads a truth value. -/
def bool : Reader Bool := fun s =>
  match peek? s with
  | none => ended .value
  | some p =>
    match p.char with
    | 't' => (passWord "rue".toList p.rest).map (p.thenPass true)
    | 'f' => (passWord "alse".toList p.rest).map (p.thenPass false)
    | _ => refuse "a boolean" s

/-- Reads a number. -/
def number (expected : String) : Reader Number := fun s =>
  match peek? s with
  | none => ended .value
  | some p =>
    if p.char = '-' ∨ p.char.isDigit then
      (readNumber p.whole.rest).map p.whole.andThen
    else refuse expected s

/-- Reads a natural number. -/
def natural (expected : String) : Reader Nat := fun s => do
  let t ← number expected s
  match t.value with
  | .integer (.ofNat n) => return t.map fun _ => n
  | .integer (.negSucc _) => .error (.invalidValue (.number t.value) expected)
  | .float _ => .error (.invalidType (.number t.value) expected)

/-- Reads a value that may be null. -/
def nullable {α : Type} (read : Reader α) : Reader (Option α) := fun s =>
  match peek? s with
  | none => ended .value
  | some p =>
    if p.char = 'n' then (passWord "ull".toList p.rest).map (p.thenPass none)
    else (read s).map (·.map some)

/-! ## Lists -/

/-- Moves to the next element of a list; there is none if the closing bracket comes first. -/
def nextElement (isFirst : Bool) (s : List UInt8) : Except Error (Option (After s)) :=
  match peek? s with
  | none => ended .list
  | some p =>
    if p.char = ']' then .ok none
    else if isFirst then .ok (some p.whole)
    else if p.char = ',' then
      match peek? p.rest with
      | none => ended .value
      | some q =>
        if q.char = ']' then breach .trailingComma
        else .ok (some (p.after.thenPass q.whole))
    else breach .noListSeparator

/-- Reads the closing bracket of a list that has all its elements. -/
def listEnd {α : Type} (value : α) : Reader α := fun s =>
  match peek? s with
  | none => ended .list
  | some p =>
    if p.char = ']' then .ok (p.only value)
    else if p.char = ',' then
      match peek? p.rest with
      | some q => if q.char = ']' then breach .trailingComma else breach .trailingCharacters
      | none => breach .trailingCharacters
    else breach .trailingCharacters

/-- Reads the elements of a list and its closing bracket, after the elements `before`, the last one
first. -/
def elements {α : Type} (read : Reader α) (before : List α) : Reader (List α) := fun s =>
  match nextElement before.isEmpty s with
  | .error e => .error e
  | .ok none => listEnd before.reverse s
  | .ok (some next) =>
    match read next.rest with
    | .error e => .error e
    | .ok t =>
      match elements read (t.value :: before) t.rest with
      | .error e => .error e
      | .ok u => .ok (next.andThen (t.andThen u))
termination_by s => s.length
decreasing_by have := next.shorter; have := t.shorter; omega

/-- Reads a list; what stands in the brackets is read by `inside`. -/
def bracketed {α : Type} (expected : String) (inside : Reader α) : Reader α := fun s =>
  match peek? s with
  | none => ended .value
  | some p =>
    if p.char = '[' then (inside p.rest).map p.andThen
    else refuse expected s

/-- Reads a list of any length. -/
def list {α : Type} (read : Reader α) : Reader (List α) :=
  bracketed "a sequence" (elements read [])

/-- Reads one element of a list of fixed length, `count` elements having come before. -/
def element {α : Type} (read : Reader α) (expected : String) (count : Nat) : Reader α := fun s => do
  match ← nextElement (count == 0) s with
  | none => .error (.invalidLength count expected)
  | some next => return next.andThen (← read next.rest)

/-- Reads a list of two elements. -/
def pair {α β : Type} (readFirst : Reader α) (readSecond : Reader β) : Reader (α × β) :=
  let expected := "a tuple of size 2"
  bracketed expected fun s => do
    let a ← element readFirst expected 0 s
    let b ← element readSecond expected 1 a.rest
    return a.andThen (b.andThen (← listEnd (a.value, b.value) b.rest))

/-! ## Choices -/

/-- Reads null. -/
def null (expected : String) : Reader Unit := fun s =>
  match peek? s with
  | none => ended .value
  | some p =>
    if p.char = 'n' then (passWord "ull".toList p.rest).map (p.thenPass ())
    else refuse expected s

/-- The closing bracket of a record that holds a single word. -/
def wordEnd {α : Type} (value : α) : Reader α := fun s =>
  match peek? s with
  | none => ended .record
  | some p => if p.char = '\x7d' then .ok (p.only value) else breach .noValue

/-- Reads the word of a choice. -/
def choiceWord {α : Type} (all : List α) (name : α → String) : Reader α := fun s => do
  let t ← text "variant identifier" s
  match all.find? (name · == t.value) with
  | some a => return t.map fun _ => a
  | none => .error (.unknownChoice t.value (all.map name))

/-- Reads the word of a choice that is the key of a record. -/
def choiceKey {α : Type} (all : List α) (name : α → String) : Reader α := fun s =>
  match peek? s with
  | none => ended .value
  | some p =>
    if p.char = '"' then choiceWord all name s
    else if p.char = '\x7d' then breach .noValue
    else breach .keyIsNoText

/-- Reads one of some choices: its word, or a record in which its word leads to null. -/
def choice {α : Type} (all : List α) (name : α → String) : Reader α := fun s =>
  match peek? s with
  | none => ended .value
  | some p =>
    if p.char = '"' then choiceWord all name s
    else if p.char = '\x7b' then do
      let word ← choiceKey all name p.rest
      let colon ← passColon word.rest
      let value ← null "unit" colon.rest
      let last ← wordEnd word.value value.rest
      return p.andThen (word.andThen (colon.andThen (value.andThen last)))
    else breach .noValue

end Reader

end EnumNames.Json
