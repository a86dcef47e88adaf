import EnumNames.Json.Numeral
import EnumNames.Json.Text

/-!
# Values that nobody asks for

A value of any kind is passed with a list of the brackets that are still open, so that the depth of
a value has no bound.
-/

namespace EnumNames.Json

/-- A bracket that is open. -/
inductive Frame
  | list
  | record
  deriving DecidableEq, Repr

namespace Frame

/-- The character that closes the bracket. -/
def closing : Frame → Char
  | list => ']'
  | record => '\x7d'

/-- What is unfinished while the bracket is open. -/
def unfinished : Frame → Unfinished
  | list => .list
  | record => .record

/-- The breach of a value that nothing separates from the next. -/
def noSeparator : Frame → Breach
  | list => .noListSeparator
  | record => .noRecordSeparator

end Frame

/-- What stands at the front of a document. -/
inductive Front (s : List UInt8)
  /-- A value without parts, which has been passed. -/
  | passed (t : Taken Unit s)
  /-- A bracket, which has been passed. -/
  | opened (frame : Frame) (t : Taken Unit s)

/-- Passes a value without parts, or the bracket that opens another value. -/
def skipFront (s : List UInt8) : Except Error (Front s) :=
  match peek? s with
  | none => ended .value
  | some p =>
    match p.char with
    | 'n' => (passWord "ull".toList p.rest).map fun a => .passed (p.thenPass () a)
    | 't' => (passWord "rue".toList p.rest).map fun a => .passed (p.thenPass () a)
    | 'f' => (passWord "alse".toList p.rest).map fun a => .passed (p.thenPass () a)
    | '"' => (skipText p.rest).map fun t => .passed (p.andThen t)
    | '[' => .ok (.opened .list (p.only ()))
    | '\x7b' => .ok (.opened .record (p.only ()))
    | c =>
      if c = '-' ∨ c.isDigit then
        (skipNumber p.whole.rest).map fun t => .passed (p.whole.andThen t)
      else breach .noValue

/-- Passes a colon. -/
def passColon : Reader Unit := fun s =>
  match peek? s with
  | none => ended .record
  | some p => if p.char = ':' then .ok (p.only ()) else breach .noColon

/-- Passes a key and its colon. -/
def skipKey : Reader Unit := fun s =>
  match peek? s with
  | none => ended .record
  | some p =>
    if p.char = '"' then do
      let key ← skipText p.rest
      return p.andThen (key.andThen (← passColon key.rest))
    else breach .keyIsNoText

/-- Passes what stands before a value inside a bracket: in a record, a key. -/
def skipLead (frame : Frame) (s : List UInt8) : Except Error (After s) :=
  match frame with
  | .list => .ok (.nothing s)
  | .record => (skipKey s).map Taken.after

mutual

/-- Passes a value inside open brackets, and all that follows it up to the last closing bracket. -/
def skipIn (frames : List Frame) (s : List UInt8) : Except Error (Taken Unit s) :=
  match skipFront s with
  | .error e => .error e
  | .ok (.passed t) =>
    match skipAfter frames t.rest with
    | .error e => .error e
    | .ok u => .ok (t.thenPass u)
  | .ok (.opened frame t) =>
    match peek? t.rest with
    | none => ended frame.unfinished
    | some p =>
      if p.char = frame.closing then
        match skipAfter frames p.rest with
        | .error e => .error e
        | .ok u => .ok (t.andThen (p.thenPass () u))
      else
        match skipLead frame t.rest with
        | .error e => .error e
        | .ok lead =>
          match skipIn (frame :: frames) lead.rest with
          | .error e => .error e
          | .ok u => .ok (t.andThen (lead.andThen u))
termination_by s.length
decreasing_by
  · exact t.shorter
  · have := t.shorter; have := p.shorter; omega
  · have := t.shorter; have := lead.shorter; omega

/-- Passes what follows a value up to the last closing bracket. -/
def skipAfter (frames : List Frame) (s : List UInt8) : Except Error (After s) :=
  match frames with
  | [] => .ok (.nothing s)
  | frame :: outer =>
    match peek? s with
    | none => ended frame.unfinished
    | some p =>
      if p.char = frame.closing then
        match skipAfter outer p.rest with
        | .error e => .error e
        | .ok u => .ok (p.thenPass () u).after
      else if p.char = ',' then
        match skipLead frame p.rest with
        | .error e => .error e
        | .ok lead =>
          match skipIn (frame :: outer) lead.rest with
          | .error e => .error e
          | .ok u => .ok (p.andThen (lead.andThen u)).after
      else breach frame.noSeparator
termination_by s.length
decreasing_by
  · have := p.shorter; omega
  · have := p.shorter; have := lead.shorter; omega

end

/-- Passes a value of any kind. -/
def skipValue : Reader Unit :=
  skipIn []

end EnumNames.Json
