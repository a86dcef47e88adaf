import EnumNames.Display.Plan
import EnumNames.Error
import EnumNames.Lookup.Plan

/-!
# Events

What a run has to tell while it works, apart from its results. An event has a level; a log shows the
events of a level and of all graver ones.
-/

namespace EnumNames

/-- How much an event matters. -/
inductive LogLevel
  | debug
  | info
  | warn
  deriving DecidableEq, Repr, Inhabited

namespace LogLevel

/-- The word for a level in log lines. -/
def name : LogLevel → String
  | debug => "DEBUG"
  | info => "INFO"
  | warn => "WARN"

/-- The rank of a level; graver levels have higher ranks. -/
def rank : LogLevel → Nat
  | debug => 0
  | info => 1
  | warn => 2

end LogLevel

/-- Something that happens while a file is generated. -/
inductive Event
  /-- The shape of the display code of a type is settled. -/
  | displayShape (typeName : String) (size : Nat) (shape : DisplayShape)
  /-- The shape of the lookup code of a type is settled. -/
  | lookupShape (typeName functionName : String) (shape : LookupShape)
  /-- A type is left out because its name occurred before. -/
  | repeatedType (typeName : String)
  /-- A type, or a request for types, is refused. -/
  | refused (e : InputError)
  /-- The file is not well-formed. -/
  | invalidFile (message : String)
  deriving DecidableEq, Repr

/-- The notice about a type that is left out because its name occurred before. -/
def repeatedTypeMessage (typeName : String) : String :=
  "type " ++ typeName ++ " repeated; keeping its first occurrence"

namespace Event

/-- How much an event matters. -/
def level : Event → LogLevel
  | displayShape _ _ _ | lookupShape _ _ _ => .debug
  | repeatedType _ | refused _ | invalidFile _ => .warn

/-- The messages of an event. -/
def messages : Event → List String
  | displayShape _ _ _ => ["forward code shape"]
  | lookupShape _ _ _ => ["reverse lookup code shape"]
  | repeatedType typeName => [repeatedTypeMessage typeName]
  | refused e => [e.message]
  | invalidFile message =>
    ["warning: internal error: " ++ message,
      "warning: compile the generated file to analyze the error"]

/-- What an event is about, by name. -/
def fields : Event → List (String × String)
  | displayShape typeName size shape =>
    [("type_name", typeName), ("values", toString size), ("strategy", shape.logName)]
  | lookupShape typeName functionName shape =>
    [("type_name", typeName), ("function", functionName), ("strategy", shape.logName)]
  | _ => []

end Event

end EnumNames
