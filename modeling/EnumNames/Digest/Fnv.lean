/-!
# The 32-bit FNV-1a hash

Each byte is combined with the hash by exclusive or, and the result multiplied by a fixed prime,
modulo `2 ^ 32`.
-/

namespace EnumNames.Digest

/-- The hash of no bytes. -/
def fnvOffset : UInt32 := 2166136261

/-- The factor applied after every byte. -/
def fnvPrime : UInt32 := 16777619

/-- The hash after one more byte. -/
def fnvStep (hash : UInt32) (byte : UInt8) : UInt32 :=
  (hash ^^^ byte.toUInt32) * fnvPrime

/-- The hash of the bytes of a text. -/
def fnv1a (s : String) : UInt32 :=
  s.toUTF8.toList.foldl fnvStep fnvOffset

end EnumNames.Digest
