import Campaign.Json.Value
import Campaign.Float.Shortest

/-! `Json.compact` writes a value with no blanks: members in the order the value holds them,
numbers in their class (`Binary64.render` for floats), and strings quoted with `\"`, `\\`,
the short escapes `\b \f \n \r \t`, and `\u00XX` (lower-case hex) for the other control
characters. Every other character, non-ASCII included, is written as it is.
-/

namespace Campaign

/-- The text of a number. -/
def Number.render : Number → String
  | .uint n => toString n
  | .sint i => toString i
  | .float f => f.render

namespace Json

/-- Lower-case hexadecimal digit. -/
def hexDigit (n : Nat) : Char :=
  if n < 10 then Char.ofNat ('0'.toNat + n) else Char.ofNat ('a'.toNat + n - 10)

/-- The escaped form of one character inside a JSON string. -/
def escapeChar (c : Char) : List Char :=
  if c = '"' then ['\\', '"']
  else if c = '\\' then ['\\', '\\']
  else if c = '\n' then ['\\', 'n']
  else if c = '\r' then ['\\', 'r']
  else if c = '\t' then ['\\', 't']
  else if c.toNat = 8 then ['\\', 'b']
  else if c.toNat = 12 then ['\\', 'f']
  else if c.toNat < 32 then
    ['\\', 'u', '0', '0', hexDigit (c.toNat / 16), hexDigit (c.toNat % 16)]
  else [c]

/-- A string as a quoted JSON string. -/
def quote (s : String) : String :=
  String.ofList ('"' :: (s.toList.flatMap escapeChar ++ ['"']))

mutual
/-- Append the compact JSON text of a value to `acc`. -/
def writeTo (acc : String) : Json → String
  | .null => acc ++ "null"
  | .bool true => acc ++ "true"
  | .bool false => acc ++ "false"
  | .number n => acc ++ Number.render n
  | .string s => acc ++ quote s
  | .array items => (writeItems (acc.push '[') true items).push ']'
  | .object ms => (writeMembers (acc.push '{') true ms).push '}'

/-- Append comma-separated items. -/
def writeItems (acc : String) (first : Bool) : List Json → String
  | [] => acc
  | j :: rest => writeItems (writeTo (if first then acc else acc.push ',') j) false rest

/-- Append comma-separated members. -/
def writeMembers (acc : String) (first : Bool) : List (String × Json) → String
  | [] => acc
  | (k, v) :: rest =>
    let acc := if first then acc else acc.push ','
    writeMembers (writeTo ((acc ++ quote k).push ':') v) false rest
end

/-- Compact JSON text of a value. -/
def compact (j : Json) : String := writeTo "" j

/-- A line break followed by two blanks per level. -/
def newline (acc : String) (level : Nat) : String :=
  (acc.push '\n').pushn ' ' (2 * level)

mutual
/-- Append the indented JSON text of a value, nested `level` deep, to `acc`. -/
def prettyTo (acc : String) (level : Nat) : Json → String
  | .array [] => acc ++ "[]"
  | .object [] => acc ++ "\x7b\x7d"
  | .array items => (newline (prettyItems (acc.push '[') level true items) level).push ']'
  | .object ms => (newline (prettyMembers (acc.push '{') level true ms) level).push '}'
  | j => writeTo acc j

/-- Append items, one per line. -/
def prettyItems (acc : String) (level : Nat) (first : Bool) : List Json → String
  | [] => acc
  | j :: rest =>
    let acc := newline (if first then acc else acc.push ',') (level + 1)
    prettyItems (prettyTo acc (level + 1) j) level false rest

/-- Append members, one per line. -/
def prettyMembers (acc : String) (level : Nat) (first : Bool) : List (String × Json) → String
  | [] => acc
  | (k, v) :: rest =>
    let acc := newline (if first then acc else acc.push ',') (level + 1)
    prettyMembers (prettyTo (acc ++ quote k ++ ": ") (level + 1) v) level false rest
end

/-- Indented JSON text of a value: one item or member per line, two blanks per level. -/
def pretty (j : Json) : String := prettyTo "" 0 j

end Json

end Campaign
