import Campaign.Json.Value
import Campaign.Float.Shortest
import Campaign.Text.Quoted

/-! A fault is either a syntax fault of the text, always at a position, or a mismatch between a
value and the shape a record expects, positioned when it comes from text and unpositioned when
it comes from an already parsed value. `Fault.message` gives the one wording of each: the
mismatch names what was found (`integer `3``, `string "x"`, `sequence`, …) and what was
expected, and a positioned fault ends with ` at line L column C`, where `C` counts the bytes
read on line `L`.
-/

namespace Campaign

/-- A place in a text: the line, from `1`, and the bytes read on it. -/
structure Position where
  line : Nat
  column : Nat
  deriving DecidableEq, Repr, Inhabited

/-- Syntax faults of JSON text. -/
inductive SyntaxCode where
  | eofWhileParsingList
  | eofWhileParsingObject
  | eofWhileParsingString
  | eofWhileParsingValue
  | expectedColon
  | expectedListCommaOrEnd
  | expectedObjectCommaOrEnd
  | expectedSomeIdent
  | expectedSomeValue
  | invalidEscape
  | invalidNumber
  | numberOutOfRange
  | invalidUnicodeCodePoint
  | controlCharacterWhileParsingString
  | keyMustBeAString
  | expectedNumericKey
  | expectedDoubleQuote
  | loneLeadingSurrogateInHexEscape
  | trailingComma
  | trailingCharacters
  | unexpectedEndOfHexEscape
  | recursionLimitExceeded
  deriving DecidableEq, Repr

/-- The wording of a syntax fault. -/
def SyntaxCode.message : SyntaxCode → String
  | .eofWhileParsingList => "EOF while parsing a list"
  | .eofWhileParsingObject => "EOF while parsing an object"
  | .eofWhileParsingString => "EOF while parsing a string"
  | .eofWhileParsingValue => "EOF while parsing a value"
  | .expectedColon => "expected `:`"
  | .expectedListCommaOrEnd => "expected `,` or `]`"
  | .expectedObjectCommaOrEnd => "expected `,` or `\x7d`"
  | .expectedSomeIdent => "expected ident"
  | .expectedSomeValue => "expected value"
  | .invalidEscape => "invalid escape"
  | .invalidNumber => "invalid number"
  | .numberOutOfRange => "number out of range"
  | .invalidUnicodeCodePoint => "invalid unicode code point"
  | .controlCharacterWhileParsingString =>
    "control character (\\u0000-\\u001F) found while parsing a string"
  | .keyMustBeAString => "key must be a string"
  | .expectedNumericKey => "invalid value: expected key to be a number in quotes"
  | .expectedDoubleQuote => "expected `\"`"
  | .loneLeadingSurrogateInHexEscape => "lone leading surrogate in hex escape"
  | .trailingComma => "trailing comma"
  | .trailingCharacters => "trailing characters"
  | .unexpectedEndOfHexEscape => "unexpected end of hex escape"
  | .recursionLimitExceeded => "recursion limit exceeded"

/-- What a reader found where it expected something else. -/
inductive Unexpected where
  | bool (b : Bool)
  | unsigned (n : Nat)
  | signed (i : Int)
  | float (f : Binary64)
  | str (s : String)
  | unit
  | seq
  | map
  deriving DecidableEq, Repr

/-- The wording of what was found. -/
def Unexpected.describe : Unexpected → String
  | .bool b => "boolean `" ++ (if b then "true" else "false") ++ "`"
  | .unsigned n => "integer `" ++ toString n ++ "`"
  | .signed i => "integer `" ++ toString i ++ "`"
  | .float f => "floating point `" ++ f.render ++ "`"
  | .str s => "string " ++ Text.quoted s
  | .unit => "null"
  | .seq => "sequence"
  | .map => "map"

/-- What was found, for a parsed number. -/
def Unexpected.ofNumber : Number → Unexpected
  | .uint n => .unsigned n
  | .sint i => .signed i
  | .float f => .float f

/-- What was found, for a parsed value. -/
def Unexpected.ofJson : Json → Unexpected
  | .null => .unit
  | .bool b => .bool b
  | .number n => .ofNumber n
  | .string s => .str s
  | .array _ => .seq
  | .object _ => .map

/-- Why a value does not fit. -/
inductive Mismatch where
  | invalidType (found : Unexpected) (expected : String)
  | invalidValue (found : Unexpected) (expected : String)
  | invalidLength (length : Nat) (expected : String)
  | unknownVariant (name : String) (variants : List String)
  | missingField (name : String)
  | duplicateField (name : String)
  deriving DecidableEq, Repr

/-- The list of variant names as the wording of what was expected. -/
def oneOf : List String → String
  | [] => "there are no variants"
  | [a] => "`" ++ a ++ "`"
  | [a, b] => "`" ++ a ++ "` or `" ++ b ++ "`"
  | names => "one of " ++ ", ".intercalate (names.map fun n => "`" ++ n ++ "`")

/-- The wording of a mismatch. -/
def Mismatch.message : Mismatch → String
  | .invalidType u e => "invalid type: " ++ u.describe ++ ", expected " ++ e
  | .invalidValue u e => "invalid value: " ++ u.describe ++ ", expected " ++ e
  | .invalidLength n e => "invalid length " ++ toString n ++ ", expected " ++ e
  | .unknownVariant n vs => "unknown variant `" ++ n ++ "`, expected " ++ oneOf vs
  | .missingField n => "missing field `" ++ n ++ "`"
  | .duplicateField n => "duplicate field `" ++ n ++ "`"

/-- A fault of reading JSON. -/
inductive Fault where
  | malformed (code : SyntaxCode) (at_ : Position)
  | mismatch (m : Mismatch) (at_ : Option Position)
  deriving DecidableEq, Repr

/-- The wording of a fault, with its position when it has one. -/
def Fault.message : Fault → String
  | .malformed code p =>
    code.message ++ " at line " ++ toString p.line ++ " column " ++ toString p.column
  | .mismatch m none => m.message
  | .mismatch m (some p) =>
    m.message ++ " at line " ++ toString p.line ++ " column " ++ toString p.column

/-- Give a position to a fault that has none. -/
def Fault.placeAt (p : Position) : Fault → Fault
  | .mismatch m none => .mismatch m (some p)
  | f => f

end Campaign
