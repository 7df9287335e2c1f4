/-! Diagnostics quote a string between double quotes: `"` and `\` get a backslash, tab, carriage
return and line feed their short escapes, and a character that does not print (control
characters, spacing and format characters other than the plain space, private use) is written
`\u{hex}` with lower-case hex and no padding. A combining mark is escaped only when it opens
the text, where it would otherwise attach to the quote. Every other character stands as it
is; the single quote is not escaped.
-/

namespace Campaign

namespace Text

/-- Lower-case hexadecimal digits of a number, without padding. -/
def hexDigits (n : Nat) : String :=
  String.ofList (Nat.toDigits 16 n)

/-- Characters that do not print: control, spacing and format characters other than the
plain space, separators, private use and noncharacters. -/
def isUnprintable (c : Char) : Bool :=
  let n := c.toNat
  n < 0x20 || (0x7f ≤ n && n ≤ 0xa0) || n == 0xad || n == 0x061c || n == 0x180e ||
  n == 0x1680 || (0x2000 ≤ n && n ≤ 0x200f) || (0x2028 ≤ n && n ≤ 0x202f) ||
  (0x205f ≤ n && n ≤ 0x206f) || n == 0x3000 || n == 0xfeff ||
  (0xfff9 ≤ n && n ≤ 0xfffb) || n == 0xfffe || n == 0xffff ||
  (0xe000 ≤ n && n ≤ 0xf8ff) || 0xf0000 ≤ n

/-- Combining marks, escaped when they open a quoted text. -/
def isCombining (c : Char) : Bool :=
  let n := c.toNat
  (0x0300 ≤ n && n ≤ 0x036f) || (0x1ab0 ≤ n && n ≤ 0x1aff) || (0x1dc0 ≤ n && n ≤ 0x1dff) ||
  (0x20d0 ≤ n && n ≤ 0x20ff) || (0xfe20 ≤ n && n ≤ 0xfe2f)

/-- The escaped form of one character; `first` tells whether it opens the text. -/
def escapeChar (first : Bool) (c : Char) : String :=
  if c = '"' then "\\\""
  else if c = '\\' then "\\\\"
  else if c = '\n' then "\\n"
  else if c = '\r' then "\\r"
  else if c = '\t' then "\\t"
  else if isUnprintable c || (first && isCombining c) then
    "\\u" ++ "\x7b" ++ hexDigits c.toNat ++ "\x7d"
  else c.toString

/-- Append the escaped characters of a text to `acc`. -/
def escapeInto (acc : String) (first : Bool) : List Char → String
  | [] => acc
  | c :: rest => escapeInto (acc ++ escapeChar first c) false rest

/-- A text between double quotes, escaped for diagnostics. -/
def quoted (s : String) : String :=
  (escapeInto "\"" true s.toList).push '"'

end Text

end Campaign
