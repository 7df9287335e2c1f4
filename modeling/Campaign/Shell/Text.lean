import Campaign.Shell.State
import Campaign.Float.Notation

/-! The shell's own `echo`, `printf` and `test`, as the shell has them built in. `echo` joins its
arguments with blanks and reads backslash escapes; `printf` takes an argument per conversion,
counts a missing one as empty or zero, reports one that is not wholly a number and reuses its
format while arguments are left.
-/

namespace Campaign

namespace Shell

namespace Text

/-- The value of an octal digit. -/
def octal (c : Char) : Option Nat :=
  if '0' ≤ c && c ≤ '7' then some (c.toNat - '0'.toNat) else none

/-- Up to `n` octal digits at the start, with their value and what follows them. -/
def octalDigits : Nat → List Char → Nat → Nat × List Char
  | 0, cs, v => (v, cs)
  | n + 1, c :: rest, v =>
    match octal c with
    | some d => octalDigits n rest (v * 8 + d)
    | none => (v, c :: rest)
  | _ + 1, [], v => (v, [])

/-- The character of a simple escape letter. -/
def escapeChar : Char → Option Char
  | 'a' => some (Char.ofNat 7)
  | 'b' => some (Char.ofNat 8)
  | 'f' => some (Char.ofNat 12)
  | 'n' => some '\n'
  | 'r' => some '\r'
  | 't' => some '\t'
  | 'v' => some (Char.ofNat 11)
  | '\\' => some '\\'
  | _ => none

/-- Unescape at most `fuel` characters: octal codes follow `\0`, and may also follow `\`
directly when `bareOctal`; `\c` ends all output. -/
def unescapeFrom (bareOctal : Bool) : Nat → List Char → String → String × Bool
  | 0, _, acc => (acc, false)
  | _ + 1, [], acc => (acc, false)
  | _ + 1, '\\' :: 'c' :: _, acc => (acc, true)
  | fuel + 1, '\\' :: '0' :: rest, acc =>
    let (v, after) := octalDigits 3 rest 0
    unescapeFrom bareOctal fuel after (acc.push (Char.ofNat v))
  | fuel + 1, '\\' :: c :: rest, acc =>
    match escapeChar c with
    | some e => unescapeFrom bareOctal fuel rest (acc.push e)
    | none =>
      if bareOctal && (octal c).isSome then
        let (v, after) := octalDigits 3 (c :: rest) 0
        unescapeFrom bareOctal fuel after (acc.push (Char.ofNat v))
      else unescapeFrom bareOctal fuel rest ((acc.push '\\').push c)
  | fuel + 1, c :: rest, acc => unescapeFrom bareOctal fuel rest (acc.push c)

/-- The text of an argument of `echo` or `%b`, and whether `\c` ended all output. -/
def unescape (bareOctal : Bool) (cs : List Char) (acc : String) : String × Bool :=
  unescapeFrom bareOctal (cs.length + 1) cs acc

/-- The arguments of `echo` joined by blanks, and whether `\c` ended all output. -/
def echoText : List String → Bool → String → String × Bool
  | [], _, acc => (acc, false)
  | a :: rest, first, acc =>
    let (t, stop) := unescape false a.toList ""
    let acc := (if first then acc else acc ++ " ") ++ t
    if stop then (acc, true) else echoText rest false acc

/-- What `echo` writes for its arguments. -/
def echo (args : List String) : String :=
  let (newline, args) := match args with
    | "-n" :: rest => (false, rest)
    | _ => (true, args)
  let (text, stopped) := echoText args true ""
  if stopped || !newline then text else text ++ "\n"

/-- Why an argument is not a valid number: nothing of it, or only its beginning, was read. -/
def numberFault (read whole : Bool) : Option String :=
  if whole then none
  else if read then some "not completely converted"
  else some "expected numeric value"

/-- The code of the first byte of a character's encoding. -/
def firstByte (c : Char) : Nat :=
  match String.utf8EncodeChar c with
  | b :: _ => b.toNat
  | [] => 0

/-- A number written as `printf` reads it: a quote and a character, or blanks, a sign, then
decimal, `0x` hexadecimal or `0` octal digits. The value of the valid beginning, and why the
argument is not a valid number, if it is not. -/
def readNumber (s : String) : Int × Option String :=
  match s.toList with
  | q :: rest =>
    if q == '\'' || q == '"' then ((rest.head?.map firstByte).getD 0, none)
    else readSigned (q :: rest)
  | [] => (0, none)
where
  readSigned (cs : List Char) : Int × Option String :=
    let cs := cs.dropWhile (fun c => c == ' ' || c == '\t' || c == '\n')
    let (neg, body) := match cs with
      | '-' :: rest => (true, rest)
      | '+' :: rest => (false, rest)
      | _ => (false, cs)
    let (v, used) := readDigits body
    (if neg then -(v : Int) else v, numberFault (used > 0) (used > 0 && used == body.length))
  readDigits (cs : List Char) : Nat × Nat :=
    match cs with
    | '0' :: x :: rest =>
      if x == 'x' || x == 'X' then
        let ds := rest.takeWhile Char.isHexDigit
        if ds.isEmpty then (0, 1) else (ds.foldl (fun v d => v * 16 + hexValue d) 0, ds.length + 2)
      else
        let ds := (x :: rest).takeWhile (fun c => (octal c).isSome)
        (ds.foldl (fun v d => v * 8 + (octal d).getD 0) 0, ds.length + 1)
    | _ =>
      let ds := cs.takeWhile Char.isDigit
      (ds.foldl (fun v d => v * 10 + (d.toNat - '0'.toNat)) 0, ds.length)
  hexValue (c : Char) : Nat :=
    if c.isDigit then c.toNat - '0'.toNat
    else if 'a' ≤ c && c ≤ 'f' then c.toNat - 'a'.toNat + 10
    else c.toNat - 'A'.toNat + 10

/-- A number with a fraction written as `printf` reads it: a quote and a character, or a
decimal as the system reads one. Its value, and why the argument is not a valid number, if it
is not. -/
def readReal (s : String) : Binary64.Printed × Option String :=
  match s.toList with
  | q :: rest =>
    if q == '\'' || q == '"' then (.finite false ((rest.head?.map firstByte).getD 0) 1, none)
    else
      let (x, used, whole) := Binary64.readDecimal s
      (x, numberFault used whole)
  | [] => (.finite false 0 1, none)

/-- A conversion of `printf`: flags, width, precision and letter. -/
structure Conversion where
  flags : List Char
  width : Option Nat
  precision : Option Nat
  letter : Char

/-- Pad text to a width, on the left unless the `-` flag is given, with zeros when `zeros`. -/
def pad (c : Conversion) (zeros : Bool) (text : String) : String :=
  match c.width with
  | none => text
  | some w =>
    if text.length ≥ w then text
    else
      let fill := w - text.length
      if c.flags.contains '-' then text ++ String.ofList (List.replicate fill ' ')
      else if zeros && c.flags.contains '0' then
        match text.toList with
        | '-' :: rest => "-" ++ String.ofList (List.replicate fill '0') ++ String.ofList rest
        | _ => String.ofList (List.replicate fill '0') ++ text
      else String.ofList (List.replicate fill ' ') ++ text

/-- Digits of a number in a base, lower case. -/
def digitsIn (base n : Nat) : String := String.ofList (Nat.toDigits base n)

/-- The sign a conversion writes before a number. -/
def signOf (c : Conversion) (neg : Bool) : String :=
  if neg then "-" else if c.flags.contains '+' then "+"
  else if c.flags.contains ' ' then " " else ""

/-- A number with a fraction as a conversion writes it: fixed (`%f`), scientific (`%e`) or
general (`%g`) notation, six digits unless a precision is given, in capitals for a capital
letter. -/
def realText (c : Conversion) (x : Binary64.Printed) : String :=
  let upper := c.letter.isUpper
  let prec := c.precision.getD 6
  let alt := c.flags.contains '#'
  match x with
  | .notANumber neg => signOf c neg ++ (if upper then "NAN" else "nan")
  | .infinite neg => signOf c neg ++ (if upper then "INF" else "inf")
  | .finite neg num den =>
    signOf c neg ++ match c.letter.toLower with
      | 'e' => Binary64.scientificText num den prec alt upper
      | 'g' => Binary64.generalText num den prec alt upper
      | _ => Binary64.fixedText num den prec alt

/-- The text of one conversion applied to an argument, why the argument is not the number
the conversion needs, if it is not, and whether `\c` ended all output. -/
def convert (c : Conversion) (arg : Option String) : String × Option String × Bool :=
  let a := arg.getD ""
  match c.letter with
  | 's' =>
    let t := match c.precision with
      | some p => String.ofList (a.toList.take p)
      | none => a
    (pad c false t, none, false)
  | 'b' =>
    let (t, stop) := unescape false a.toList ""
    (pad c false t, none, stop)
  | 'c' => (pad c false (String.ofList (a.toList.take 1)), none, false)
  | 'f' | 'F' | 'e' | 'E' | 'g' | 'G' =>
    let (x, fault) := readReal a
    let finite := match x with
      | .finite _ _ _ => true
      | _ => false
    (pad c finite (realText c x), fault, false)
  | letter =>
    let (v, fault) := readNumber a
    let body := match letter with
      | 'o' => digitsIn 8 v.toNat
      | 'x' => digitsIn 16 v.toNat
      | 'X' => (digitsIn 16 v.toNat).toUpper
      | 'u' => toString v.toNat
      | _ => signOf c (v < 0) ++ toString v.natAbs
    (pad c true body, fault, false)

/-- Read the flags, width, precision and letter of a conversion after its `%`. -/
def conversionOf (cs : List Char) : Option (Conversion × List Char) :=
  let flags := cs.takeWhile (fun c => c == '-' || c == '+' || c == ' ' || c == '#' || c == '0')
  let cs := cs.drop flags.length
  let wd := cs.takeWhile Char.isDigit
  let cs := cs.drop wd.length
  let (precision, cs) := match cs with
    | '.' :: rest =>
      let pd := rest.takeWhile Char.isDigit
      (some (String.ofList pd).toNat!, rest.drop pd.length)
    | _ => (none, cs)
  match cs with
  | l :: rest =>
    if "sbcdiouxXfFeEgG".toList.contains l then
      some (⟨flags, if wd.isEmpty then none else some (String.ofList wd).toNat!, precision, l⟩,
        rest)
    else none
  | [] => none

/-- One pass of a format over arguments: the text, the arguments left, whether the format
converts anything, what was wrong with the arguments that were not valid numbers, and whether
output ended. -/
def formatOnce : Nat → List Char → List String → String → Bool → List String →
    String × List String × Bool × List String × Bool
  | 0, _, args, acc, used, bad => (acc, args, used, bad, false)
  | _ + 1, [], args, acc, used, bad => (acc, args, used, bad, false)
  | fuel + 1, '\\' :: rest, args, acc, used, bad =>
    match rest with
    | 'c' :: _ => (acc, args, used, bad, true)
    | '"' :: more => formatOnce fuel more args (acc.push '"') used bad
    | c :: more =>
      match escapeChar c with
      | some e => formatOnce fuel more args (acc.push e) used bad
      | none =>
        if (octal c).isSome then
          let (v, after) := octalDigits 3 (c :: more) 0
          formatOnce fuel after args (acc.push (Char.ofNat v)) used bad
        else formatOnce fuel more args ((acc.push '\\').push c) used bad
    | [] => formatOnce fuel [] args (acc.push '\\') used bad
  | fuel + 1, '%' :: '%' :: rest, args, acc, used, bad =>
    formatOnce fuel rest args (acc.push '%') used bad
  | fuel + 1, '%' :: rest, args, acc, used, bad =>
    match conversionOf rest with
    | some (c, after) =>
      let (text, fault, stop) := convert c args.head?
      let bad := match fault with
        | some m => bad ++ [args.head?.getD "" ++ ": " ++ m]
        | none => bad
      if stop then (acc ++ text, args.tail, true, bad, true)
      else formatOnce fuel after args.tail (acc ++ text) true bad
    | none => formatOnce fuel rest args (acc.push '%') used bad
  | fuel + 1, c :: rest, args, acc, used, bad => formatOnce fuel rest args (acc.push c) used bad

/-- What `printf` writes, and what was wrong with the arguments that were not valid numbers. The format is used
again while arguments are left, at most once per argument. -/
def printf (format : String) (args : List String) : String × List String :=
  let fuel := format.length + 1
  let rec go : Nat → List String → String → List String → String × List String
    | 0, _, acc, bad => (acc, bad)
    | n + 1, args, acc, bad =>
      let (text, rest, used, bad, stop) := formatOnce fuel format.toList args "" false bad
      if stop || !used || rest.isEmpty then (acc ++ text, bad)
      else go n rest (acc ++ text) bad
  go (args.length + 1) args "" []

end Text

end Shell

end Campaign
