import Campaign.Shell.Syntax

/-! The lexer splits a script into words, operators, redirection operators and line ends, with the
shell's quoting: single quotes keep everything, double quotes all but parameters, command output
and some backslashes, and a bare backslash keeps the next character. Each step consumes at least
one character, so a fuel of the script's length suffices.
-/

namespace Campaign

namespace Shell

/-- A token of a command line, with the line it starts on. -/
inductive Token where
  | word (w : Word) (line : Nat)
  /-- `&&`, `||`, `;`, `;;`, `&`, `|`, `(` or `)`. -/
  | op (text : String) (line : Nat)
  /-- A redirection operator with its descriptor, when given. -/
  | redir (fd : Option Nat) (text : String) (line : Nat)
  | newline (line : Nat)
  deriving Repr, Inhabited

namespace Lexer

/-- Characters that end a bare word. -/
def endsWord (c : Char) : Bool :=
  c == ' ' || c == '\t' || c == '\n' || c == ';' || c == '&' || c == '|' || c == '<' ||
    c == '>' || c == '(' || c == ')'

/-- Characters of a name. -/
def isNameChar (c : Char) : Bool := c.isAlphanum || c == '_'

/-- Characters that may start a name. -/
def isNameStart (c : Char) : Bool := c.isAlpha || c == '_'

/-- Parameters named by one special character. -/
def isSpecial (c : Char) : Bool :=
  c == '$' || c == '?' || c == '#' || c == '@' || c == '*' || c == '!' || c == '-'

/-- Text up to the closing single quote, and what follows it. -/
def singleQuoted : List Char → String → Option (String × List Char)
  | [], _ => none
  | '\'' :: rest, acc => some (acc, rest)
  | c :: rest, acc => singleQuoted rest (acc.push c)

/-- How the source of a command substitution is being read. -/
inductive Mode where
  | plain
  | single
  | double
  | escaped (inDouble : Bool)

/-- The source of `$( … )` up to its matching `)`, and what follows it. Quotes and escapes
inside keep their parentheses from counting. -/
def balanced : List Char → Nat → Mode → String → Option (String × List Char)
  | [], _, _, _ => none
  | c :: rest, depth, mode, acc =>
    match mode with
    | .single => balanced rest depth (if c == '\'' then .plain else .single) (acc.push c)
    | .escaped inDouble =>
      balanced rest depth (if inDouble then .double else .plain) (acc.push c)
    | .double =>
      if c == '"' then balanced rest depth .plain (acc.push c)
      else if c == '\\' then balanced rest depth (.escaped true) (acc.push c)
      else balanced rest depth .double (acc.push c)
    | .plain =>
      if c == ')' then
        if depth == 0 then some (acc, rest) else balanced rest (depth - 1) .plain (acc.push c)
      else if c == '(' then balanced rest (depth + 1) .plain (acc.push c)
      else if c == '\'' then balanced rest depth .single (acc.push c)
      else if c == '"' then balanced rest depth .double (acc.push c)
      else if c == '\\' then balanced rest depth (.escaped false) (acc.push c)
      else balanced rest depth .plain (acc.push c)

/-- The source between backquotes, with `\$`, `` \` `` and `\\` unescaped. -/
def backquoted : List Char → String → Option (String × List Char)
  | [], _ => none
  | '`' :: rest, acc => some (acc, rest)
  | '\\' :: c :: rest, acc =>
    if c == '$' || c == '`' || c == '\\' then backquoted rest (acc.push c)
    else backquoted rest ((acc.push '\\').push c)
  | c :: rest, acc => backquoted rest (acc.push c)

/-- The text up to the closing brace of `${ … }`, and what follows it; braces of parameters
inside nest. -/
def braced : List Char → Nat → String → Option (String × List Char)
  | [], _, _ => none
  | '}' :: rest, 0, acc => some (acc, rest)
  | '}' :: rest, depth + 1, acc => braced rest depth (acc.push '}')
  | '$' :: '{' :: rest, depth, acc => braced rest (depth + 1) (acc ++ "$\x7b")
  | c :: rest, depth, acc => braced rest depth (acc.push c)

/-- The operation written after a parameter's name inside `${ … }`. -/
def paramOp : List Char → Option ParamOp
  | [] => some .value
  | ':' :: '-' :: w => some (.orElse true (String.ofList w))
  | ':' :: '=' :: w => some (.assign true (String.ofList w))
  | ':' :: '+' :: w => some (.alternate true (String.ofList w))
  | ':' :: '?' :: w => some (.require true (String.ofList w))
  | '-' :: w => some (.orElse false (String.ofList w))
  | '=' :: w => some (.assign false (String.ofList w))
  | '+' :: w => some (.alternate false (String.ofList w))
  | '?' :: w => some (.require false (String.ofList w))
  | '#' :: '#' :: w => some (.dropPrefix true (String.ofList w))
  | '#' :: w => some (.dropPrefix false (String.ofList w))
  | '%' :: '%' :: w => some (.dropSuffix true (String.ofList w))
  | '%' :: w => some (.dropSuffix false (String.ofList w))
  | _ => none

/-- The parameter written inside `${ … }`. -/
def bracedPiece (text : String) (inQuotes : Bool) : Option Piece :=
  let cs := text.toList
  match cs with
  | '#' :: name@(_ :: _) =>
    if name.all isNameChar then some (.length (String.ofList name)) else none
  | _ =>
    let name := cs.takeWhile isNameChar
    let name := if name.isEmpty then cs.take 1 else name
    let rest := cs.drop name.length
    if name.isEmpty then none
    else (paramOp rest).map fun op => .param (String.ofList name) op inQuotes

/-- Why a script cannot be read. -/
inductive Fault where
  | unterminatedQuote
  | missingParen
  | badSubstitution
  | unsupported (what : String)
  deriving DecidableEq, Repr

/-- The piece after a `$`, and what follows it; a `$` that starts nothing is literal. -/
def dollar (cs : List Char) (inQuotes : Bool) : Except Fault (Piece × List Char) :=
  let lit := if inQuotes then Piece.quoted "$" else Piece.bare "$"
  match cs with
  | '{' :: rest =>
    match braced rest 0 "" with
    | none => .error .unterminatedQuote
    | some (text, after) =>
      match bracedPiece text inQuotes with
      | some p => .ok (p, after)
      | none => .error .badSubstitution
  | '(' :: '(' :: rest =>
    match balanced rest 0 .plain "" with
    | some (src, ')' :: after) => .ok (.arith src inQuotes, after)
    | _ =>
      match balanced ('(' :: rest) 0 .plain "" with
      | none => .error .missingParen
      | some (src, after) => .ok (.output src inQuotes, after)
  | '(' :: rest =>
    match balanced rest 0 .plain "" with
    | none => .error .missingParen
    | some (src, after) => .ok (.output src inQuotes, after)
  | c :: rest =>
    if c.isDigit || isSpecial c then .ok (.param (String.singleton c) .value inQuotes, rest)
    else if isNameStart c then
      let name := (c :: rest).takeWhile isNameChar
      .ok (.param (String.ofList name) .value inQuotes, (c :: rest).drop name.length)
    else .ok (lit, c :: rest)
  | [] => .ok (lit, [])

/-- Add literal text to the pieces read so far, joining it to a literal of the same kind. -/
def pushText (pieces : List Piece) (quoted : Bool) (t : String) : List Piece :=
  if t.isEmpty && !quoted then pieces
  else match pieces.getLast?, quoted with
    | some (.bare s), false => pieces.dropLast ++ [.bare (s ++ t)]
    | some (.quoted s), true => pieces.dropLast ++ [.quoted (s ++ t)]
    | _, _ => pieces ++ [if quoted then .quoted t else .bare t]

/-- The pieces of a double-quoted text up to its closing quote, and what follows it. -/
def doubleQuoted : Nat → List Char → List Piece → Except Fault (List Piece × List Char)
  | 0, _, _ => .error .unterminatedQuote
  | _ + 1, [], _ => .error .unterminatedQuote
  | fuel + 1, c :: rest, acc =>
    if c == '"' then .ok (pushText acc true "", rest)
    else if c == '\\' then
      match rest with
      | d :: more =>
        if d == '$' || d == '`' || d == '"' || d == '\\' then
          doubleQuoted fuel more (pushText acc true (String.singleton d))
        else if d == '\n' then doubleQuoted fuel more acc
        else doubleQuoted fuel more (pushText acc true (String.ofList ['\\', d]))
      | [] => .error .unterminatedQuote
    else if c == '$' then do
      let (p, after) ← dollar rest true
      match p with
      | .quoted t => doubleQuoted fuel after (pushText acc true t)
      | _ => doubleQuoted fuel after (acc ++ [p])
    else if c == '`' then
      match backquoted rest "" with
      | some (src, after) => doubleQuoted fuel after (acc ++ [.output src true])
      | none => .error .unterminatedQuote
    else doubleQuoted fuel rest (pushText acc true (String.singleton c))

/-- The pieces of a word up to the first unquoted character that ends it, and what follows. -/
def wordFrom : Nat → List Char → List Piece → Except Fault (List Piece × List Char)
  | 0, cs, acc => .ok (acc, cs)
  | _ + 1, [], acc => .ok (acc, [])
  | fuel + 1, c :: rest, acc =>
    if endsWord c then .ok (acc, c :: rest)
    else if c == '\'' then
      match singleQuoted rest "" with
      | some (t, after) => wordFrom fuel after (pushText acc true t)
      | none => .error .unterminatedQuote
    else if c == '"' then do
      let (ps, after) ← doubleQuoted (rest.length + 1) rest []
      wordFrom fuel after (if ps.isEmpty then pushText acc true "" else acc ++ ps)
    else if c == '\\' then
      match rest with
      | '\n' :: more => wordFrom fuel more acc
      | d :: more => wordFrom fuel more (pushText acc true (String.singleton d))
      | [] => .ok (pushText acc true "\\", [])
    else if c == '$' then do
      let (p, after) ← dollar rest false
      match p with
      | .bare t => wordFrom fuel after (pushText acc false t)
      | _ => wordFrom fuel after (acc ++ [p])
    else if c == '`' then
      match backquoted rest "" with
      | some (src, after) => wordFrom fuel after (acc ++ [.output src false])
      | none => .error .unterminatedQuote
    else wordFrom fuel rest (pushText acc false (String.singleton c))

/-- The pieces of an unquoted operand after the word read so far: blanks and operators are
plain text there. -/
def operandFrom : Nat → List Char → List Piece → List Piece
  | 0, _, acc => acc
  | _ + 1, [], acc => acc
  | fuel + 1, cs, acc =>
    match wordFrom (cs.length + 1) cs acc with
    | .ok (acc, c :: rest) => operandFrom fuel rest (pushText acc false (String.singleton c))
    | .ok (acc, []) => acc
    | .error _ => pushText acc false (String.ofList cs)

/-- The pieces of an operand of a parameter expansion (the word of `${name:-word}`, a pattern)
or of an arithmetic expression, read to its end: in double quotes as text there is read,
otherwise as a word whose blanks and operators are plain text. -/
def operandPieces (text : String) (inQuotes : Bool) : List Piece :=
  if inQuotes then
    match doubleQuoted (text.length + 2) (text.toList ++ ['"']) [] with
    | .ok (ps, _) => ps
    | .error _ => [.quoted text]
  else operandFrom (text.length + 1) text.toList []

/-- The number of line ends among the characters consumed from `before` to reach `after`. -/
def linesBetween (before after : List Char) : Nat :=
  ((before.take (before.length - after.length)).filter (· == '\n')).length

/-- An operator at the start of the characters, with what follows it. -/
def operator : List Char → Option (Token → Token) × String × List Char
  | '&' :: '&' :: rest => (none, "&&", rest)
  | '|' :: '|' :: rest => (none, "||", rest)
  | ';' :: ';' :: rest => (none, ";;", rest)
  | '>' :: '>' :: rest => (some id, ">>", rest)
  | '>' :: '&' :: rest => (some id, ">&", rest)
  | '>' :: '|' :: rest => (some id, ">|", rest)
  | '<' :: '&' :: rest => (some id, "<&", rest)
  | '<' :: '>' :: rest => (some id, "<>", rest)
  | '<' :: '<' :: rest => (some id, "<<", rest)
  | c :: rest => (if c == '>' || c == '<' then some id else none, String.singleton c, rest)
  | [] => (none, "", [])

/-- Skip a comment up to the end of its line. -/
def skipComment (cs : List Char) : List Char := cs.dropWhile (· != '\n')

/-- The pieces of a here-document's body when its delimiter is not quoted: parameters and
commands are expanded, and a backslash keeps only `$`, a backquote, a backslash and a line
end from their meaning. -/
def hereFrom : Nat → List Char → List Piece → List Piece
  | 0, _, acc => acc
  | _ + 1, [], acc => acc
  | fuel + 1, '\\' :: d :: rest, acc =>
    if d == '$' || d == '`' || d == '\\' then hereFrom fuel rest (pushText acc true (String.singleton d))
    else if d == '\n' then hereFrom fuel rest acc
    else hereFrom fuel rest (pushText acc true (String.ofList ['\\', d]))
  | fuel + 1, '$' :: rest, acc =>
    match dollar rest true with
    | .ok (.quoted t, after) => hereFrom fuel after (pushText acc true t)
    | .ok (p, after) => hereFrom fuel after (acc ++ [p])
    | .error _ => hereFrom fuel rest (pushText acc true "$")
  | fuel + 1, '`' :: rest, acc =>
    match backquoted rest "" with
    | some (src, after) => hereFrom fuel after (acc ++ [.output src true])
    | none => hereFrom fuel rest (pushText acc true "`")
  | fuel + 1, c :: rest, acc => hereFrom fuel rest (pushText acc true (String.singleton c))

/-- The lines of a here-document up to its delimiter line (tabs stripped from the start of
each line when `stripTabs`), and the characters after the delimiter line; without a
delimiter line the body runs to the end. -/
def hereBody : Nat → List Char → String → Bool → List String → List String × List Char
  | 0, cs, _, _, acc => (acc, cs)
  | _ + 1, [], _, _, acc => (acc, [])
  | fuel + 1, cs, delim, stripTabs, acc =>
    let raw := cs.takeWhile (· != '\n')
    let after := cs.drop (raw.length + 1)
    let text := String.ofList (if stripTabs then raw.dropWhile (· == '\t') else raw)
    if text == delim then (acc, after)
    else hereBody fuel after delim stripTabs (acc ++ [text])

/-- Read a here-document after its `<<`: the word of its body, and the characters to read
next, where the rest of the line is followed by line continuations standing for the body's
lines, so that lines keep their numbers. -/
def hereDocument (cs : List Char) : Except Fault (Word × List Char) := do
  let (stripTabs, cs) := match cs with
    | '-' :: more => (true, more)
    | _ => (false, cs)
  let cs := cs.dropWhile (fun c => c == ' ' || c == '\t')
  let (pieces, rest) ← wordFrom (cs.length + 1) cs []
  let delim := String.join (pieces.map fun
    | .bare t => t
    | .quoted t => t
    | _ => "")
  let quoted := pieces.any fun
    | .bare _ => false
    | _ => true
  let lineRest := rest.takeWhile (· != '\n')
  let after := rest.drop (lineRest.length + 1)
  let (lines, remaining) := hereBody (after.length + 1) after delim stripTabs []
  let body := String.join (lines.map (· ++ "\n"))
  let word : Word := if quoted then ⟨[.quoted body]⟩
    else ⟨pushText (hereFrom (body.length + 1) body.toList []) true ""⟩
  let consumed := (after.take (after.length - remaining.length)).filter (· == '\n')
  let skips := consumed.flatMap fun _ => ['\\', '\n']
  return (word, lineRest ++ (if rest.length > lineRest.length then ['\n'] ++ skips else []) ++ remaining)

/-- Read tokens, counting lines from `line`. -/
def tokens : Nat → List Char → Nat → List Token → Except Fault (List Token)
  | 0, _, _, acc => .ok acc
  | _ + 1, [], _, acc => .ok acc
  | fuel + 1, c :: rest, line, acc =>
    if c == ' ' || c == '\t' then tokens fuel rest line acc
    else if c == '\n' then tokens fuel rest (line + 1) (acc ++ [.newline line])
    else if c == '#' then tokens fuel (skipComment rest) line acc
    else if c == '\\' && rest.head? == some '\n' then tokens fuel rest.tail (line + 1) acc
    else if endsWord c then
      let (isRedir, text, after) := operator (c :: rest)
      if text == "<<" then do
        let (body, next) ← hereDocument after
        tokens fuel next line (acc ++ [.redir none text line, .word body line])
      else match isRedir with
        | some _ => tokens fuel after line (acc ++ [.redir none text line])
        | none => tokens fuel after line (acc ++ [.op text line])
    else
      let digits := (c :: rest).takeWhile Char.isDigit
      let afterDigits := (c :: rest).drop digits.length
      match afterDigits with
      | d :: _ =>
        if !digits.isEmpty && (d == '<' || d == '>') then
          let (_, text, after) := operator afterDigits
          if text == "<<" then do
            let (body, next) ← hereDocument after
            tokens fuel next line
              (acc ++ [.redir (some (String.ofList digits).toNat!) text line, .word body line])
          else tokens fuel after line
            (acc ++ [.redir (some (String.ofList digits).toNat!) text line])
        else do
          let (pieces, after) ← wordFrom ((c :: rest).length + 1) (c :: rest) []
          tokens fuel after (line + linesBetween (c :: rest) after)
            (acc ++ [.word ⟨pieces⟩ line])
      | [] => do
        let (pieces, after) ← wordFrom ((c :: rest).length + 1) (c :: rest) []
        tokens fuel after (line + linesBetween (c :: rest) after)
          (acc ++ [.word ⟨pieces⟩ line])

end Lexer

/-- The tokens of a script, lines counted from 1. -/
def tokenize (script : String) : Except Lexer.Fault (List Token) :=
  Lexer.tokens (script.length + 1) script.toList 1 []

end Shell

end Campaign
