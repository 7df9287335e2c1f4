import Campaign.Shell.Lexer

/-! The parser follows the shell's grammar of lists, and-or lists, pipelines and commands, with
reserved words counting only where a command starts. A script that does not follow it fails as
a whole with the shell's syntax error, and since every step consumes a token or stops, a fuel of
the number of tokens suffices.
-/

namespace Campaign

namespace Shell

/-- A syntax error, with its line and text. -/
structure SyntaxError where
  line : Nat
  text : String
  deriving DecidableEq, Repr

/-- The line of a token. -/
def Token.line : Token → Nat
  | .word _ l => l
  | .op _ l => l
  | .redir _ _ l => l
  | .newline l => l

/-- The text of a word as it is shown in an error. -/
def wordText (w : Word) : String :=
  String.join (w.pieces.map fun
    | .bare t => t
    | .quoted t => t
    | .param n _ _ => "$" ++ n
    | .length n => "$\x7b#" ++ n ++ "\x7d"
    | .output s _ => "$(" ++ s ++ ")"
    | .arith s _ => "$((" ++ s ++ "))")

/-- The text of a token as it is shown in an error. -/
def Token.text : Token → String
  | .word w _ => wordText w
  | .op t _ => t
  | .redir _ t _ => t
  | .newline _ => "newline"

namespace Parser

/-- The words reserved where a command starts. -/
def reserved : List String :=
  ["if", "then", "else", "elif", "fi", "for", "in", "do", "done", "while", "until", "\x7b", "\x7d",
   "!", "case", "esac"]

/-- The error for the first of `toks`, which was not expected. -/
def unexpected (toks : List Token) (expecting : Option String) (lastLine : Nat) : SyntaxError :=
  let tail := match expecting with
    | some e => " (expecting \"" ++ e ++ "\")"
    | none => ""
  match toks with
  | t :: _ => ⟨t.line, "\"" ++ t.text ++ "\" unexpected" ++ tail⟩
  | [] => ⟨lastLine, "end of file unexpected" ++ tail⟩

/-- Whether the first token is the reserved word `kw`. -/
def startsWith (toks : List Token) (kw : String) : Bool :=
  match toks with
  | .word w _ :: _ => w.isBare kw
  | _ => false

/-- Whether the first token is the operator `o`. -/
def startsWithOp (toks : List Token) (o : String) : Bool :=
  match toks with
  | .op t _ :: _ => t == o
  | _ => false

/-- Drop line ends. -/
def skipNewlines : List Token → List Token
  | .newline _ :: rest => skipNewlines rest
  | toks => toks

/-- Whether a list stops here: at the end, at `)` or at one of the reserved words `stops`. -/
def stopsHere (toks : List Token) (stops : List String) : Bool :=
  match toks with
  | [] => true
  | .op t _ :: _ => t == ")" || t == ";;"
  | .word w _ :: _ => stops.any fun s => w.isBare s
  | _ => false

/-- The name and value of an assignment word `name=value`. -/
def assignment? (w : Word) : Option (String × Word) :=
  match w.pieces with
  | .bare t :: rest =>
    let cs := t.toList
    let name := cs.takeWhile Lexer.isNameChar
    match cs.drop name.length with
    | '=' :: value =>
      match name with
      | c :: _ =>
        if Lexer.isNameStart c then
          let first := if value.isEmpty then [] else [Piece.bare (String.ofList value)]
          some (String.ofList name, ⟨first ++ rest⟩)
        else none
      | [] => none
    | _ => none
  | _ => none

/-- The descriptor a redirection operator applies to when none is written. -/
def defaultFd (op : String) : Nat :=
  if op.startsWith "<" then 0 else 1

/-- A redirection from its operator and target word. -/
def redirectOf (fd : Option Nat) (op : String) (target : Word) : Redirect :=
  let n := fd.getD (defaultFd op)
  if op == ">&" || op == "<&" then
    match target.bareText? with
    | some "-" => .close n
    | some t => if !t.isEmpty && t.all Char.isDigit then .dup n t.toNat! else .write n target false
    | none => .write n target false
  else if op == ">>" then .write n target true
  else if op == "<<" then .here n target
  else if op == "<" || op == "<>" then .read n target
  else .write n target false

/-- Redirections after a compound command. -/
def redirects : Nat → List Token → List Redirect → Except SyntaxError (List Redirect × List Token)
  | 0, toks, acc => .ok (acc, toks)
  | fuel + 1, .redir fd op l :: .word w _ :: rest, acc =>
    let _ := l
    redirects fuel rest (acc ++ [redirectOf fd op w])
  | _ + 1, .redir _ _ l :: rest, _ => .error (unexpected rest none l)
  | _ + 1, toks, acc => .ok (acc, toks)

/-- The parts of a simple command. -/
def simpleParts : Nat → List Token → List (String × Word) → List Word → List Redirect →
    Except SyntaxError ((List (String × Word) × List Word × List Redirect) × List Token)
  | 0, toks, a, ws, rs => .ok ((a, ws, rs), toks)
  | fuel + 1, .word w l :: rest, a, ws, rs =>
    let _ := l
    match (if ws.isEmpty then assignment? w else none) with
    | some asg => simpleParts fuel rest (a ++ [asg]) ws rs
    | none => simpleParts fuel rest a (ws ++ [w]) rs
  | fuel + 1, .redir fd op _ :: .word w _ :: rest, a, ws, rs =>
    simpleParts fuel rest a ws (rs ++ [redirectOf fd op w])
  | _ + 1, .redir _ _ l :: rest, _, _, _ => .error (unexpected rest none l)
  | _ + 1, toks, a, ws, rs => .ok ((a, ws, rs), toks)

/-- Words up to a `;` or line end, as after `for name in`. -/
def itemWords : List Token → List Word × List Token
  | .word w _ :: rest =>
    let (ws, after) := itemWords rest
    (w :: ws, after)
  | toks => ([], toks)

/-- Consume the reserved word `kw`, or fail expecting it. -/
def expectWord (toks : List Token) (kw : String) (lastLine : Nat) : Except SyntaxError (List Token) :=
  if startsWith toks kw then .ok toks.tail else .error (unexpected toks (some kw) lastLine)

/-- Consume the operator `o`, or fail expecting it. -/
def expectOp (toks : List Token) (o : String) (lastLine : Nat) : Except SyntaxError (List Token) :=
  if startsWithOp toks o then .ok toks.tail else .error (unexpected toks (some o) lastLine)

/-- The patterns of an arm of `case`, separated by `|`, up to and past its `)`. -/
def patternWords : List Token → Nat → Except SyntaxError (List Word × List Token)
  | .word w _ :: .op "|" _ :: rest, lastLine => do
    let (ws, after) ← patternWords rest lastLine
    return (w :: ws, after)
  | .word w _ :: .op ")" _ :: rest, _ => .ok ([w], rest)
  | .word _ _ :: rest, lastLine => .error (unexpected rest (some ")") lastLine)
  | toks, lastLine => .error (unexpected toks none lastLine)

/-- A compound command followed by redirections, which apply to all of it. -/
def withRedirects (fuel : Nat) (c : Command) (toks : List Token) :
    Except SyntaxError (Command × List Token) := do
  let (rs, rest) ← redirects fuel toks []
  return (if rs.isEmpty then c else .group c rs, rest)

mutual

/-- A list, up to a stop. -/
def list (fuel lastLine : Nat) (toks : List Token) (stops : List String) :
    Except SyntaxError (Command × List Token) :=
  match fuel with
  | 0 => .ok (.empty, toks)
  | fuel + 1 => do
    let toks := skipNewlines toks
    if stopsHere toks stops then return (.sequence [], toks)
    let (first, rest) ← andOr fuel lastLine toks
    let (more, rest) ← listTail fuel lastLine rest stops
    return (match more with
      | .sequence [] => first
      | .sequence cs => .sequence (first :: cs)
      | c => .sequence [first, c], rest)

/-- What follows an and-or list in a list: a separator and more, or the end. -/
def listTail (fuel lastLine : Nat) (toks : List Token) (stops : List String) :
    Except SyntaxError (Command × List Token) :=
  match fuel with
  | 0 => .ok (.sequence [], toks)
  | fuel + 1 =>
    match toks with
    | .op t _ :: rest =>
      if t == ";" || t == "&" then list fuel lastLine rest stops
      else .ok (.sequence [], toks)
    | .newline _ :: rest => list fuel lastLine rest stops
    | _ => .ok (.sequence [], toks)

/-- An and-or list. -/
def andOr (fuel lastLine : Nat) (toks : List Token) : Except SyntaxError (Command × List Token) :=
  match fuel with
  | 0 => .ok (.empty, toks)
  | fuel + 1 => do
    let (first, rest) ← pipeline fuel lastLine toks
    andOrTail fuel lastLine first rest

/-- Join pipelines after the first by `&&` and `||`, left to right. -/
def andOrTail (fuel lastLine : Nat) (acc : Command) (toks : List Token) :
    Except SyntaxError (Command × List Token) :=
  match fuel with
  | 0 => .ok (acc, toks)
  | fuel + 1 =>
    match toks with
    | .op t _ :: rest =>
      if t == "&&" || t == "||" then do
        let (next, after) ← pipeline fuel lastLine (skipNewlines rest)
        andOrTail fuel lastLine (if t == "&&" then .both acc next else .either acc next) after
      else .ok (acc, toks)
    | _ => .ok (acc, toks)

/-- A pipeline. -/
def pipeline (fuel lastLine : Nat) (toks : List Token) : Except SyntaxError (Command × List Token) :=
  match fuel with
  | 0 => .ok (.empty, toks)
  | fuel + 1 => do
    let negated := startsWith toks "!"
    let toks := if negated then toks.tail else toks
    let (first, rest) ← command fuel lastLine toks
    let (parts, rest) ← pipeTail fuel lastLine rest
    return (if parts.isEmpty && !negated then first else .pipeline negated (first :: parts), rest)

/-- The commands after `|` in a pipeline. -/
def pipeTail (fuel lastLine : Nat) (toks : List Token) :
    Except SyntaxError (List Command × List Token) :=
  match fuel with
  | 0 => .ok ([], toks)
  | fuel + 1 =>
    if startsWithOp toks "|" then do
      let (c, rest) ← command fuel lastLine (skipNewlines toks.tail)
      let (more, rest) ← pipeTail fuel lastLine rest
      return (c :: more, rest)
    else .ok ([], toks)

/-- A command: compound or simple. -/
def command (fuel lastLine : Nat) (toks : List Token) : Except SyntaxError (Command × List Token) :=
  match fuel with
  | 0 => .ok (.empty, toks)
  | fuel + 1 =>
    if startsWithOp toks "(" then do
      let (body, rest) ← list fuel lastLine toks.tail []
      let rest ← expectOp rest ")" lastLine
      let (rs, rest) ← redirects fuel rest []
      return (.subshell body rs, rest)
    else if startsWith toks "\x7b" then do
      let (body, rest) ← list fuel lastLine toks.tail ["\x7d"]
      let rest ← expectWord rest "\x7d" lastLine
      let (rs, rest) ← redirects fuel rest []
      return (.group body rs, rest)
    else if startsWith toks "if" then do
      let (c, rest) ← ifRest fuel lastLine toks.tail
      withRedirects fuel c rest
    else if startsWith toks "while" || startsWith toks "until" then do
      let (test, rest) ← list fuel lastLine toks.tail ["do"]
      let rest ← expectWord rest "do" lastLine
      let (body, rest) ← list fuel lastLine rest ["done"]
      let rest ← expectWord rest "done" lastLine
      withRedirects fuel (.repeatWhile (startsWith toks "until") test body) rest
    else if startsWith toks "case" then
      match toks.tail with
      | .word subject _ :: rest => do
        let rest ← expectWord (skipNewlines rest) "in" lastLine
        let (arms, rest) ← caseArms fuel lastLine rest
        withRedirects fuel (.choose subject arms) rest
      | rest => .error (unexpected rest none lastLine)
    else if startsWith toks "for" then
      match toks.tail with
      | .word name _ :: rest =>
        match name.bareText? with
        | some n => do
          let rest := skipNewlines rest
          let (items, rest) ← if startsWith rest "in" then
              let (ws, after) := itemWords rest.tail
              match after with
              | .op ";" _ :: more => pure (some ws, more)
              | .newline _ :: more => pure (some ws, more)
              | _ => .error (unexpected after (some "do") lastLine)
            else match rest with
              | .op ";" _ :: more => pure (none, more)
              | _ => pure (none, rest)
          let rest ← expectWord (skipNewlines rest) "do" lastLine
          let (body, rest) ← list fuel lastLine rest ["done"]
          let rest ← expectWord rest "done" lastLine
          withRedirects fuel (.forEach n items body) rest
        | none => .error (unexpected toks.tail none lastLine)
      | rest => .error (unexpected rest none lastLine)
    else
      match toks with
      | .word w _ :: .op "(" _ :: .op ")" _ :: rest =>
        match w.bareText? with
        | some name =>
          if reserved.contains name || !name.all Lexer.isNameChar then
            .error (unexpected toks.tail none lastLine)
          else do
            let (body, rest) ← command fuel lastLine (skipNewlines rest)
            return (.define name body, rest)
        | none => .error (unexpected toks.tail none lastLine)
      | .word w l :: _ =>
        if reserved.any (w.isBare ·) then .error (unexpected toks none lastLine)
        else do
          let ((a, ws, rs), rest) ← simpleParts (toks.length + 1) toks [] [] []
          return (.simple a ws rs l, rest)
      | .redir _ _ l :: _ => do
        let ((a, ws, rs), rest) ← simpleParts (toks.length + 1) toks [] [] []
        return (.simple a ws rs l, rest)
      | _ => .error (unexpected toks none lastLine)

/-- The arms of `case`, up to and past its `esac`. -/
def caseArms (fuel lastLine : Nat) (toks : List Token) :
    Except SyntaxError (List (List Word × Command) × List Token) :=
  match fuel with
  | 0 => .ok ([], toks)
  | fuel + 1 =>
    let toks := skipNewlines toks
    if startsWith toks "esac" then .ok ([], toks.tail)
    else do
      let toks := if startsWithOp toks "(" then toks.tail else toks
      let (patterns, rest) ← patternWords toks lastLine
      let (body, rest) ← list fuel lastLine rest ["esac"]
      if startsWithOp rest ";;" then do
        let (more, rest) ← caseArms fuel lastLine rest.tail
        return ((patterns, body) :: more, rest)
      else if startsWith rest "esac" then return ([(patterns, body)], rest.tail)
      else .error (unexpected rest (some "esac") lastLine)

/-- The rest of a conditional after `if` or `elif`, up to and past its `fi`. -/
def ifRest (fuel lastLine : Nat) (toks : List Token) : Except SyntaxError (Command × List Token) :=
  match fuel with
  | 0 => .ok (.empty, toks)
  | fuel + 1 => do
    let (test, rest) ← list fuel lastLine toks ["then"]
    let rest ← expectWord rest "then" lastLine
    let (yes, rest) ← list fuel lastLine rest ["elif", "else", "fi"]
    if startsWith rest "elif" then do
      let (no, rest) ← ifRest fuel lastLine rest.tail
      return (.cond test yes no, rest)
    else if startsWith rest "else" then do
      let (no, rest) ← list fuel lastLine rest.tail ["fi"]
      let rest ← expectWord rest "fi" lastLine
      return (.cond test yes no, rest)
    else do
      let rest ← expectWord rest "fi" lastLine
      return (.cond test yes .empty, rest)

end

end Parser

/-- The last line of a script, where an unexpected end is reported. -/
def lastLine (script : String) : Nat :=
  (script.toList.filter (· == '\n')).length + 1

/-- The commands of the next complete line of a script (a compound command may span several
lines), and the tokens after it; `none` at the end of the script. A shell reads and runs a
script this way, so the lines before a syntax error run. -/
def nextLine (lastLine : Nat) (toks : List Token) : Except SyntaxError (Option (Command × List Token)) :=
  match Parser.skipNewlines toks with
  | [] => .ok none
  | toks => do
    let fuel := 4 * toks.length + 8
    let (c, rest) ← Parser.andOr fuel lastLine toks
    let (more, rest) ← lineRest fuel rest []
    return some (match more with
      | [] => c
      | _ => .sequence (c :: more), rest)
where
  /-- The and-or lists after the first on the line, after `;` or `&`. -/
  lineRest : Nat → List Token → List Command → Except SyntaxError (List Command × List Token)
    | 0, toks, acc => .ok (acc, toks)
    | _ + 1, [], acc => .ok (acc, [])
    | _ + 1, .newline _ :: more, acc => .ok (acc, more)
    | fuel + 1, .op t l :: more, acc =>
      if t == ";" || t == "&" then
        match more with
        | [] => .ok (acc, [])
        | .newline _ :: after => .ok (acc, after)
        | _ => do
          let (c, rest) ← Parser.andOr fuel lastLine more
          lineRest fuel rest (acc ++ [c])
      else .error (Parser.unexpected (.op t l :: more) none lastLine)
    | _ + 1, toks, _ => .error (Parser.unexpected toks none lastLine)

/-- The syntax error of a script that cannot be read into tokens. -/
def lexFault (script : String) : Lexer.Fault → SyntaxError
  | .unterminatedQuote => ⟨lastLine script, "Unterminated quoted string"⟩
  | .missingParen => ⟨lastLine script, "end of file unexpected (expecting \")\")"⟩
  | .badSubstitution => ⟨lastLine script, "Bad substitution"⟩
  | .unsupported what => ⟨1, what ++ " not supported"⟩

/-- The command of a whole script. -/
def parse (script : String) : Except SyntaxError Command :=
  let last := lastLine script
  match tokenize script with
  | .error f => .error (lexFault script f)
  | .ok toks => do
    let fuel := 4 * toks.length + 8
    let (c, rest) ← Parser.list fuel last toks []
    match rest with
    | [] => return c
    | _ => .error (Parser.unexpected rest none last)

end Shell

end Campaign
