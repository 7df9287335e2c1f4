/-! Stage programs are usually shell scripts run with `sh -c`: a script is a list of commands,
simple or compound (pipelines, `&&` and `||`, subshells, groups, `if`, `case`, loops and
function definitions). A word is a list of pieces, literal, quoted, a parameter, command output
or arithmetic, and quoting decides how a value splits into fields.
-/

namespace Campaign

namespace Shell

/-- What a parameter expansion makes of the parameter's value. The words and patterns are
kept as written, and expanded only when they are used. -/
inductive ParamOp where
  /-- `$name`: the value itself. -/
  | value
  /-- `${name-word}`: the word when the parameter is unset (or, with `:`, also when empty). -/
  | orElse (colon : Bool) (word : String)
  /-- `${name=word}`: as `orElse`, also setting the parameter to the word. -/
  | assign (colon : Bool) (word : String)
  /-- `${name+word}`: the word when the parameter is set (and, with `:`, not empty). -/
  | alternate (colon : Bool) (word : String)
  /-- `${name?word}`: the value, or else a failure showing the word that ends the shell. -/
  | require (colon : Bool) (word : String)
  /-- `${name#pattern}`: the value without its shortest prefix matching the pattern, or its
  longest one with `##`. -/
  | dropPrefix (longest : Bool) (pattern : String)
  /-- `${name%pattern}`: the value without its shortest suffix matching the pattern, or its
  longest one with `%%`. -/
  | dropSuffix (longest : Bool) (pattern : String)
  deriving DecidableEq, Repr, Inhabited

/-- A piece of a word. -/
inductive Piece where
  /-- Literal text written without quotes. -/
  | bare (text : String)
  /-- Literal text written in quotes or after a backslash. -/
  | quoted (text : String)
  /-- A parameter (`$name`, `${name}`, `$1`, `$$`, `$?`, `$#`, `$@`, `$*`), what the expansion
  makes of it, and whether it stands in double quotes. -/
  | param (name : String) (op : ParamOp) (inQuotes : Bool)
  /-- The length of a parameter's value, `${#name}`. -/
  | length (name : String)
  /-- The output of a command, `$(…)` or backquotes, by its source text. -/
  | output (source : String) (inQuotes : Bool)
  /-- The value of an arithmetic expression, `$((…))`, by its source text. -/
  | arith (source : String) (inQuotes : Bool)
  deriving DecidableEq, Repr, Inhabited

/-- A word of a command line. -/
structure Word where
  pieces : List Piece
  deriving DecidableEq, Repr, Inhabited

namespace Word

/-- The word's text when it is written bare throughout, as keywords and names must be. -/
def bareText? (w : Word) : Option String :=
  w.pieces.foldr (fun p acc => match p, acc with
    | .bare t, some rest => some (t ++ rest)
    | _, _ => none) (some "")

/-- Whether the word is exactly the bare text `s`. -/
def isBare (w : Word) (s : String) : Bool := w.bareText? == some s

end Word

/-- Where a redirection sends or takes a descriptor. -/
inductive Redirect where
  /-- `n>&m` or `n<&m`: descriptor `n` becomes a copy of `m`. -/
  | dup (fd target : Nat)
  /-- `n>&-`: descriptor `n` is closed. -/
  | close (fd : Nat)
  /-- `n>file` or `n>>file`. -/
  | write (fd : Nat) (target : Word) (append : Bool)
  /-- `n<file`. -/
  | read (fd : Nat) (source : Word)
  /-- `n<<delimiter`: a here-document, whose body is read as the descriptor's input. -/
  | here (fd : Nat) (body : Word)
  deriving DecidableEq, Repr, Inhabited

/-- A command. -/
inductive Command where
  /-- Assignments, words and redirections, with the line the command starts on. -/
  | simple (assigns : List (String × Word)) (words : List Word) (redirects : List Redirect)
      (line : Nat)
  /-- Commands joined by `|`, possibly negated by `!`. -/
  | pipeline (negated : Bool) (parts : List Command)
  /-- `first && second`. -/
  | both (first second : Command)
  /-- `first || second`. -/
  | either (first second : Command)
  /-- Commands one after the other. -/
  | sequence (parts : List Command)
  /-- `( body )`: the body runs in a copy of the shell. -/
  | subshell (body : Command) (redirects : List Redirect)
  /-- `{ body; }`. -/
  | group (body : Command) (redirects : List Redirect)
  /-- `if test; then yes; else no; fi`. -/
  | cond (test yes no : Command)
  /-- `for name in items; do body; done`; without `in`, the items are the arguments. -/
  | forEach (name : String) (items : Option (List Word)) (body : Command)
  /-- `while test; do body; done`, or `until` when `negated`. -/
  | repeatWhile (negated : Bool) (test body : Command)
  /-- `case subject in patterns) body;; … esac`: the body of the first arm with a pattern
  matching the subject. -/
  | choose (subject : Word) (arms : List (List Word × Command))
  /-- `name() body`: defines a function. -/
  | define (name : String) (body : Command)
  deriving Repr, Inhabited

/-- The command that does nothing and succeeds. -/
def Command.empty : Command := .sequence []

end Shell

end Campaign
