import Campaign.Shell.Parser
import Campaign.Shell.Utilities
import Campaign.Shell.Arith

/-! A script runs command by command: words expand into fields, redirections point descriptors at
files for one command, and pipelines, subshells and command substitutions run in copies of the
shell. A command is found among the utilities, a name with a `/` names a file the shell cannot
run, and every step spends fuel, so a script that loops runs out of it.
-/

namespace Campaign

namespace Shell

/-- How a shell process ended. -/
inductive Ending where
  | exited (code : Nat)
  | signalled (signal : Nat)
  deriving DecidableEq, Repr

/-- What a shell process left: how it ended, what it wrote, the file tree, and the time it
spent. -/
structure Outcome where
  ending : Ending
  output : String
  errors : String
  tree : Tree
  elapsed : Nat

/-- Whether a character separates fields. -/
def isBlank (c : Char) : Bool := c == ' ' || c == '\t' || c == '\n'

/-- Fields being built: those finished, and the one in progress, if started. -/
structure Fields where
  done : List String := []
  current : Option String := none

namespace Fields

/-- Add text to the field in progress, starting it if needed. -/
def add (f : Fields) (t : String) : Fields := { f with current := some (f.current.getD "" ++ t) }

/-- End the field in progress, if one is started. -/
def cut (f : Fields) : Fields :=
  match f.current with
  | some s => { done := f.done ++ [s], current := none }
  | none => f

/-- Add text that splits at blanks. -/
def addSplit (f : Fields) (v : String) : Fields :=
  v.toList.foldl (fun f c => if isBlank c then f.cut else f.add (String.singleton c)) f

/-- The fields, the one in progress last. -/
def all (f : Fields) : List String := (f.cut).done

/-- Add the fields of an expansion: its first field joins the one in progress and the others
follow; when its last field is finished, so is the one in progress. -/
def merge (f g : Fields) : Fields :=
  match g.done ++ g.current.toList with
  | [] => f
  | first :: more =>
    let f := more.foldl (fun f x => f.cut.add x) (f.add first)
    if g.current.isNone then f.cut else f

end Fields

namespace State

/-- The value of a parameter, `none` when it is unset. -/
def param? (st : State) (name : String) : Option String :=
  match name with
  | "$" => some (toString st.pid)
  | "?" => some (toString st.status)
  | "#" => some (toString st.args.length)
  | "0" => some st.name
  | "@" => some (" ".intercalate st.args)
  | "*" => some (" ".intercalate st.args)
  | "-" => some ""
  | "!" => none
  | _ =>
    if !name.isEmpty && name.all Char.isDigit then st.args[name.toNat! - 1]?
    else st.get? name

/-- Keep what a copy of the shell must not change: variables, arguments, name, working
directory, functions and enclosing loops come back from `outer`. -/
def restore (outer inner : State) : State :=
  let tree := { inner.tree with cwd := outer.tree.cwd }
  { inner with vars := outer.vars, args := outer.args, name := outer.name, tree,
               functions := outer.functions, loops := outer.loops }

end State

/-- A shell's message for a redirection that failed. -/
def redirectMessage (what target : String) (e : IoError) : String :=
  let why := if e == IoError.notFound then (if what == "create" then "Directory nonexistent"
      else "No such file") else e.text
  "cannot " ++ what ++ " " ++ target ++ ": " ++ why

/-- The text of a command's output as a substitution gives it: without trailing line ends. -/
def dropTrailingNewlines (s : String) : String :=
  String.ofList (s.toList.reverse.dropWhile (· == '\n')).reverse

/-- The redirections of `exec` written without a command, with its line. -/
def execRedirects? : Command → Option (List Redirect × Nat)
  | .simple [] [w] rs line => if w.isBare "exec" && !rs.isEmpty then some (rs, line) else none
  | _ => none

/-- The fuel a script runs with. -/
def runFuel : Nat := 200000

mutual

/-- The text of a command substitution, and the state after it. -/
def substitute (fuel : Nat) (src : String) (st : State) : State × String × Flow :=
  match fuel with
  | 0 => (st, "", .next)
  | fuel + 1 =>
    match parse src with
    | .error e =>
      let st := st.complain {} (st.name ++ ": " ++ toString e.line ++ ": Syntax error: " ++ e.text ++ "\n")
      ({ st with status := 2 }, "", .next)
    | .ok c =>
      let saved := st.output
      let (inner, flow) := exec fuel c {} { st with output := "" }
      let text := dropTrailingNewlines inner.output
      let st := { st.restore inner with output := saved }
      match flow with
      | .killed s => (st, text, .killed s)
      | .exit code | .returned code => ({ st with status := code }, text, .next)
      | _ => (st, text, .next)

/-- Expand the pieces of a word into fields. Bare text is split at blanks when `splitBare`,
as it is in the operand of an unquoted parameter expansion. -/
def expandPieces (fuel : Nat) (pieces : List Piece) (splitBare : Bool) (f : Fields) (st : State) :
    State × Fields × Flow :=
  match fuel, pieces with
  | 0, _ => (st, f, .next)
  | _ + 1, [] => (st, f, .next)
  | fuel + 1, p :: rest =>
    let continueWith := fun (st : State) (f : Fields) => expandPieces fuel rest splitBare f st
    let addValue := fun (st : State) (q : Bool) (v : String) =>
      continueWith st (if q then f.add v else f.addSplit v)
    match p with
    | .bare t => continueWith st (if splitBare then f.addSplit t else f.add t)
    | .quoted t => continueWith st (f.add t)
    | .length n => continueWith st (f.add (toString ((st.param? n).getD "").length))
    | .param n op q =>
      let v? := st.param? n
      let missing := fun (colon : Bool) => match v? with
        | none => true
        | some v => colon && v.isEmpty
      match op with
      | .value =>
        if q && n == "@" then
          continueWith st (match st.args with
            | [] => f
            | a :: more => more.foldl (fun f x => (f.cut).add x) (f.add a))
        else addValue st q (v?.getD "")
      | .orElse colon w =>
        if missing colon then
          let (st, g, flow) := expandPieces fuel (Lexer.operandPieces w q) (!q) {} st
          match flow with
          | .next => continueWith st (f.merge g)
          | _ => (st, f, flow)
        else addValue st q (v?.getD "")
      | .alternate colon w =>
        if missing colon then continueWith st (if q then f.add "" else f)
        else
          let (st, g, flow) := expandPieces fuel (Lexer.operandPieces w q) (!q) {} st
          match flow with
          | .next => continueWith st (f.merge g)
          | _ => (st, f, flow)
      | .assign colon w =>
        if missing colon then
          let (st, t, flow) := expandTextOf fuel (Lexer.operandPieces w true) st
          match flow with
          | .next => addValue (st.set n t) q t
          | _ => (st, f, flow)
        else addValue st q (v?.getD "")
      | .require colon w =>
        if missing colon then
          let (st, t, flow) := expandTextOf fuel (Lexer.operandPieces w true) st
          match flow with
          | .next =>
            let why := if !w.isEmpty then t
              else if colon then "parameter not set or null" else "parameter not set"
            (st.shellMessage {} (n ++ ": " ++ why), f, .exit 2)
          | _ => (st, f, flow)
        else addValue st q (v?.getD "")
      | .dropPrefix longest pat =>
        let (st, pattern, flow) := expandPatternOf fuel pat st
        match flow with
        | .next => addValue st q (Glob.dropPrefix longest pattern (v?.getD ""))
        | _ => (st, f, flow)
      | .dropSuffix longest pat =>
        let (st, pattern, flow) := expandPatternOf fuel pat st
        match flow with
        | .next => addValue st q (Glob.dropSuffix longest pattern (v?.getD ""))
        | _ => (st, f, flow)
    | .output src q =>
      let (st, text, flow) := substitute fuel src st
      match flow with
      | .next => addValue st q text
      | _ => (st, f, flow)
    | .arith src q =>
      let (st, text, flow) := expandTextOf fuel (Lexer.operandPieces src true) st
      match flow with
      | .next =>
        match Arith.evaluate text st.get? with
        | .ok (v, assigned) =>
          addValue (assigned.foldl (fun st (k, x) => st.set k (toString x)) st) q (toString v)
        | .error msg => (st.shellMessage {} msg, f, .exit 2)
      | _ => (st, f, flow)

/-- Expand pieces into one text, without splitting, as assignments and redirection targets
are. -/
def expandTextOf (fuel : Nat) (pieces : List Piece) (st : State) : State × String × Flow :=
  match fuel with
  | 0 => (st, "", .next)
  | fuel + 1 =>
    let plain := pieces.map fun
      | .param n op _ => Piece.param n op true
      | .output s _ => .output s true
      | .arith s _ => .arith s true
      | p => p
    let (st, f, flow) := expandPieces fuel plain false {} st
    (st, " ".intercalate f.all, flow)

/-- Expand a pattern as written: quoted text matches itself, the rest keeps its special
characters. -/
def expandPatternOf (fuel : Nat) (pattern : String) (st : State) : State × String × Flow :=
  match fuel with
  | 0 => (st, "", .next)
  | fuel + 1 =>
    let pieces := (Lexer.operandPieces pattern false).map fun
      | .quoted t => Piece.quoted (Glob.escape t)
      | p => p
    expandTextOf fuel pieces st

/-- Expand words into fields. -/
def expandWords (fuel : Nat) (ws : List Word) (st : State) : State × List String × Flow :=
  match fuel, ws with
  | 0, _ => (st, [], .next)
  | _ + 1, [] => (st, [], .next)
  | fuel + 1, w :: rest =>
    let (st, f, flow) := expandPieces fuel w.pieces false {} st
    match flow with
    | .next =>
      let (st, more, flow) := expandWords fuel rest st
      (st, f.all ++ more, flow)
    | _ => (st, [], flow)

/-- Expand a word into one text, as assignments and redirection targets are. -/
def expandText (fuel : Nat) (w : Word) (st : State) : State × String × Flow :=
  match fuel with
  | 0 => (st, "", .next)
  | fuel + 1 => expandTextOf fuel w.pieces st

/-- Expand a word into a pattern: quoted text matches itself. -/
def expandPattern (fuel : Nat) (w : Word) (st : State) : State × String × Flow :=
  match fuel with
  | 0 => (st, "", .next)
  | fuel + 1 =>
    let pieces := w.pieces.map fun
      | .quoted t => Piece.quoted (Glob.escape t)
      | p => p
    expandTextOf fuel pieces st

/-- Apply redirections: the descriptors, the standard input, or the message of a failure. -/
def redirect (fuel : Nat) (rs : List Redirect) (fds : Fds) (input : Option String)
    (st : State) : State × Except String (Fds × Option String) × Flow :=
  match fuel, rs with
  | 0, _ => (st, .ok (fds, input), .next)
  | _ + 1, [] => (st, .ok (fds, input), .next)
  | fuel + 1, r :: rest =>
    let setFd := fun (n : Nat) (s : Sink) =>
      if n == 1 then { fds with out := s } else if n == 2 then { fds with err := s } else fds
    match r with
    | .dup n m =>
      let s := if m == 2 then fds.err else if m == 1 then fds.out else .discard
      redirect fuel rest (setFd n s) input st
    | .close n => redirect fuel rest (setFd n .discard) input st
    | .write n w append =>
      let (st, target, flow) := expandText fuel w st
      match flow with
      | .next =>
        if target == "/dev/null" then redirect fuel rest (setFd n .discard) input st
        else if target == "/dev/stderr" then redirect fuel rest (setFd n fds.err) input st
        else if target == "/dev/stdout" then redirect fuel rest (setFd n fds.out) input st
        else
          let made := if append then st.tree.append ⟨target⟩ "" else st.tree.write ⟨target⟩ ""
          match made with
          | .ok t => redirect fuel rest (setFd n (.file ⟨target⟩)) input { st with tree := t }
          | .error e => (st, .error (redirectMessage "create" target e), .next)
      | _ => (st, .ok (fds, input), flow)
    | .here n w =>
      let (st, body, flow) := expandText fuel w st
      match flow with
      | .next => redirect fuel rest fds (if n == 0 then some body else input) st
      | _ => (st, .ok (fds, input), flow)
    | .read n w =>
      let (st, source, flow) := expandText fuel w st
      match flow with
      | .next =>
        if n != 0 then redirect fuel rest fds input st
        else if source == "/dev/null" then redirect fuel rest fds (some "") st
        else match st.tree.read ⟨source⟩ with
          | .ok text => redirect fuel rest fds (some text) st
          | .error e => (st, .error (redirectMessage "open" source e), .next)
      | _ => (st, .ok (fds, input), flow)

/-- Run a command in a copy of the shell: what it changes of the shell is undone, and its
`exit` ends only the copy. -/
def runCopy (fuel : Nat) (c : Command) (fds : Fds) (st : State) : State × Flow :=
  match fuel with
  | 0 => (st, .next)
  | fuel + 1 =>
    let (inner, flow) := exec fuel c fds st
    let st := st.restore inner
    match flow with
    | .exit code | .returned code => ({ st with status := code }, .next)
    | .killed s => (st, .killed s)
    | _ => (st, .next)

/-- Run the commands of a pipeline, the first reading `input`; the status is the last's. -/
def pipe (fuel : Nat) (parts : List Command) (fds : Fds) (input : String) (st : State) :
    State × Flow :=
  match fuel, parts with
  | 0, _ => (st, .next)
  | _ + 1, [] => st.finish 0
  | fuel + 1, [c] =>
    let outer := st.input
    let (st, flow) := runCopy fuel c fds { st with input }
    ({ st with input := outer }, flow)
  | fuel + 1, c :: rest =>
    let saved := st.output
    let outer := st.input
    let (inner, flow) := runCopy fuel c { fds with out := .output } { st with output := "", input }
    let piped := inner.output
    let st := { inner with output := saved, input := outer }
    match flow with
    | .next => pipe fuel rest fds piped st
    | f => (st, f)

/-- Run a script as a shell process named `name` with `args`: its status, or the signal that
killed it. -/
def script (fuel : Nat) (source name : String) (args : List String) (fds : Fds) (st : State) :
    State × Ending :=
  match fuel with
  | 0 => (st, .exited 0)
  | fuel + 1 =>
    match tokenize source with
    | .error f =>
      let e := lexFault source f
      let st := st.complain fds (name ++ ": " ++ toString e.line ++ ": Syntax error: " ++ e.text ++ "\n")
      (st, .exited 2)
    | .ok toks =>
      let vars := st.vars.filter (·.exported)
      let inner := { st with name, args, vars, status := 0, line := 1, functions := [], loops := 0 }
      let (inner, flow) := runLines fuel source toks fds inner
      let st := st.restore inner
      match flow with
      | .killed s => (st, .signalled s)
      | .exit code | .returned code => (st, .exited code)
      | _ => (st, .exited inner.status)

/-- Run `sh` with its arguments: `-c` and a script with its name and arguments, a file of
commands, or commands read from standard input. -/
def shell (fuel : Nat) (args : List String) (fds : Fds) (st : State) : State × Ending :=
  match fuel with
  | 0 => (st, .exited 0)
  | fuel + 1 =>
    let (flags, rest) := Utility.splitFlags args
    if flags.contains 'c' then
      match rest with
      | src :: more =>
        let (name, params) := match more with
          | n :: ps => (n, ps)
          | [] => ("sh", [])
        script fuel src name params fds st
      | [] => (st.complain fds "sh: 0: -c requires an argument\n", .exited 2)
    else
      match rest with
      | file :: params =>
        match st.tree.read ⟨file⟩ with
        | .ok src => script fuel src file params fds st
        | .error _ => (st.complain fds ("sh: 0: cannot open " ++ file ++ ": No such file\n"), .exited 2)
      | [] =>
        let (src, st) := st.takeInput
        script fuel src "sh" [] fds st

/-- Run a command named by its first field. -/
def invoke (fuel : Nat) (fields : List String) (env : List (String × String)) (fds : Fds)
    (st : State) : State × Flow :=
  match fuel, fields with
  | 0, _ => (st, .next)
  | _ + 1, [] => st.finish 0
  | fuel + 1, name :: args =>
    -- the command sees its assignments as exported variables, for its run only
    let withEnv := env.foldl (fun st (k, v) => st.assign k v true) st
    let back := fun (after : State) => { after with vars := st.vars }
    match name with
    | "env" =>
      let assigns := args.takeWhile (·.contains '=')
      let rest := args.drop assigns.length
      let extra := assigns.map fun a =>
        let parts := a.splitOn "="
        (parts.head!, "=".intercalate parts.tail)
      if rest.isEmpty then
        let shown := (extra.foldl (fun st (k, v) => st.assign k v true) withEnv).environment
        let (st', flow) := (withEnv.say fds (unlines (shown.map fun (k, v) => k ++ "=" ++ v))).finish 0
        (back st', flow)
      else
        let (st', flow) := invoke fuel rest (env ++ extra) fds st
        (st', flow)
    | "command" => invoke fuel args env fds st
    | "exec" =>
      if args.isEmpty then st.finish 0
      else
        let (st, flow) := invoke fuel args env fds st
        match flow with
        | .next => (st, .exit st.status)
        | f => (st, f)
    | "eval" =>
      let source := " ".intercalate args
      match tokenize source with
      | .ok toks => runLines fuel source toks fds st
      | .error f => (st.shellMessage fds ("Syntax error: " ++ (lexFault source f).text), .exit 2)
    | "." =>
      match args with
      | file :: _ =>
        match st.tree.read ⟨file⟩ with
        | .ok src =>
          match tokenize src with
          | .ok toks =>
            let (st, flow) := runLines fuel src toks fds st
            match flow with
            | .returned code => st.finish code
            | f => (st, f)
          | .error f => (st.shellMessage fds ("Syntax error: " ++ (lexFault src f).text), .exit 2)
        | .error _ => (st.shellMessage fds (".: cannot open " ++ file ++ ": No such file")).finish 2
      | [] => st.finish 0
    | "sh" =>
      let (after, ending) := shell fuel args fds withEnv
      let after := back after
      match ending with
      | .exited code => after.finish code
      | .signalled s => after.finish (128 + s)
    | _ =>
      match (if Utility.special.contains name then none else st.functions.lookup name) with
      | some body =>
        -- a function runs in this shell with its own arguments, outside any loop
        let (after, flow) := exec fuel body fds { st with args, loops := 0 }
        let after := { after with args := st.args, loops := st.loops }
        match flow with
        | .returned code => after.finish code
        | .exit code => (after, .exit code)
        | .killed s => (after, .killed s)
        | _ => (after, .next)
      | none =>
      match Utility.find? name with
      | some run =>
        let (after, flow) := run withEnv fds args
        let keep := ["export", "unset", "read", "set", "shift", "cd", "local", "readonly"].contains name
        ((if keep && env.isEmpty then after else back after), flow)
      | none =>
        if name.contains '/' then
          if st.tree.exists_ ⟨name⟩ then
            (st.shellMessage fds (name ++ ": Permission denied")).finish 126
          else (st.shellMessage fds (name ++ ": not found")).finish 127
        else (st.shellMessage fds (name ++ ": not found")).finish 127

/-- Run a command. -/
def exec (fuel : Nat) (c : Command) (fds : Fds) (st : State) : State × Flow :=
  match fuel with
  | 0 => (st, .next)
  | fuel + 1 =>
    match c with
    | .simple assigns words rs line =>
      let st := { st with line }
      let (st, fields, flow) := expandWords fuel words st
      match flow with
      | .next =>
        let (st, values, flow) := assigns.foldl (fun (st, acc, flow) (n, w) =>
          match flow with
          | .next =>
            let (st, v, flow) := expandText fuel w st
            (st, acc ++ [(n, v)], flow)
          | _ => (st, acc, flow)) (st, [], Flow.next)
        match flow with
        | .next =>
          let (st, redirected, flow) := redirect fuel rs fds none st
          match flow with
          | .next =>
            match redirected with
            | .error msg => (st.shellMessage fds msg).finish 2
            | .ok (fds', input) =>
              if fields.isEmpty then
                let st := values.foldl (fun st (n, v) => st.set n v) st
                (st, .next)
              else
                let outer := st.input
                let st := match input with
                  | some text => { st with input := text }
                  | none => st
                let (st, flow) := invoke fuel fields values fds' st
                ((match input with
                  | some _ => { st with input := outer }
                  | none => st), flow)
          | f => (st, f)
        | f => (st, f)
      | f => (st, f)
    | .pipeline negated parts =>
      let (st, flow) := pipe fuel parts fds st.input st
      let st := if negated then { st with status := if st.status == 0 then 1 else 0 } else st
      (st, flow)
    | .both a b =>
      let (st, flow) := exec fuel a fds st
      match flow with
      | .next => if st.status == 0 then exec fuel b fds st else (st, .next)
      | f => (st, f)
    | .either a b =>
      let (st, flow) := exec fuel a fds st
      match flow with
      | .next => if st.status != 0 then exec fuel b fds st else (st, .next)
      | f => (st, f)
    | .sequence parts => sequence fuel parts fds st
    | .subshell body rs =>
      let (st, redirected, flow) := redirect fuel rs fds none st
      match flow, redirected with
      | .next, .ok (fds', input) =>
        let outer := st.input
        let (st, flow) := runCopy fuel body fds' (match input with
          | some t => { st with input := t }
          | none => st)
        ((match input with
          | some _ => { st with input := outer }
          | none => st), flow)
      | .next, .error msg => (st.shellMessage fds msg).finish 2
      | f, _ => (st, f)
    | .group body rs =>
      let (st, redirected, flow) := redirect fuel rs fds none st
      match flow, redirected with
      | .next, .ok (fds', input) =>
        let outer := st.input
        let (st, flow) := exec fuel body fds' (match input with
          | some t => { st with input := t }
          | none => st)
        ((match input with
          | some _ => { st with input := outer }
          | none => st), flow)
      | .next, .error msg => (st.shellMessage fds msg).finish 2
      | f, _ => (st, f)
    | .cond test yes no =>
      let (st, flow) := exec fuel test fds st
      match flow with
      | .next => if st.status == 0 then exec fuel yes fds st else
          match no with
          | .sequence [] => st.finish 0
          | _ => exec fuel no fds st
      | f => (st, f)
    | .forEach name items body =>
      let (st, values, flow) := match items with
        | some ws => expandWords fuel ws st
        | none => (st, st.args, .next)
      match flow with
      | .next => loopOver fuel name values body fds (st.finish 0).1
      | f => (st, f)
    | .repeatWhile negated test body => loopWhile fuel negated test body fds (st.finish 0).1
    | .choose subject arms =>
      let (st, text, flow) := expandText fuel subject st
      match flow with
      | .next => chooseArm fuel text arms fds st
      | f => (st, f)
    | .define name body =>
      let functions := (name, body) :: st.functions.filter (·.1 != name)
      ({ st with functions, status := 0 }, .next)

/-- Run the body of the first arm with a pattern matching `text`; when none matches, or the
body is empty, the status is `0`. -/
def chooseArm (fuel : Nat) (text : String) (arms : List (List Word × Command)) (fds : Fds)
    (st : State) : State × Flow :=
  match fuel, arms with
  | 0, _ => (st, .next)
  | _ + 1, [] => st.finish 0
  | fuel + 1, (patterns, body) :: rest =>
    let (st, hit, flow) := matchAny fuel text patterns st
    match flow with
    | .next =>
      if hit then
        match body with
        | .sequence [] => st.finish 0
        | _ => exec fuel body fds st
      else chooseArm fuel text rest fds st
    | f => (st, f)

/-- Whether one of the patterns matches `text`, expanding them in order up to the first that
does. -/
def matchAny (fuel : Nat) (text : String) (patterns : List Word) (st : State) :
    State × Bool × Flow :=
  match fuel, patterns with
  | 0, _ => (st, false, .next)
  | _ + 1, [] => (st, false, .next)
  | fuel + 1, w :: rest =>
    let (st, pattern, flow) := expandPattern fuel w st
    match flow with
    | .next => if Glob.fits pattern text then (st, true, .next) else matchAny fuel text rest st
    | f => (st, false, f)

/-- Run a script's tokens line by line: a line is read, then run, so a syntax error ends the
shell (with status 2) only after the lines before it ran. `exec` with redirections alone
redirects the lines after it. -/
def runLines (fuel : Nat) (source : String) (toks : List Token) (fds : Fds) (st : State) :
    State × Flow :=
  match fuel with
  | 0 => (st, .next)
  | fuel + 1 =>
    match nextLine (lastLine source) toks with
    | .error e =>
      (st.complain fds (st.name ++ ": " ++ toString e.line ++ ": Syntax error: " ++ e.text ++ "\n"),
        .exit 2)
    | .ok none => (st, .next)
    | .ok (some (c, rest)) =>
      match execRedirects? c with
      | some (rs, line) =>
        let (st, redirected, flow) := redirect fuel rs fds none { st with line }
        match flow, redirected with
        | .next, .ok (fds', _) => runLines fuel source rest fds' (st.finish 0).1
        | .next, .error msg => (st.shellMessage fds msg, .exit 2)
        | f, _ => (st, f)
      | none =>
        let (st, flow) := exec fuel c fds st
        match flow with
        | .next => runLines fuel source rest fds st
        | f => (st, f)

/-- Run commands one after the other, until one ends the shell. -/
def sequence (fuel : Nat) (parts : List Command) (fds : Fds) (st : State) : State × Flow :=
  match fuel, parts with
  | 0, _ => (st, .next)
  | _ + 1, [] => (st, .next)
  | fuel + 1, c :: rest =>
    match execRedirects? c with
    | some (rs, line) =>
      -- exec without a command redirects the shell itself, for the commands that follow
      let (st, redirected, flow) := redirect fuel rs fds none { st with line }
      match flow, redirected with
      | .next, .ok (fds', _) => sequence fuel rest fds' (st.finish 0).1
      | .next, .error msg => (st.shellMessage fds msg, .exit 2)
      | f, _ => (st, f)
    | none => step fuel c rest fds st

/-- Run a command, then the ones after it unless it ends the shell. -/
def step (fuel : Nat) (c : Command) (rest : List Command) (fds : Fds) (st : State) :
    State × Flow :=
  match fuel with
  | 0 => (st, .next)
  | fuel + 1 =>
    let (st, flow) := exec fuel c fds st
    match flow with
    | .next => sequence fuel rest fds st
    | f => (st, f)

/-- Run the body of a `for` loop once per value. -/
def loopOver (fuel : Nat) (name : String) (values : List String) (body : Command) (fds : Fds)
    (st : State) : State × Flow :=
  match fuel, values with
  | 0, _ => (st, .next)
  | _ + 1, [] => (st, .next)
  | fuel + 1, v :: rest =>
    let outer := st.loops
    let (st, flow) := exec fuel body fds { st.set name v with loops := outer + 1 }
    let st := { st with loops := outer }
    match flow with
    | .next | .continued 1 => loopOver fuel name rest body fds st
    | .broke 1 => (st, .next)
    | .broke (n + 2) => (st, .broke (n + 1))
    | .continued (n + 2) => (st, .continued (n + 1))
    | f => (st, f)

/-- Run the body of a `while` (or `until`) loop while its test succeeds (or fails). -/
def loopWhile (fuel : Nat) (negated : Bool) (test body : Command) (fds : Fds) (st : State) :
    State × Flow :=
  match fuel with
  | 0 => (st, .next)
  | fuel + 1 =>
    let last := st.status
    let outer := st.loops
    let inside := { st with loops := outer + 1 }
    let (st, flow) := exec fuel test fds inside
    let leave := fun (st : State) (flow : Flow) => match flow with
      | .broke 1 => ({ st with loops := outer }, Flow.next)
      | .broke (n + 2) => ({ st with loops := outer }, .broke (n + 1))
      | .continued (n + 2) => ({ st with loops := outer }, .continued (n + 1))
      | f => ({ st with loops := outer }, f)
    match flow with
    | .next =>
      if (st.status == 0) != negated then
        let (st, flow) := exec fuel body fds st
        match flow with
        | .next | .continued 1 => loopWhile fuel negated test body fds { st with loops := outer }
        | f => leave st f
      else ({ st with status := last, loops := outer }, .next)
    | .continued 1 => loopWhile fuel negated test body fds { st with loops := outer }
    | f => leave st f

end

/-- Run `sh` with its arguments over a file tree, with an environment and standard input, and
kill it once it would spend more than `budget` milliseconds, if given. -/
def runShell (tree : Tree) (args : List String) (env : List (String × String)) (input : String)
    (budget : Option Nat) : Outcome :=
  let st : State := { tree, input, budget, vars := env.map fun (k, v) => ⟨k, v, true⟩ }
  let (st, ending) := shell runFuel args {} st
  ⟨ending, st.output, st.errors, st.tree, st.elapsed⟩

/-- Run a utility as a program of its own, with an environment and standard input, and kill it
once it would spend more than `budget` milliseconds, if given. -/
def runUtility (tree : Tree) (name : String) (args : List String) (env : List (String × String))
    (input : String) (budget : Option Nat) : Outcome :=
  let st : State := { tree, input, budget, vars := env.map fun (k, v) => ⟨k, v, true⟩ }
  let (st, flow) := invoke runFuel (name :: args) [] {} st
  let ending := match flow with
    | .killed s => Ending.signalled s
    | .exit code | .returned code => .exited code
    | _ => .exited st.status
  ⟨ending, st.output, st.errors, st.tree, st.elapsed⟩

end Shell

end Campaign
