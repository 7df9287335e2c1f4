import Campaign.Shell.Text
import Campaign.Shell.Pattern

/-! The programs a stage script usually calls (`cat`, `grep`, `sort`, `mkdir`, `rm` and the like)
and the shell's own commands, over the shell's file tree and streams. Each reads its arguments,
writes to the descriptors it was given and ends with a status, and its failures are worded as
the utility words them in the C locale.
-/

namespace Campaign

namespace Shell

namespace Utility

/-- A utility: it runs on the shell with its descriptors and arguments. -/
abbrev Run := State → Fds → List String → State × Flow

/-- A name quoted as the utilities quote it in messages. -/
def quoteName (s : String) : String := "'" ++ s ++ "'"

/-- Flags given as `-abc` before the first operand, and the operands. -/
def splitFlags (args : List String) : List Char × List String :=
  let rec go : List String → List Char → List Char × List String
    | "--" :: rest, acc => (acc, rest)
    | a :: rest, acc =>
      if a.startsWith "-" && a.length > 1 then go rest (acc ++ (a.drop 1).toString.toList)
      else (acc, a :: rest)
    | [], acc => (acc, [])
  go args []

/-- The texts a utility reads: each named file, or standard input for `-` or when none is
named. A file that cannot be read is reported by `report` and makes the status 1. -/
def readAll (st : State) (fds : Fds) (files : List String) (report : String → IoError → String) :
    List (String × String) × State × Nat :=
  let files := if files.isEmpty then ["-"] else files
  files.foldl (fun (texts, st, status) f =>
    if f == "-" then
      let (t, st) := st.takeInput
      (texts ++ [(f, t)], st, status)
    else match st.tree.read ⟨f⟩ with
      | .ok t => (texts ++ [(f, t)], st, status)
      | .error e => (texts, st.complain fds (report f e), 1)) ([], st, 0)

/-- `cat`: the files named, or standard input, one after the other. -/
def cat : Run := fun st fds args =>
  let files := args.filter (· != "-u")
  let (texts, st, status) :=
    readAll st fds files fun f e => "cat: " ++ f ++ ": " ++ e.text ++ "\n"
  (texts.foldl (fun st (_, t) => st.say fds t) st).finish status

/-- The options of `grep`. -/
structure GrepOptions where
  invert : Bool := false
  count : Bool := false
  quiet : Bool := false
  ignoreCase : Bool := false
  whole : Bool := false
  extended : Bool := false
  fixed : Bool := false
  number : Bool := false
  noNames : Bool := false
  patterns : List String := []

/-- Read the options of `grep`, and the operands after them. -/
def grepOptions : Nat → List String → GrepOptions → GrepOptions × List String
  | 0, args, o => (o, args)
  | _ + 1, [], o => (o, [])
  | fuel + 1, a :: rest, o =>
    if a == "--" then (o, rest)
    else if a == "-e" then
      match rest with
      | p :: more => grepOptions fuel more { o with patterns := o.patterns ++ [p] }
      | [] => (o, [])
    else if a.startsWith "-" && a.length > 1 then
      let o := (a.drop 1).toString.toList.foldl (fun o c =>
        match c with
        | 'v' => { o with invert := true }
        | 'c' => { o with count := true }
        | 'q' => { o with quiet := true }
        | 's' => o
        | 'i' => { o with ignoreCase := true }
        | 'x' => { o with whole := true }
        | 'E' => { o with extended := true }
        | 'F' => { o with fixed := true }
        | 'n' => { o with number := true }
        | 'h' => { o with noNames := true }
        | _ => o) o
      grepOptions fuel rest o
    else (o, a :: rest)

/-- `grep`: the lines that match a pattern, or that do not with `-v`. -/
def grep : Run := fun st fds args =>
  let (o, operands) := grepOptions (args.length + 1) args {}
  let (o, files) := if o.patterns.isEmpty then
      match operands with
      | p :: rest => ({ o with patterns := [p] }, rest)
      | [] => (o, [])
    else (o, operands)
  if o.patterns.isEmpty then
    (st.complain fds "Usage: grep [OPTION]... PATTERNS [FILE]...\nTry 'grep --help' for more information.\n").finish 2
  else
    let regexes := o.patterns.flatMap (fun p => (p.splitOn "\n")) |>.filterMap
      (Regex.ofPattern · o.extended o.fixed)
    let (texts, st, failed) :=
      readAll st fds files fun f e => "grep: " ++ f ++ ": " ++ e.text ++ "\n"
    let named := texts.length > 1 && !o.noNames
    let (st, found) := texts.foldl (fun (st, found) (name, text) =>
      let numbered := (linesOf text).zipIdx
      let picked := numbered.filter fun (l, _) =>
        regexes.any (·.search o.ignoreCase o.whole l) != o.invert
      let lead := if named then name ++ ":" else ""
      let st :=
        if o.quiet then st
        else if o.count then st.say fds (lead ++ toString picked.length ++ "\n")
        else st.say fds (String.join (picked.map fun (l, i) =>
          lead ++ (if o.number then toString (i + 1) ++ ":" else "") ++ l ++ "\n"))
      (st, found || !picked.isEmpty)) (st, false)
    st.finish (if found && (o.quiet || failed == 0) then 0 else if failed != 0 then 2 else 1)

/-- The leading number of a line, as `sort -n` compares it: sign, whole part and fraction
digits. -/
def numericKey (line : String) : Bool × Nat × String :=
  let cs := line.toList.dropWhile (fun c => c == ' ' || c == '\t')
  let (neg, cs) := match cs with
    | '-' :: rest => (true, rest)
    | _ => (false, cs)
  let whole := cs.takeWhile Char.isDigit
  let frac := match cs.drop whole.length with
    | '.' :: rest => rest.takeWhile Char.isDigit
    | _ => []
  let w := whole.foldl (fun v d => v * 10 + (d.toNat - '0'.toNat)) 0
  let zero := w == 0 && frac.all (· == '0')
  (neg && !zero, w, String.ofList frac)

/-- Whether one numeric key comes before another. -/
def numericBefore (a b : Bool × Nat × String) : Bool :=
  let (na, wa, fa) := a
  let (nb, wb, fb) := b
  if na != nb then na
  else
    let less := wa < wb || (wa == wb && fa < fb)
    let more := wa > wb || (wa == wb && fa > fb)
    if na then more else less

/-- `sort`: the lines in order, by their bytes or (`-n`) their leading numbers, reversed with
`-r`, each once with `-u`. -/
def sort : Run := fun st fds args =>
  let (flags, files) := splitFlags args
  let (texts, st, status) :=
    readAll st fds files fun f e => "sort: cannot read: " ++ f ++ ": " ++ e.text ++ "\n"
  if status != 0 then st.finish 2
  else
    let lines := texts.flatMap fun (_, t) => linesOf t
    let numeric := flags.contains 'n'
    let before := fun (a b : String) =>
      if numeric then
        let ka := numericKey a
        let kb := numericKey b
        if numericBefore ka kb then true else if numericBefore kb ka then false else a ≤ b
      else a ≤ b
    let sorted := lines.mergeSort before
    let sorted := if flags.contains 'r' then sorted.reverse else sorted
    let sorted := if flags.contains 'u' then
        sorted.foldl (fun acc l =>
          let same := match acc.getLast? with
            | some p =>
              if numeric then !(numericBefore (numericKey p) (numericKey l)) &&
                !(numericBefore (numericKey l) (numericKey p))
              else p == l
            | none => false
          if same then acc else acc ++ [l]) []
      else sorted
    (st.say fds (unlines sorted)).finish 0

/-- The count given to `head` or `tail` as `-n N`, `-N` or `-c N`, whether it counts bytes,
and the files. -/
def countOption (args : List String) : Nat × Bool × List String :=
  match args with
  | "-n" :: n :: rest => ((n.dropWhile (· == '+')).toNat!, false, rest)
  | "-c" :: n :: rest => (n.toNat!, true, rest)
  | a :: rest =>
    if a.startsWith "-n" && a.length > 2 then ((a.drop 2).toNat!, false, rest)
    else if a.startsWith "-" && a.length > 1 && (a.drop 1).all Char.isDigit then
      ((a.drop 1).toNat!, false, rest)
    else (10, false, args)
  | [] => (10, false, [])

/-- `head`: the first lines (or bytes) of the input. -/
def head : Run := fun st fds args =>
  let (n, bytes, files) := countOption args
  let (texts, st, status) := readAll st fds files fun f e =>
    "head: cannot open " ++ quoteName f ++ " for reading: " ++ e.text ++ "\n"
  let st := texts.foldl (fun st (_, t) =>
    if bytes then st.say fds (String.ofList (t.toList.take n))
    else
      let ls := t.splitOn "\n"
      let kept := ls.take n
      let text := "\n".intercalate kept ++ (if ls.length > n then "\n" else "")
      st.say fds text) st
  st.finish status

/-- `tail`: the last lines of the input, or from line `N` on with `-n +N`. -/
def tail : Run := fun st fds args =>
  let fromStart := match args with
    | "-n" :: n :: _ => n.startsWith "+"
    | _ => false
  let (n, _, files) := countOption args
  let (texts, st, status) := readAll st fds files fun f e =>
    "tail: cannot open " ++ quoteName f ++ " for reading: " ++ e.text ++ "\n"
  let st := texts.foldl (fun st (_, t) =>
    let ls := linesOf t
    let kept := if fromStart then ls.drop (n - 1) else ls.drop (ls.length - n)
    let ended := t.endsWith "\n" || t.isEmpty
    let text := "\n".intercalate kept
    st.say fds (if kept.isEmpty then "" else if ended then text ++ "\n" else text)) st
  st.finish status

/-- The words of a text: its runs of non-blank characters. -/
def wordsOf (text : String) : List String :=
  (text.split (fun c => c == ' ' || c == '\t' || c == '\n' || c == '\r')).toList.map
    (·.toString) |>.filter (!·.isEmpty)

/-- `wc`: the lines, words and bytes of the input; one count alone is written bare. -/
def wc : Run := fun st fds args =>
  let (flags, files) := splitFlags args
  let flags := if flags.isEmpty then ['l', 'w', 'c'] else flags
  let (texts, st, status) :=
    readAll st fds files fun f e => "wc: " ++ f ++ ": " ++ e.text ++ "\n"
  let counts := fun (t : String) =>
    (if flags.contains 'l' then [(t.toList.filter (· == '\n')).length] else []) ++
    (if flags.contains 'w' then [(wordsOf t).length] else []) ++
    (if flags.contains 'm' then [t.length] else []) ++
    (if flags.contains 'c' then [t.utf8ByteSize] else [])
  let render := fun (ns : List Nat) =>
    if ns.length == 1 && files.length ≤ 1 then toString ns.head!
    else " ".intercalate (ns.map fun n =>
      let s := toString n
      String.ofList (List.replicate (7 - min 7 s.length) ' ') ++ s)
  let st := texts.foldl (fun st (name, t) =>
    st.say fds (render (counts t) ++ (if name == "-" then "" else " " ++ name) ++ "\n")) st
  st.finish status

/-- The characters a set of `tr` stands for, with ranges and escapes. -/
def trSet : Nat → List Char → List Char
  | 0, _ => []
  | _ + 1, [] => []
  | fuel + 1, '\\' :: c :: rest =>
    (Text.escapeChar c).getD c :: trSet fuel rest
  | fuel + 1, a :: '-' :: b :: rest =>
    if a ≤ b then ((List.range (b.toNat - a.toNat + 1)).map fun i => Char.ofNat (a.toNat + i)) ++
      trSet fuel rest
    else a :: trSet fuel ('-' :: b :: rest)
  | fuel + 1, c :: rest => c :: trSet fuel rest

/-- `tr`: standard input with the characters of one set replaced by those of another, or
(`-d`) removed. -/
def tr : Run := fun st fds args =>
  let (input, st) := st.takeInput
  match args with
  | ["-d", set] =>
    let del := trSet (set.length + 1) set.toList
    (st.say fds (String.ofList (input.toList.filter (!del.contains ·)))).finish 0
  | [a, b] =>
    let from_ := trSet (a.length + 1) a.toList
    let to_ := trSet (b.length + 1) b.toList
    let last := to_.getLast?.getD ' '
    let mapped := input.toList.map fun c =>
      match from_.idxOf? c with
      | some i => to_.getD i last
      | none => c
    (st.say fds (String.ofList mapped)).finish 0
  | _ => (st.complain fds "tr: missing operand\n").finish 1

/-- The name of a place. -/
def placeName (place : List String) : String := place.getLast?.getD "/"

/-- `ls`: the names in each directory named (or the working directory), in byte order, one
per line; a file named is listed as named. -/
def ls : Run := fun st fds args =>
  let (flags, paths) := splitFlags args
  let all := flags.contains 'a'
  let paths := if paths.isEmpty then ["."] else paths
  let (st, status) := paths.foldl (fun (st, status) p =>
    match st.tree.stat ⟨p⟩, st.tree.locate ⟨p⟩ with
    | .ok .dir, .ok place =>
      let names := (st.tree.below place).filterMap fun (q, _) =>
        if q.length == place.length + 1 then q.getLast? else none
      let names := names.filter fun n => all || !n.startsWith "."
      let names := names.mergeSort (· ≤ ·)
      let header := if paths.length > 1 then p ++ ":\n" else ""
      (st.say fds (header ++ unlines names), status)
    | .ok _, _ => (st.say fds (p ++ "\n"), status)
    | .error e, _ =>
      (st.complain fds ("ls: cannot access " ++ quoteName p ++ ": " ++ e.text ++ "\n"), 2)
    ) (st, 0)
  st.finish status

/-- `mkdir`: make directories, with the missing ones above them under `-p`. -/
def mkdir : Run := fun st fds args =>
  let (flags, dirs) := splitFlags args
  let parents := flags.contains 'p'
  let (st, status) := dirs.foldl (fun (st, status) d =>
    let made := if parents then st.tree.createDirAll ⟨d⟩ else st.tree.mkdir ⟨d⟩
    match made with
    | .ok t => ({ st with tree := t }, status)
    | .error e =>
      (st.complain fds ("mkdir: cannot create directory " ++ quoteName d ++ ": " ++ e.text ++
        "\n"), 1)) (st, 0)
  st.finish status

/-- `rm`: remove files, and directories with everything in them under `-r`; `-f` keeps quiet
about what is missing. -/
def rm : Run := fun st fds args =>
  let (flags, paths) := splitFlags args
  let force := flags.contains 'f'
  let recursive := flags.contains 'r' || flags.contains 'R'
  let (st, status) := paths.foldl (fun (st, status) p =>
    let fail := fun (e : IoError) =>
      (st.complain fds ("rm: cannot remove " ++ quoteName p ++ ": " ++ e.text ++ "\n"), 1)
    match st.tree.stat ⟨p⟩ with
    | .ok .dir =>
      if recursive then
        match st.tree.removeDirAll ⟨p⟩ with
        | .ok t => ({ st with tree := t }, status)
        | .error e => fail e
      else fail IoError.isADirectory
    | .ok _ =>
      match st.tree.removeFile ⟨p⟩ with
      | .ok t => ({ st with tree := t }, status)
      | .error e => fail e
    | .error e => if force then (st, status) else fail e) (st, 0)
  st.finish status

/-- `touch`: make each file that is missing. -/
def touch : Run := fun st fds args =>
  let (_, paths) := splitFlags args
  let (st, status) := paths.foldl (fun (st, status) p =>
    if st.tree.exists_ ⟨p⟩ then (st, status)
    else match st.tree.write ⟨p⟩ "" with
      | .ok t => ({ st with tree := t }, status)
      | .error e =>
        (st.complain fds ("touch: cannot touch " ++ quoteName p ++ ": " ++ e.text ++ "\n"), 1))
    (st, 0)
  st.finish status

/-- The last component of a path, as `basename` gives it. -/
def baseName (p : String) : String :=
  let trimmed := (p.toList.reverse.dropWhile (· == '/')).reverse
  if trimmed.isEmpty then (if p.isEmpty then "" else "/")
  else String.ofList (trimmed.reverse.takeWhile (· != '/')).reverse

/-- The path without its last component, as `dirname` gives it. -/
def dirName (p : String) : String :=
  let trimmed := (p.toList.reverse.dropWhile (· == '/')).reverse
  if trimmed.isEmpty then (if p.startsWith "/" then "/" else ".")
  else
    let before := (trimmed.reverse.dropWhile (· != '/')).reverse
    if before.isEmpty then "."
    else
      let kept := (before.reverse.dropWhile (· == '/')).reverse
      if kept.isEmpty then "/" else String.ofList kept

/-- `cp`: copy a file to a file, or into a directory. -/
def cp : Run := fun st fds args =>
  let (_, paths) := splitFlags args
  match paths.reverse with
  | dst :: srcsRev@(_ :: _) =>
    let srcs := srcsRev.reverse
    let intoDir := st.tree.isDir ⟨dst⟩
    let (st, status) := srcs.foldl (fun (st, status) src =>
      match st.tree.stat ⟨src⟩ with
      | .error e =>
        (st.complain fds ("cp: cannot stat " ++ quoteName src ++ ": " ++ e.text ++ "\n"), 1)
      | .ok .dir =>
        (st.complain fds ("cp: -r not specified; omitting directory " ++ quoteName src ++ "\n"), 1)
      | .ok _ =>
        let target : Path := if intoDir then (Path.mk dst).join (baseName src) else ⟨dst⟩
        match st.tree.copy ⟨src⟩ target with
        | .ok t => ({ st with tree := t }, status)
        | .error e =>
          (st.complain fds ("cp: cannot create regular file " ++ quoteName target.text ++ ": " ++
            e.text ++ "\n"), 1)) (st, 0)
    st.finish status
  | _ => (st.complain fds "cp: missing file operand\n").finish 1

/-- `basename`: the last component of a path, without a suffix when one is given. -/
def basename : Run := fun st fds args =>
  match args with
  | [p] => (st.say fds (baseName p ++ "\n")).finish 0
  | [p, suffix] =>
    let b := baseName p
    let b := if b.endsWith suffix && b != suffix then (b.dropEnd suffix.length).toString else b
    (st.say fds (b ++ "\n")).finish 0
  | _ => (st.complain fds "basename: missing operand\n").finish 1

/-- `dirname`: each path without its last component. -/
def dirname : Run := fun st fds args =>
  if args.isEmpty then (st.complain fds "dirname: missing operand\n").finish 1
  else (st.say fds (unlines (args.map dirName))).finish 0

/-- `seq`: the whole numbers from a first to a last, by a step. -/
def seq : Run := fun st fds args =>
  let nums := args.map String.toInt?
  let (first, step, last) := match nums with
    | [some l] => (some 1, some 1, some l)
    | [some f, some l] => (some f, some 1, some l)
    | [some f, some s, some l] => (some f, some s, some l)
    | _ => (none, none, none)
  match first, step, last with
  | some f, some s, some l =>
    if s == 0 then (st.complain fds "seq: invalid Zero increment value: '0'\n").finish 1
    else
      let count := if s > 0 then (if l < f then 0 else ((l - f) / s).toNat + 1)
        else (if l > f then 0 else ((f - l) / (-s)).toNat + 1)
      let values := (List.range count).map fun (i : Nat) => f + s * Int.ofNat i
      (st.say fds (unlines (values.map toString))).finish 0
  | _, _, _ => (st.complain fds "seq: missing operand\n").finish 1

/-- `printenv`: the environment, or the value of each variable named. -/
def printenv : Run := fun st fds args =>
  let env := st.environment
  if args.isEmpty then
    (st.say fds (unlines (env.map fun (k, v) => k ++ "=" ++ v))).finish 0
  else
    let found := args.filterMap fun a => env.lookup a
    (st.say fds (unlines found)).finish (if found.length == args.length then 0 else 1)

/-- The milliseconds a `sleep` operand stands for: a decimal number of seconds, with a suffix
`s`, `m`, `h` or `d` for seconds, minutes, hours or days, rounded up to a whole millisecond. -/
def sleepMs (operand : String) : Option Nat :=
  let cs := operand.toList
  let (number, unit) := match cs.getLast? with
    | some 's' => (cs.dropLast, 1)
    | some 'm' => (cs.dropLast, 60)
    | some 'h' => (cs.dropLast, 3600)
    | some 'd' => (cs.dropLast, 86400)
    | _ => (cs, 1)
  let whole := number.takeWhile Char.isDigit
  let fraction := match number.drop whole.length with
    | [] => some []
    | '.' :: digits => if digits.all Char.isDigit then some digits else none
    | _ => none
  match fraction with
  | some digits =>
    if whole.isEmpty && digits.isEmpty then none
    else
      let scale := Nat.pow 10 digits.length
      let value := (String.ofList whole).toNat! * scale + (String.ofList digits).toNat!
      some ((value * unit * 1000 + scale - 1) / scale)
  | none => none

/-- `sleep`: let the time its operands add up to pass. -/
def sleep : Run := fun st fds args =>
  if args.isEmpty then
    (st.complain fds "sleep: missing operand\nTry 'sleep --help' for more information.\n").finish 1
  else
    match args.find? fun a => (sleepMs a).isNone with
    | some bad =>
      (st.complain fds ("sleep: invalid time interval '" ++ bad ++
        "'\nTry 'sleep --help' for more information.\n")).finish 1
    | none => st.pass ((args.filterMap sleepMs).foldr (· + ·) 0)

/-- The number of a signal, by number or by name with or without `SIG`. -/
def signalNumber (s : String) : Option Nat :=
  if !s.isEmpty && s.all Char.isDigit then some s.toNat!
  else
    let name := if s.startsWith "SIG" then (s.drop 3).toString else s
    let names := ["HUP", "INT", "QUIT", "ILL", "TRAP", "ABRT", "BUS", "FPE", "KILL", "USR1",
      "SEGV", "USR2", "PIPE", "ALRM", "TERM", "STKFLT", "CHLD", "CONT", "STOP", "TSTP", "TTIN",
      "TTOU", "URG", "XCPU", "XFSZ", "VTALRM", "PROF", "WINCH", "IO", "PWR", "SYS"]
    if name == "EXIT" then some 0
    else (names.idxOf? name).map (· + 1)

/-- Whether a signal ends a process that does not handle it. -/
def ends (signal : Nat) : Bool :=
  signal != 0 && !([17, 18, 19, 20, 21, 22, 23, 28].contains signal)

/-- `kill`: send a signal (`TERM` unless named) to processes; the only process there is to
reach is the shell itself. -/
def kill : Run := fun st fds args =>
  let (signal, pids) := match args with
    | "-s" :: name :: rest => (signalNumber name, rest)
    | a :: rest => if a.startsWith "-" && a.length > 1 then (signalNumber (a.drop 1).toString, rest)
      else (some 15, args)
    | [] => (some 15, [])
  match signal with
  | none =>
    let name := match args with
      | "-s" :: n :: _ => n
      | a :: _ => (a.drop 1).toString
      | [] => ""
    (st.shellMessage fds ("kill: invalid signal number or name: " ++ name)).finish 2
  | some sig =>
    if pids.isEmpty then
      (st.shellMessage fds "kill: Usage: kill [-s sigspec | -signum | -sigspec] [pid | job]... or\nkill -l [exitstatus]").finish 2
    else
      pids.foldl (fun (st, flow) p =>
        match flow with
        | .next =>
          if p.toNat? == some st.pid || p == "0" then
            if ends sig then ({ st with status := 128 + sig }, .killed sig) else st.finish 0
          else
            match p.toInt? with
            | some _ => (st.shellMessage fds "kill: No such process").finish 1
            | none => (st.shellMessage fds ("kill: Illegal number: " ++ p)).finish 2
        | _ => (st, flow)) (st.finish 0)

/-- A whole number as `test` reads it, with blanks around allowed. -/
def testNumber (s : String) : Option Int :=
  (s.trimAscii.toString).toInt?

/-- The result of `test` on its arguments, or the message of a misuse. -/
def testOf (t : Tree) (args : List String) : Except String Bool :=
  let unary := fun (op a : String) =>
    match op with
    | "-n" => some (.ok (!a.isEmpty))
    | "-z" => some (.ok a.isEmpty)
    | "-e" => some (.ok (t.exists_ ⟨a⟩))
    | "-f" => some (.ok (match t.stat ⟨a⟩ with | .ok (.file _) => true | _ => false))
    | "-d" => some (.ok (t.isDir ⟨a⟩))
    | "-s" => some (.ok (match t.read ⟨a⟩ with | .ok c => !c.isEmpty | _ => t.isDir ⟨a⟩))
    | "-r" => some (.ok (t.exists_ ⟨a⟩))
    | "-w" => some (.ok (t.exists_ ⟨a⟩))
    | "-x" => some (.ok (t.isDir ⟨a⟩))
    | "-L" => some (.ok false)
    | "-h" => some (.ok false)
    | "-t" => some (.ok false)
    | _ => none
  let binary := fun (a op b : String) =>
    let num := fun (f : Int → Int → Bool) =>
      match testNumber a, testNumber b with
      | some x, some y => some (.ok (f x y))
      | none, _ => some (.error ("Illegal number: " ++ a))
      | _, none => some (.error ("Illegal number: " ++ b))
    match op with
    | "=" => some (.ok (a == b))
    | "!=" => some (.ok (a != b))
    | "-eq" => num (· == ·)
    | "-ne" => num (· != ·)
    | "-lt" => num (· < ·)
    | "-le" => num (· ≤ ·)
    | "-gt" => num (· > ·)
    | "-ge" => num (· ≥ ·)
    | _ => none
  let one := fun (a : String) => Except.ok (!a.isEmpty)
  let two := fun (a b : String) =>
    if a == "!" then (one b).map (!·)
    else match unary a b with
      | some r => r
      | none => .error (a ++ ": unexpected operator")
  let three := fun (a b c : String) =>
    match binary a b c with
    | some r => r
    | none =>
      if a == "!" then (two b c).map (!·)
      else if a == "(" && c == ")" then one b
      else .error (b ++ ": unexpected operator")
  match args with
  | [] => .ok false
  | [a] => one a
  | [a, b] => two a b
  | [a, b, c] => three a b c
  | [a, b, c, d] =>
    if a == "!" then (three b c d).map (!·)
    else if a == "(" && d == ")" then two b c
    else .error (d ++ ": unexpected operator")
  | _ :: _ :: _ :: _ :: e :: _ => .error (e ++ ": unexpected operator")

/-- `test`, or `[` with its closing `]`. -/
def test (bracket : Bool) : Run := fun st fds args =>
  let name := if bracket then "[" else "test"
  let args := if bracket then
      if args.getLast? == some "]" then some args.dropLast else none
    else some args
  match args with
  | none => (st.shellMessage fds "[: missing ]").finish 2
  | some args =>
    match testOf st.tree args with
    | .ok b => st.finish (if b then 0 else 1)
    | .error msg => (st.shellMessage fds (name ++ ": " ++ msg)).finish 2

/-- Split a line read by `read` into the values of `n` variables: fields at blanks, the last
variable taking the rest of the line. -/
def readFields (line : String) : Nat → List String
  | 0 => []
  | 1 => [line.trimAscii.toString]
  | n + 1 =>
    let cs := line.toList.dropWhile (fun c => c == ' ' || c == '\t')
    let field := cs.takeWhile (fun c => c != ' ' && c != '\t')
    String.ofList field :: readFields (String.ofList (cs.drop field.length)) n

/-- `read`: the next line of standard input into variables; at the end of the input the status
is 1. -/
def read : Run := fun st _ args =>
  let names := args.filter (· != "-r")
  let (line, st) := st.takeLine
  let values := readFields (line.getD "") names.length
  let st := (names.zip (values ++ List.replicate names.length "")).foldl
    (fun st (n, v) => st.set n v) st
  st.finish (if line.isSome then 0 else 1)

/-- `cd`: change the working directory. -/
def cd : Run := fun st fds args =>
  match args with
  | d :: _ =>
    match st.tree.stat ⟨d⟩, st.tree.locate ⟨d⟩ with
    | .ok .dir, .ok place => st.finish 0 |>.map (fun st => { st with tree.cwd := place }) id
    | _, _ => (st.shellMessage fds ("cd: can't cd to " ++ d)).finish 2
  | [] => st.finish 0

/-- `export`: mark variables exported, setting those given a value. -/
def exportVars : Run := fun st _ args =>
  let st := args.foldl (fun st a =>
    match a.splitOn "=" with
    | [name] => st.assign name ((st.get? name).getD "") true
    | name :: rest => st.assign name ("=".intercalate rest) true
    | [] => st) st
  st.finish 0

/-- `local` and `readonly`: set the variables given a value; a name alone keeps its value. -/
def setVars : Run := fun st _ args =>
  let st := (args.filter (!·.startsWith "-")).foldl (fun st a =>
    match a.splitOn "=" with
    | name :: v :: rest => st.set name ("=".intercalate (v :: rest))
    | _ => st) st
  st.finish 0

/-- `unset`: remove variables. -/
def unsetVars : Run := fun st _ args =>
  (args.filter (!·.startsWith "-")).foldl (fun st n => st.unset n) st |>.finish 0

/-- `shift`: drop the first arguments. -/
def shift : Run := fun st fds args =>
  let n := match args with
    | a :: _ => a.toNat?.getD 1
    | [] => 1
  if n > st.args.length then
    let st := st.shellMessage fds "shift: can't shift that many"
    ({ st with status := 2 }, .exit 2)
  else st.finish 0 |>.map (fun st => { st with args := st.args.drop n }) id

/-- `set`: with `--`, set the arguments; options are accepted and have no effect. -/
def setArgs : Run := fun st _ args =>
  match args with
  | "--" :: rest => st.finish 0 |>.map (fun st => { st with args := rest }) id
  | _ => st.finish 0

/-- `exit`: end the shell with a status, by default that of the last command. -/
def exit : Run := fun st fds args =>
  match args with
  | [] => ({ st with status := st.status }, .exit st.status)
  | a :: _ =>
    match a.toNat? with
    | some n => ({ st with status := n % 256 }, .exit (n % 256))
    | none =>
      let st := st.shellMessage fds ("exit: Illegal number: " ++ a)
      ({ st with status := 2 }, .exit 2)

/-- `echo`, as the shell has it. -/
def echo : Run := fun st fds args => (st.say fds (Text.echo args)).finish 0

/-- `printf`, as the shell has it. -/
def printf : Run := fun st fds args =>
  match args with
  | [] => (st.shellMessage fds "printf: usage: printf format [arg ...]").finish 2
  | format :: rest =>
    let (text, bad) := Text.printf format rest
    let st := st.say fds text
    let st := bad.foldl (fun st b => st.shellMessage fds ("printf: " ++ b)) st
    st.finish (if bad.isEmpty then 0 else 1)

/-- Whether a value of `expr` counts as null: empty, or the number zero. -/
def exprNull (v : String) : Bool := v.isEmpty || v.toInt? == some 0

/-- A failure of `expr`: its exit code and message. -/
abbrev ExprFault := Nat × String

/-- The integers of two operands of `expr`. -/
def exprInts (a b : String) : Except ExprFault (Int × Int) :=
  match a.toInt?, b.toInt? with
  | some x, some y => .ok (x, y)
  | _, _ => .error (2, "non-integer argument")

/-- Apply an operator of `expr` to two values. -/
def exprApply (op a b : String) : Except ExprFault String :=
  match op with
  | "|" => .ok (if !exprNull a then a else if exprNull b then "0" else b)
  | "&" => .ok (if exprNull a || exprNull b then "0" else a)
  | "+" | "-" | "*" | "/" | "%" => do
    let (x, y) ← exprInts a b
    match op with
    | "+" => return toString (x + y)
    | "-" => return toString (x - y)
    | "*" => return toString (x * y)
    | _ =>
      if y == 0 then throw (2, "division by zero")
      else return toString (if op == "/" then x.tdiv y else x.tmod y)
  | ":" =>
    match Regex.ofPattern b false false with
    | some r =>
      let cs := a.toList
      let rests := Regex.ends false cs.length (4 * (cs.length + 2) * (cs.length + 2)) r cs
      let longest := rests.foldl (fun m rest => max m (cs.length - rest.length)) 0
      .ok (if rests.isEmpty then "0" else toString longest)
    | none => .error (2, "Invalid regular expression")
  | _ =>
    let ord := match a.toInt?, b.toInt? with
      | some x, some y => compare x y
      | _, _ => compare a b
    let holds : Bool := match op with
      | "<" => ord == .lt
      | "<=" => ord != .gt
      | "=" | "==" => ord == .eq
      | "!=" => ord != .eq
      | ">=" => ord != .lt
      | _ => ord == .gt
    .ok (if holds then "1" else "0")

/-- The operators of `expr` by level, from the loosest. -/
def exprLevels : List (List String) :=
  [["|"], ["&"], ["<", "<=", "=", "==", "!=", ">=", ">"], ["+", "-"], ["*", "/", "%"], [":"]]

mutual

/-- An expression of `expr` at the levels `ls`, left to right within a level. -/
def exprLevel : Nat → List (List String) → List String → Except ExprFault (String × List String)
  | 0, _, _ => .error (2, "syntax error")
  | fuel + 1, [], toks => exprPrimary fuel toks
  | fuel + 1, ops :: tighter, toks => do
    let (first, rest) ← exprLevel fuel tighter toks
    exprTail fuel ops tighter first rest

/-- The operands after the first of a level of `expr`. -/
def exprTail : Nat → List String → List (List String) → String → List String →
    Except ExprFault (String × List String)
  | 0, _, _, acc, toks => .ok (acc, toks)
  | fuel + 1, ops, tighter, acc, toks =>
    match toks with
    | op :: rest =>
      if ops.contains op then
        if rest.isEmpty then .error (2, "syntax error: missing argument after '" ++ op ++ "'")
        else do
          let (next, after) ← exprLevel fuel tighter rest
          exprTail fuel ops tighter (← exprApply op acc next) after
      else .ok (acc, toks)
    | [] => .ok (acc, toks)

/-- A primary of `expr`: a group, `length` of a text, a quoted text after `+`, or a text. -/
def exprPrimary : Nat → List String → Except ExprFault (String × List String)
  | 0, _ => .error (2, "syntax error")
  | _ + 1, [] => .error (2, "syntax error")
  | fuel + 1, tok :: rest =>
    if tok == "(" then do
      let (v, after) ← exprLevel fuel exprLevels rest
      match after with
      | ")" :: more => return (v, more)
      | _ => throw (2, "syntax error: expecting ')' after '" ++ v ++ "'")
    else if tok == "length" && !rest.isEmpty then
      match rest with
      | t :: more => .ok (toString t.length, more)
      | [] => .ok ("0", [])
    else if tok == "+" && !rest.isEmpty then
      match rest with
      | t :: more => .ok (t, more)
      | [] => .ok ("", [])
    else if tok == ")" then .error (2, "syntax error: unexpected argument ')'")
    else .ok (tok, rest)

end

/-- `expr`: the value of an expression given as arguments; the status says whether it is
null. -/
def expr : Run := fun st fds args =>
  if args.isEmpty then
    (st.complain fds "expr: missing operand\nTry 'expr --help' for more information.\n").finish 2
  else
    match exprLevel (4 * args.length + 8) exprLevels args with
    | .ok (v, []) => (st.say fds (v ++ "\n")).finish (if exprNull v then 1 else 0)
    | .ok (_, extra :: _) =>
      (st.complain fds ("expr: syntax error: unexpected argument '" ++ extra ++ "'\n")).finish 2
    | .error (code, msg) => (st.complain fds ("expr: " ++ msg ++ "\n")).finish code

/-- `return`: return from the function or script being run, with a code or the last status. -/
def returnFrom : Run := fun st fds args =>
  match args with
  | [] => (st, .returned st.status)
  | n :: _ =>
    match n.toNat? with
    | some v => ({ st with status := v % 256 }, .returned (v % 256))
    | none => ({ st.shellMessage fds ("return: Illegal number: " ++ n) with status := 2 }, .exit 2)

/-- `break` and `continue`: leave (or go on with the next round of) as many enclosing loops as
asked, at most as many as there are; outside a loop they do nothing. -/
def leaveLoops (continuing : Bool) : Run := fun st fds args =>
  let name := if continuing then "continue" else "break"
  let count := match args with
    | [] => some 1
    | n :: _ => n.toNat?.bind fun v => if v == 0 then none else some v
  match count with
  | some n =>
    let k := min n st.loops
    if k == 0 then st.finish 0
    else ({ st with status := 0 }, if continuing then .continued k else .broke k)
  | none =>
    ({ st.shellMessage fds (name ++ ": Illegal number: " ++ args.headD "") with status := 2 },
      .exit 2)

/-- The special built-ins: found before the functions. -/
def special : List String :=
  ["break", ":", "continue", ".", "eval", "exec", "exit", "export", "readonly", "return", "set",
   "shift", "times", "trap", "unset"]

/-- The utilities by name, those the shell has built in among them. -/
def find? (name : String) : Option Run :=
  match name with
  | "cat" => some cat
  | "grep" => some grep
  | "sort" => some sort
  | "head" => some head
  | "tail" => some tail
  | "wc" => some wc
  | "tr" => some tr
  | "ls" => some ls
  | "mkdir" => some mkdir
  | "rm" => some rm
  | "touch" => some touch
  | "cp" => some cp
  | "basename" => some basename
  | "dirname" => some dirname
  | "seq" => some seq
  | "printenv" => some printenv
  | "expr" => some expr
  | "sleep" => some sleep
  | "true" => some fun st _ _ => st.finish 0
  | ":" => some fun st _ _ => st.finish 0
  | "false" => some fun st _ _ => st.finish 1
  | "test" => some (test false)
  | "[" => some (test true)
  | "kill" => some kill
  | "read" => some read
  | "cd" => some cd
  | "export" => some exportVars
  | "local" => some setVars
  | "readonly" => some setVars
  | "unset" => some unsetVars
  | "shift" => some shift
  | "set" => some setArgs
  | "exit" => some exit
  | "return" => some returnFrom
  | "break" => some (leaveLoops false)
  | "continue" => some (leaveLoops true)
  | "echo" => some echo
  | "printf" => some printf
  | _ => none

end Utility

end Shell

end Campaign
