/-! `grep`'s regular expressions, basic, extended (`-E`) or fixed (`-F`), match a line when some
start has an end among the places a match from it can end; `*` repeats while a repetition
consumes characters, which bounds it by the line's length. The shell's own patterns (`case`,
prefix and suffix removal) match a whole text with `*`, `?` and bracket expressions.
-/

namespace Campaign

namespace Shell

/-- A regular expression. -/
inductive Regex where
  | empty
  | char (c : Char)
  | any
  | bracket (negated : Bool) (ranges : List (Char × Char))
  | seq (first second : Regex)
  | alt (left right : Regex)
  | star (r : Regex)
  | lineStart
  | lineEnd
  deriving Repr, Inhabited

namespace Regex

/-- A regular expression matching one more or none of `r`. -/
def optional (r : Regex) : Regex := .alt r .empty

/-- A regular expression matching `r` once or more. -/
def plus (r : Regex) : Regex := .seq r (.star r)

/-- Characters compared without case when `fold`. -/
def fold (ignoreCase : Bool) (c : Char) : Char := if ignoreCase then c.toLower else c

/-- Whether a character is in a bracket expression's ranges. -/
def inRanges (ignoreCase : Bool) (ranges : List (Char × Char)) (c : Char) : Bool :=
  ranges.any fun (lo, hi) =>
    (lo ≤ c && c ≤ hi) ||
      (ignoreCase && ((lo ≤ c.toLower && c.toLower ≤ hi) || (lo ≤ c.toUpper && c.toUpper ≤ hi)))

/-- The remainders of `cs` after each way `r` can match at its start; `total` is the length
of the whole line, so that anchors know where they are. -/
def ends (ignoreCase : Bool) (total : Nat) : Nat → Regex → List Char → List (List Char)
  | 0, _, _ => []
  | _ + 1, .empty, cs => [cs]
  | _ + 1, .char c, d :: rest => if fold ignoreCase c == fold ignoreCase d then [rest] else []
  | _ + 1, .char _, [] => []
  | _ + 1, .any, _ :: rest => [rest]
  | _ + 1, .any, [] => []
  | _ + 1, .bracket neg ranges, d :: rest =>
    if inRanges ignoreCase ranges d != neg then [rest] else []
  | _ + 1, .bracket _ _, [] => []
  | _ + 1, .lineStart, cs => if cs.length == total then [cs] else []
  | _ + 1, .lineEnd, cs => if cs.isEmpty then [cs] else []
  | fuel + 1, .seq a b, cs =>
    (ends ignoreCase total fuel a cs).flatMap (ends ignoreCase total fuel b)
  | fuel + 1, .alt a b, cs => ends ignoreCase total fuel a cs ++ ends ignoreCase total fuel b cs
  | fuel + 1, .star r, cs =>
    cs :: ((ends ignoreCase total fuel r cs).filter (·.length < cs.length)).flatMap
      (ends ignoreCase total fuel (.star r))

/-- Whether `r` matches somewhere in `line`, or the whole line when `whole`. -/
def search (r : Regex) (ignoreCase whole : Bool) (line : String) : Bool :=
  let cs := line.toList
  let fuel := 4 * (cs.length + 2) * (cs.length + 2)
  let starts := if whole then [cs] else (List.range (cs.length + 1)).map cs.drop
  starts.any fun s =>
    let rs := ends ignoreCase cs.length fuel r s
    if whole then rs.any (·.isEmpty) else !rs.isEmpty

end Regex

namespace Pattern

/-- The named classes of bracket expressions. -/
def namedClass : String → List (Char × Char)
  | "alpha" => [('a', 'z'), ('A', 'Z')]
  | "digit" => [('0', '9')]
  | "alnum" => [('a', 'z'), ('A', 'Z'), ('0', '9')]
  | "upper" => [('A', 'Z')]
  | "lower" => [('a', 'z')]
  | "space" => [(' ', ' '), ('\t', '\r')]
  | "blank" => [(' ', ' '), ('\t', '\t')]
  | "xdigit" => [('0', '9'), ('a', 'f'), ('A', 'F')]
  | "punct" => [('!', '/'), (':', '@'), ('[', '`'), ('\x7b', '~')]
  | _ => []

/-- The items of a bracket expression after its `[` (and `^`), up to its `]`. -/
def bracketItems : Nat → List Char → Bool → List (Char × Char) →
    Option (List (Char × Char) × List Char)
  | 0, _, _, _ => none
  | _ + 1, [], _, _ => none
  | fuel + 1, c :: rest, first, acc =>
    if c == ']' && !first then some (acc, rest)
    else if c == '[' && rest.head? == some ':' then
      let name := rest.tail.takeWhile (· != ':')
      let after := rest.tail.drop name.length
      match after with
      | ':' :: ']' :: more => bracketItems fuel more false (acc ++ namedClass (String.ofList name))
      | _ => bracketItems fuel rest false (acc ++ [(c, c)])
    else match rest with
      | '-' :: hi :: more =>
        if hi != ']' then bracketItems fuel more false (acc ++ [(c, hi)])
        else bracketItems fuel rest false (acc ++ [(c, c)])
      | _ => bracketItems fuel rest false (acc ++ [(c, c)])

/-- Join the pieces of a branch in order. -/
def seqAll (rs : List Regex) : Regex :=
  rs.foldr (fun r acc => match acc with
    | .empty => r
    | _ => .seq r acc) .empty

/-- Join branches as alternatives. -/
def altAll : List Regex → Regex
  | [] => .empty
  | [r] => r
  | r :: rest => .alt r (altAll rest)

/-- Apply a repetition to the last piece of a branch. -/
def repeatLast (f : Regex → Regex) (branch : List Regex) (c : Char) : List Regex :=
  match branch.getLast? with
  | some r => branch.dropLast ++ [f r]
  | none => [.char c]

/-- Read an expression: the branches of the current group, the pieces of the current branch,
and the enclosing groups, each with its branches and pieces. -/
def build (extended : Bool) : Nat → List Char → List (List Regex) → List Regex →
    List (List (List Regex) × List Regex) → Option Regex
  | 0, _, _, _, _ => none
  | _ + 1, [], branches, cur, [] => some (altAll ((branches ++ [cur]).map seqAll))
  | _ + 1, [], _, _, _ :: _ => none
  | fuel + 1, c :: rest, branches, cur, outer =>
    let atStart := cur.isEmpty
    let openGroup := fun more => build extended fuel more [] [] ((branches, cur) :: outer)
    let closeGroup := fun more =>
      match outer with
      | (bs, pieces) :: up =>
        build extended fuel more bs (pieces ++ [altAll ((branches ++ [cur]).map seqAll)]) up
      | [] => none
    let bar := fun more => build extended fuel more (branches ++ [cur]) [] outer
    let repeatBy := fun (f : Regex → Regex) more =>
      build extended fuel more branches (repeatLast f cur c) outer
    if c == '^' && atStart then build extended fuel rest branches [.lineStart] outer
    else if c == '$' && (rest.isEmpty || (!extended && rest == ['\\', ')'])
        || (extended && (rest.head? == some ')' || rest.head? == some '|'))
        || (!extended && rest.take 2 == ['\\', '|'])) then
      build extended fuel rest branches (cur ++ [.lineEnd]) outer
    else if c == '.' then build extended fuel rest branches (cur ++ [.any]) outer
    else if c == '[' then
      let (neg, body) := match rest with
        | '^' :: more => (true, more)
        | _ => (false, rest)
      match bracketItems (body.length + 1) body true [] with
      | some (items, more) => build extended fuel more branches (cur ++ [.bracket neg items]) outer
      | none => none
    else if c == '*' then
      let leading := match cur with
        | [] | [.lineStart] => true
        | _ => false
      if leading then build extended fuel rest branches (cur ++ [.char c]) outer
      else repeatBy .star rest
    else if extended && c == '+' then repeatBy Regex.plus rest
    else if extended && c == '?' then repeatBy Regex.optional rest
    else if extended && c == '|' then bar rest
    else if extended && c == '(' then openGroup rest
    else if extended && c == ')' then closeGroup rest
    else if c == '\\' then
      match rest with
      | d :: more =>
        if !extended && d == '(' then openGroup more
        else if !extended && d == ')' then closeGroup more
        else if !extended && d == '|' then bar more
        else if !extended && d == '+' then repeatBy Regex.plus more
        else if !extended && d == '?' then repeatBy Regex.optional more
        else build extended fuel more branches (cur ++ [.char d]) outer
      | [] => build extended fuel [] branches (cur ++ [.char '\\']) outer
    else build extended fuel rest branches (cur ++ [.char c]) outer

end Pattern

namespace Glob

/-- The ranges of a bracket expression after its `[`, whether `!` or `^` negates it, and what
follows its `]`. -/
def bracket (cs : List Char) : Option (Bool × List (Char × Char) × List Char) :=
  let (neg, body) := match cs with
    | '!' :: more => (true, more)
    | '^' :: more => (true, more)
    | _ => (false, cs)
  (Pattern.bracketItems (body.length + 1) body true []).map fun (items, after) => (neg, items, after)

/-- Whether a pattern matches all of a text: `*` matches any text, `?` any character, a
bracket expression one of its characters, a backslash makes the next character plain, and
every other character matches itself. Each step uses up a character of the pattern, so
`fuel` beyond the pattern's length is never needed. -/
def matchesFrom : Nat → List Char → List Char → Bool
  | 0, _, _ => false
  | _ + 1, [], t => t.isEmpty
  | fuel + 1, '*' :: p, t => (List.range (t.length + 1)).any fun i => matchesFrom fuel p (t.drop i)
  | fuel + 1, '?' :: p, t =>
    match t with
    | _ :: more => matchesFrom fuel p more
    | [] => false
  | fuel + 1, '[' :: p, t =>
    match t, bracket p with
    | c :: more, some (neg, items, after) =>
      Regex.inRanges false items c != neg && matchesFrom fuel after more
    | c :: more, none => c == '[' && matchesFrom fuel p more
    | [], _ => false
  | fuel + 1, '\\' :: q :: p, t =>
    match t with
    | c :: more => c == q && matchesFrom fuel p more
    | [] => false
  | fuel + 1, x :: p, t =>
    match t with
    | c :: more => c == x && matchesFrom fuel p more
    | [] => false

/-- Whether a pattern matches all of a text. -/
def fits (pattern text : String) : Bool :=
  matchesFrom (pattern.length + 1) pattern.toList text.toList

/-- Text written so that a pattern matches it literally. -/
def escape (s : String) : String :=
  String.join (s.toList.map fun c =>
    if c == '*' || c == '?' || c == '[' || c == '\\' then "\\" ++ c.toString else c.toString)

/-- A text without its shortest prefix matching a pattern, or its longest when `longest`;
the text itself when no prefix matches. -/
def dropPrefix (longest : Bool) (pattern text : String) : String :=
  let cs := text.toList
  let cuts := List.range (cs.length + 1)
  match (if longest then cuts.reverse else cuts).find? fun i =>
      fits pattern (String.ofList (cs.take i)) with
  | some i => String.ofList (cs.drop i)
  | none => text

/-- A text without its shortest suffix matching a pattern, or its longest when `longest`. -/
def dropSuffix (longest : Bool) (pattern text : String) : String :=
  let cs := text.toList
  let n := cs.length
  let cuts := List.range (n + 1)
  match (if longest then cuts.reverse else cuts).find? fun k =>
      fits pattern (String.ofList (cs.drop (n - k))) with
  | some k => String.ofList (cs.take (n - k))
  | none => text

end Glob

/-- The regular expression of a pattern: fixed text, basic or extended. -/
def Regex.ofPattern (pattern : String) (extended fixed : Bool) : Option Regex :=
  if fixed then some (Pattern.seqAll (pattern.toList.map .char))
  else Pattern.build extended (pattern.length + 1) pattern.toList [] [] []

end Shell

end Campaign
