/-! `$(( … ))` evaluates an integer expression with the operators of C, numbers in decimal, hex or
octal and names standing for their variables (unset or empty counting as zero); `&&`, `||` and
`? :` evaluate only the side they need. Assignments are kept in order, and an expression that
does not read, a division by zero or a variable that is not a number fails with the shell's
words for it.
-/

namespace Campaign

namespace Shell

namespace Arith

/-- A token of an arithmetic expression. -/
inductive Token where
  | num (value : Int)
  | name (text : String)
  | op (text : String)
  deriving DecidableEq, Repr, Inhabited

/-- An arithmetic expression. -/
inductive Expr where
  | num (value : Int)
  | var (name : String)
  | unary (op : String) (e : Expr)
  | binary (op : String) (a b : Expr)
  | cond (test yes no : Expr)
  | assign (name : String) (op : String) (e : Expr)
  deriving Repr, Inhabited

/-- The value of a digit in a base, if it is one. -/
def digitValue (base : Nat) (c : Char) : Option Nat :=
  let v := if c.isDigit then some (c.toNat - '0'.toNat)
    else if 'a' ≤ c && c ≤ 'z' then some (c.toNat - 'a'.toNat + 10)
    else if 'A' ≤ c && c ≤ 'Z' then some (c.toNat - 'A'.toNat + 10)
    else none
  v.bind fun d => if d < base then some d else none

/-- The value of digits in a base, if all are digits of it. -/
def digitsValue (base : Nat) (ds : List Char) : Option Nat :=
  ds.foldl (fun acc c => acc.bind fun v => (digitValue base c).map (v * base + ·)) (some 0)

/-- The value of a number as written: decimal, `0x` hexadecimal or `0` octal. -/
def numberOf (s : String) : Option Int :=
  let (neg, body) := match s.toList with
    | '-' :: rest => (true, rest)
    | '+' :: rest => (false, rest)
    | cs => (false, cs)
  let v := match body with
    | [] => none
    | '0' :: x :: rest => if x == 'x' || x == 'X' then digitsValue 16 rest else digitsValue 8 (x :: rest)
    | ds => digitsValue 10 ds
  v.map fun n => if neg then -(n : Int) else n

/-- The operators, longest first. -/
def operators : List String :=
  ["<<=", ">>=", "<<", ">>", "<=", ">=", "==", "!=", "&&", "||", "+=", "-=", "*=", "/=", "%=",
   "&=", "|=", "^=", "+", "-", "*", "/", "%", "<", ">", "&", "|", "^", "!", "~", "?", ":", "=",
   "(", ")"]

/-- Whether a character may continue a name or a number. -/
def isWordChar (c : Char) : Bool := c.isAlphanum || c == '_'

/-- The tokens of an expression, or the failure of a character that starts none. -/
def tokenize : Nat → List Char → List Token → Except String (List Token)
  | 0, _, acc => .ok acc
  | _ + 1, [], acc => .ok acc
  | fuel + 1, c :: rest, acc =>
    if c == ' ' || c == '\t' || c == '\n' then tokenize fuel rest acc
    else if c.isDigit then
      let w := (c :: rest).takeWhile isWordChar
      match numberOf (String.ofList w) with
      | some v => tokenize fuel ((c :: rest).drop w.length) (acc ++ [.num v])
      | none => .error "expecting EOF"
    else if c.isAlpha || c == '_' then
      let w := (c :: rest).takeWhile isWordChar
      tokenize fuel ((c :: rest).drop w.length) (acc ++ [.name (String.ofList w)])
    else
      match operators.find? fun o => o.toList.isPrefixOf (c :: rest) with
      | some o => tokenize fuel ((c :: rest).drop o.length) (acc ++ [.op o])
      | none => .error "expecting EOF"

/-- The binary operators of each level, from the loosest. -/
def levels : List (List String) :=
  [["||"], ["&&"], ["|"], ["^"], ["&"], ["==", "!="], ["<", "<=", ">", ">="], ["<<", ">>"],
   ["+", "-"], ["*", "/", "%"]]

/-- Whether the next token is the operator `o`. -/
def startsOp (toks : List Token) (o : String) : Bool :=
  match toks with
  | .op t :: _ => t == o
  | _ => false

mutual

/-- An expression: a conditional, or an assignment. -/
def expr : Nat → List Token → Except String (Expr × List Token)
  | 0, _ => .error "expecting primary"
  | fuel + 1, toks =>
    match toks with
    | .name n :: .op o :: rest =>
      if o == "=" || (o.length ≥ 2 && o.endsWith "=" && o != "==" && o != "!=" && o != "<=" && o != ">=")
      then do
        let (e, after) ← expr fuel rest
        return (.assign n ((o.dropEnd 1).toString) e, after)
      else conditional fuel toks
    | _ => conditional fuel toks

/-- A conditional `test ? yes : no`, or an expression of the loosest binary level. -/
def conditional : Nat → List Token → Except String (Expr × List Token)
  | 0, _ => .error "expecting primary"
  | fuel + 1, toks => do
    let (test, rest) ← binary fuel levels toks
    if startsOp rest "?" then do
      let (yes, rest) ← expr fuel rest.tail
      if startsOp rest ":" then do
        let (no, rest) ← conditional fuel rest.tail
        return (.cond test yes no, rest)
      else .error "expecting ':'"
    else return (test, rest)

/-- An expression of the binary levels `ls`, operators of a level joining left to right. -/
def binary : Nat → List (List String) → List Token → Except String (Expr × List Token)
  | 0, _, _ => .error "expecting primary"
  | fuel + 1, [], toks => unary fuel toks
  | fuel + 1, ops :: tighter, toks => do
    let (first, rest) ← binary fuel tighter toks
    binaryTail fuel ops tighter first rest

/-- The operands after the first of a binary level. -/
def binaryTail : Nat → List String → List (List String) → Expr → List Token →
    Except String (Expr × List Token)
  | 0, _, _, acc, toks => .ok (acc, toks)
  | fuel + 1, ops, tighter, acc, toks =>
    match toks with
    | .op o :: rest =>
      if ops.contains o then do
        let (next, after) ← binary fuel tighter rest
        binaryTail fuel ops tighter (.binary o acc next) after
      else .ok (acc, toks)
    | _ => .ok (acc, toks)

/-- A unary operator and its operand, or a primary. -/
def unary : Nat → List Token → Except String (Expr × List Token)
  | 0, _ => .error "expecting primary"
  | fuel + 1, toks =>
    match toks with
    | .op o :: rest =>
      if o == "-" || o == "+" || o == "!" || o == "~" then do
        let (e, after) ← unary fuel rest
        return (.unary o e, after)
      else if o == "(" then do
        let (e, after) ← expr fuel rest
        if startsOp after ")" then return (e, after.tail) else .error "expecting ')'"
      else .error "expecting primary"
    | .num v :: rest => .ok (.num v, rest)
    | .name n :: rest => .ok (.var n, rest)
    | [] => .error "expecting primary"

end

/-- Read an expression, all of it. -/
def parse (source : String) : Except String Expr := do
  let toks ← tokenize (source.length + 1) source.toList []
  if toks.isEmpty then return .num 0
  let (e, rest) ← expr (4 * toks.length + 8) toks
  if rest.isEmpty then return e else .error "expecting EOF"

/-- Shift left, with a negative count shifting right. -/
def shiftLeft (a b : Int) : Int :=
  if b ≥ 0 then a * Int.pow 2 b.toNat else a / Int.pow 2 (-b).toNat

/-- Bitwise operations on integers in two's complement, on 64 bits. -/
def bitwise (f : Bool → Bool → Bool) (a b : Int) : Int :=
  let width := 64
  let ua := (a % Int.pow 2 width).toNat
  let ub := (b % Int.pow 2 width).toNat
  let bits := (List.range width).map fun i => f (ua.testBit i) (ub.testBit i)
  let u := bits.zipIdx.foldl (fun acc (bit, i) => if bit then acc + Nat.pow 2 i else acc) 0
  if u ≥ Nat.pow 2 (width - 1) then (u : Int) - Int.pow 2 width else u

/-- The value of a truth. -/
def ofBool (b : Bool) : Int := if b then 1 else 0

/-- Apply a binary operator. -/
def applyBinary (op : String) (a b : Int) : Except String Int :=
  match op with
  | "+" => .ok (a + b)
  | "-" => .ok (a - b)
  | "*" => .ok (a * b)
  | "/" => if b == 0 then .error "division by zero" else .ok (a.tdiv b)
  | "%" => if b == 0 then .error "division by zero" else .ok (a.tmod b)
  | "<<" => .ok (shiftLeft a b)
  | ">>" => .ok (shiftLeft a (-b))
  | "<" => .ok (ofBool (a < b))
  | "<=" => .ok (ofBool (a ≤ b))
  | ">" => .ok (ofBool (a > b))
  | ">=" => .ok (ofBool (a ≥ b))
  | "==" => .ok (ofBool (a == b))
  | "!=" => .ok (ofBool (a != b))
  | "&" => .ok (bitwise (· && ·) a b)
  | "|" => .ok (bitwise (· || ·) a b)
  | "^" => .ok (bitwise (· != ·) a b)
  | "&&" => .ok (ofBool (a != 0 && b != 0))
  | "||" => .ok (ofBool (a != 0 || b != 0))
  | _ => .error "expecting EOF"

/-- Variables as an evaluation sees them: their values, the assignments made so far first. -/
structure Scope where
  lookup : String → Option String
  assigned : List (String × Int) := []

/-- The value of a variable. -/
def Scope.value (sc : Scope) (name : String) : Except String Int :=
  match sc.assigned.lookup name with
  | some v => .ok v
  | none =>
    match sc.lookup name with
    | none => .ok 0
    | some "" => .ok 0
    | some s =>
      match numberOf s with
      | some v => .ok v
      | none => .error ("Illegal number: " ++ s)

/-- Evaluate an expression, keeping its assignments. -/
def eval : Expr → Scope → Except String (Int × Scope)
  | .num v, sc => .ok (v, sc)
  | .var n, sc => do return (← sc.value n, sc)
  | .unary o e, sc => do
    let (v, sc) ← eval e sc
    return (match o with
      | "-" => -v
      | "!" => ofBool (v == 0)
      | "~" => -v - 1
      | _ => v, sc)
  | .binary o a b, sc => do
    let (x, sc) ← eval a sc
    if o == "&&" && x == 0 then return (0, sc)
    if o == "||" && x != 0 then return (1, sc)
    let (y, sc) ← eval b sc
    return (← applyBinary o x y, sc)
  | .cond t y n, sc => do
    let (v, sc) ← eval t sc
    if v != 0 then eval y sc else eval n sc
  | .assign name op e, sc => do
    let (v, sc) ← eval e sc
    let v ← if op.isEmpty then pure v else applyBinary op (← sc.value name) v
    return (v, { sc with assigned := (name, v) :: sc.assigned.filter (·.1 != name) })

/-- The value of an expression's source, and the assignments it made, in order; or the
shell's words for its failure. -/
def evaluate (source : String) (lookup : String → Option String) :
    Except String (Int × List (String × Int)) := do
  let e ← (parse source).mapError fun m => "arithmetic expression: " ++ m ++ ": \"" ++ source ++ "\""
  let (v, sc) ← (eval e ⟨lookup, []⟩).mapError fun m =>
    if m == "division by zero" then "arithmetic expression: " ++ m ++ ": \"" ++ source ++ "\""
    else m
  return (v, sc.assigned.reverse)

end Arith

end Shell

end Campaign
