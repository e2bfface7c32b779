import Fanout.Machine.Program.Escape
import Fanout.Text.Numeral

/-!
# Arithmetic in scripts

Scripts can compute with integers of 64 bits. Expressions have signs, binary operators of ten
levels, choices and assignments; names are variables, and one that is not set counts as zero.

* `Arithmetic.evaluate`: the value of an expression, and the variables behind it.
-/

namespace Fanout

namespace Arithmetic

/-- A piece of an expression. -/
inductive Token where
  | number (n : Int)
  | name (t : Text)
  | sign (s : String)
  deriving DecidableEq, Repr

/-- Why an expression has no value. -/
inductive Fault where
  /-- An operand is missing. -/
  | noOperand
  | noClosing
  /-- There is something behind the expression. -/
  | trailing
  | noColon
  | byZero
  /-- The value of a variable is no number. -/
  | badValue (t : Text)
  deriving DecidableEq, Repr

/-- The wording of a fault of an expression. -/
def Fault.message (expression : Text) : Fault → Text
  | .noOperand => about "expecting primary"
  | .noClosing => about "expecting ')'"
  | .trailing => about "expecting EOF"
  | .noColon => about "expecting ':'"
  | .byZero => about "division by zero"
  | .badValue t => "Illegal number: ".toList ++ t
where
  about (what : String) : Text :=
    "arithmetic expression: ".toList ++ what.toList ++ ": \"".toList ++ expression ++ ['"']

/-! ## Numbers -/

/-- The number of 64 bits that a number wraps around to. -/
def wrap (n : Int) : Int := Int.bmod n 0x10000000000000000

/-- The largest number is taken for those that are larger. -/
def capped (n : Nat) : Int := min (n : Int) 0x7fffffffffffffff

/-- The number at the start of a text, and what is behind it: decimal, octal behind a zero,
hexadecimal behind `0x`. -/
def readNumber (t : Text) : Int × Text :=
  let inBase (base : Nat) (t : Text) : Int × Text :=
    let row := t.takeWhile fun c => (hexValue? c).any (· < base)
    (capped ((row.filterMap hexValue?).foldl (base * · + ·) 0), t.drop row.length)
  match t with
  | '0' :: x :: d :: rest =>
    if (x = 'x' || x = 'X') && (hexValue? d).isSome then inBase 16 (d :: rest) else inBase 8 t
  | '0' :: _ => inBase 8 t
  | _ => inBase 10 t

/-- The number that a variable holds. -/
def variableValue (t : Text) : Except Fault Int :=
  let isBlank (c : Char) : Bool := c = ' ' || c = '\t' || c = '\n'
  let number (digits : Text) : Except Fault Int :=
    match readNumber digits with
    | (n, rest) =>
      if (digits.head?.any Char.isDigit) && rest.all isBlank then .ok n else .error (.badValue t)
  match t.dropWhile isBlank with
  | [] => .ok 0
  | '-' :: digits => do .ok (- (← number digits))
  | '+' :: digits => number digits
  | digits => number digits

/-! ## Tokens -/

/-- The signs, longer ones before those they begin with. -/
def signs : List String :=
  ["<<=", ">>=", "<<", ">>", "<=", ">=", "==", "!=", "&&", "||", "+=", "-=", "*=", "/=", "%=", "&=",
   "^=", "|=", "<", ">", "=", "!", "~", "&", "|", "^", "+", "-", "*", "/", "%", "?", ":", "(", ")"]

/-- The tokens of an expression, as far as it can be read. -/
def tokens : Nat → Text → List Token
  | 0, _ | _, [] => []
  | n + 1, c :: t =>
    if c = ' ' || c = '\t' || c = '\n' then tokens n t
    else
      let row := (c :: t).takeWhile fun d => d.isAlphanum || d = '_'
      if c.isDigit then
        let (v, rest) := readNumber (c :: t)
        .number v :: tokens n rest
      else if !row.isEmpty then .name row :: tokens n ((c :: t).drop row.length)
      else match signs.find? fun s => s.toList.isPrefixOf (c :: t) with
        | some s => .sign s :: tokens n ((c :: t).drop s.length)
        | none => [.sign "bad"]

/-! ## Evaluation -/

/-- Variables with their values. -/
abbrev Variables := List (Text × Text)

/-- A value, the tokens behind it, and the variables then. -/
structure Progress where
  value : Int
  rest : List Token
  bindings : Variables

/-- The truth of a comparison, as a number. -/
def truth (b : Bool) : Int := if b then 1 else 0

/-- The binary operators, by level: those that bind tightest come last. -/
def levels : List (List String) :=
  [["||"], ["&&"], ["|"], ["^"], ["&"], ["==", "!="], ["<", ">", "<=", ">="], ["<<", ">>"],
   ["+", "-"], ["*", "/", "%"]]

/-- The bits of a number of 64 bits. -/
def bits (n : Int) : Nat := (n % 0x10000000000000000).toNat

/-- What a shift by a number multiplies with or divides by. Only its last six bits count. -/
def shiftFactor (n : Int) : Nat := 1 <<< (bits n % 64)

/-- A binary operator at work. What is not evaluated cannot fail. -/
def apply (evaluated : Bool) (operator : String) (a b : Int) : Except Fault Int :=
  match operator with
  | "||" => .ok (truth (a ≠ 0 || b ≠ 0))
  | "&&" => .ok (truth (a ≠ 0 && b ≠ 0))
  | "|" => .ok (wrap (bits a ||| bits b))
  | "^" => .ok (wrap (bits a ^^^ bits b))
  | "&" => .ok (wrap (bits a &&& bits b))
  | "==" => .ok (truth (a = b))
  | "!=" => .ok (truth (a ≠ b))
  | "<" => .ok (truth (a < b))
  | ">" => .ok (truth (a > b))
  | "<=" => .ok (truth (a ≤ b))
  | ">=" => .ok (truth (a ≥ b))
  | "<<" => .ok (wrap (a * shiftFactor b))
  | ">>" => .ok (a / shiftFactor b)
  | "+" => .ok (wrap (a + b))
  | "-" => .ok (wrap (a - b))
  | "*" => .ok (wrap (a * b))
  | "/" => if b ≠ 0 then .ok (wrap (a.tdiv b)) else if evaluated then .error .byZero else .ok 0
  | _ => if b ≠ 0 then .ok (a.tmod b) else if evaluated then .error .byZero else .ok 0

/-- The operator of an assignment that computes, when the sign is one. -/
def updates? (s : String) : Option String :=
  if ["+=", "-=", "*=", "/=", "%=", "<<=", ">>=", "&=", "^=", "|="].contains s then
    some (String.ofList s.toList.dropLast)
  else none

mutual

/-- An assignment, or what is none. -/
def readAssignment (evaluated : Bool) :
    Nat → List Token → Variables → Except Fault Progress
  | 0, _, _ => .error .noOperand
  | n + 1, ts, vs =>
    let assign (x : Text) (v : Int) (p : Progress) : Except Fault Progress :=
      let shown := if v < 0 then '-' :: Text.numeral v.natAbs else Text.numeral v.natAbs
      .ok { p with
        value := v
        bindings := if evaluated then (x, shown) :: p.bindings.filter (·.1 ≠ x) else p.bindings }
    match ts with
    | .name x :: .sign s :: rest =>
      if s = "=" then do
        let p ← readAssignment evaluated n rest vs
        assign x p.value p
      else match updates? s with
        | some operator => do
          let p ← readAssignment evaluated n rest vs
          let old ← variableValue ((vs.lookup x).getD [])
          assign x (← apply evaluated operator old p.value) p
        | none => readConditional evaluated n ts vs
    | _ => readConditional evaluated n ts vs

/-- A choice between two values, or what is none. -/
def readConditional (evaluated : Bool) :
    Nat → List Token → Variables → Except Fault Progress
  | 0, _, _ => .error .noOperand
  | n + 1, ts, vs => do
    let p ← readLevel evaluated levels n ts vs
    match p.rest with
    | .sign "?" :: rest =>
      let yes ← readAssignment (evaluated && p.value ≠ 0) n rest p.bindings
      match yes.rest with
      | .sign ":" :: rest =>
        let no ← readConditional (evaluated && p.value = 0) n rest yes.bindings
        .ok { no with value := if p.value ≠ 0 then yes.value else no.value }
      | _ => .error .noColon
    | _ => .ok p

/-- Operands with operators of the given levels between them. -/
def readLevel (evaluated : Bool) :
    List (List String) → Nat → List Token → Variables → Except Fault Progress
  | _, 0, _, _ => .error .noOperand
  | [], n + 1, ts, vs => readOperand evaluated n ts vs
  | operators :: tighter, n + 1, ts, vs => do
    let first ← readLevel evaluated tighter n ts vs
    readMore evaluated operators tighter n first

/-- Operators of one level behind a value. -/
def readMore (evaluated : Bool) (operators : List String) (tighter : List (List String)) :
    Nat → Progress → Except Fault Progress
  | 0, _ => .error .noOperand
  | n + 1, first =>
    match first.rest with
    | .sign s :: rest =>
      if operators.contains s then do
        let matters :=
          if s = "&&" then first.value ≠ 0 else if s = "||" then first.value = 0 else true
        let second ← readLevel (evaluated && matters) tighter n rest first.bindings
        let value ← apply evaluated s first.value second.value
        readMore evaluated operators tighter n { second with value }
      else .ok first
    | _ => .ok first

/-- A number, a variable, a sign with its operand, or an expression between parentheses. -/
def readOperand (evaluated : Bool) : Nat → List Token → Variables → Except Fault Progress
  | 0, _, _ => .error .noOperand
  | n + 1, ts, vs =>
    match ts with
    | .number v :: rest => .ok ⟨v, rest, vs⟩
    | .name x :: rest => do .ok ⟨← variableValue ((vs.lookup x).getD []), rest, vs⟩
    | .sign "(" :: rest => do
      let p ← readAssignment evaluated n rest vs
      match p.rest with
      | .sign ")" :: rest => .ok { p with rest }
      | _ => .error .noClosing
    | .sign "-" :: rest => do
      let p ← readOperand evaluated n rest vs
      .ok { p with value := wrap (- p.value) }
    | .sign "+" :: rest => readOperand evaluated n rest vs
    | .sign "!" :: rest => do
      let p ← readOperand evaluated n rest vs
      .ok { p with value := truth (p.value = 0) }
    | .sign "~" :: rest => do
      let p ← readOperand evaluated n rest vs
      .ok { p with value := wrap (-1 - p.value) }
    | _ => .error .noOperand

end

/-- The value of an expression, and the variables behind it. -/
def evaluate (t : Text) (bindings : Variables) : Except Fault (Int × Variables) := do
  let ts := tokens (t.length + 1) t
  let p ← readAssignment true (16 * (ts.length + 1)) ts bindings
  if p.rest.isEmpty then .ok (p.value, p.bindings) else .error .trailing

end Arithmetic

end Fanout
