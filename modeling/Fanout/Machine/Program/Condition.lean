import Fanout.Machine.Program.Operands

/-!
# Conditions

Tells by its end whether a condition holds: about texts, numbers and files. Conditions can be
negated, joined, and put between parentheses. The program and the command of a shell have grammars
of their own, which differ in how they take operands that look like operators.

* `ProgramCondition.holds`: the condition that the arguments of the program state.
* `ShellCondition.holds`: the condition that the arguments of the command state.
-/

namespace Fanout

namespace Program

/-- Why arguments state no condition. -/
inductive ConditionFault where
  | missingArgument (last : Text)
  | noBinary (operator : Text)
  | noUnary (operator : Text)
  | badNumber (t : Text)
  | extraArgument (t : Text)
  | noClosing (found : Option Text)
  | noBracket
  /-- An operand stands where an operator should. -/
  | unexpected (t : Text)
  /-- The operator has no operand. -/
  | noOperand (operator : Text)
  deriving DecidableEq, Repr

/-- The wording of a fault. -/
def ConditionFault.message (inShell : Bool) : ConditionFault → Text
  | .missingArgument last => "missing argument after ".toList ++ marked last
  | .noBinary operator => marked operator ++ ": binary operator expected".toList
  | .noUnary operator => marked operator ++ ": unary operator expected".toList
  | .badNumber t =>
    if inShell then "Illegal number: ".toList ++ t else "invalid integer ".toList ++ marked t
  | .extraArgument t => "extra argument ".toList ++ marked t
  | .noClosing none =>
    if inShell then "closing paren expected".toList else marked [')'] ++ " expected".toList
  | .noClosing (some found) =>
    if inShell then "closing paren expected".toList
    else marked [')'] ++ " expected, found ".toList ++ found
  | .noBracket => if inShell then "missing ]".toList else "missing ".toList ++ marked [']']
  | .unexpected t => t ++ ": unexpected operator".toList
  | .noOperand operator => operator ++ ": argument expected".toList

/-! ## Operators -/

/-- An integer, as operands write it. -/
def readInteger (t : Text) : Except ConditionFault Int :=
  let isBlank (c : Char) : Bool := c = ' ' || c = '\t'
  let number (digits : Text) : Except ConditionFault Int :=
    let digits := (digits.reverse.dropWhile isBlank).reverse
    if Text.isDigits digits then .ok (Text.value digits) else .error (.badNumber t)
  match t.dropWhile isBlank with
  | '-' :: digits => do .ok (- (← number digits))
  | '+' :: digits => number digits
  | digits => number digits

/-- The node a path leads to is what the letter asks for; nothing when the letter asks nothing. -/
def fileCondition? (t : FileTree) (letter : Char) (path : Text) : Option Bool :=
  let isNode (k : NodeType) : Bool := (t.metadata path).toOption = some k
  let isLink := match t.resolve path false with
    | .ok l => match t.nodeAt? l with
      | some (.link _) => true
      | _ => false
    | .error _ => false
  match letter with
  | 'e' | 'r' | 'w' | 'O' | 'G' => some (t.metadata path).toBool
  | 'f' => some (isNode .file)
  | 'd' => some (isNode .dir)
  | 'c' => some (isNode .other)
  | 'h' | 'L' => some isLink
  | 's' => some <| match t.node? path with
    | .ok (.file content) => content.size ≠ 0
    | .ok _ => true
    | .error _ => false
  | 'x' => some <| match t.node? path with
    | .ok .dir | .ok (.program _) => true
    | _ => false
  | 'b' | 'p' | 'S' | 'g' | 'u' | 'k' => some false
  | _ => none

/-- A condition on one operand, when the text is an operator for one. -/
def unaryCondition? (t : FileTree) (operator operand : Text) :
    Option (Except ConditionFault Bool) :=
  match operator with
  | ['-', 'n'] => some (.ok !operand.isEmpty)
  | ['-', 'z'] => some (.ok operand.isEmpty)
  | ['-', 't'] => some ((readInteger operand).map fun _ => false)
  | ['-', letter] => (fileCondition? t letter operand).map .ok
  | _ => none

/-- The comparisons of numbers. -/
def numberComparisons : List (String × (Int → Int → Bool)) :=
  [("-eq", (· == ·)), ("-ne", (· != ·)), ("-lt", (· < ·)), ("-le", (· ≤ ·)), ("-gt", (· > ·)),
   ("-ge", (· ≥ ·))]

/-- The files are one and the same, or one of them is newer. A file that is there is newer than one
that is not, but not for a shell; of two files that are there, none is newer. -/
def fileComparison (inShell : Bool) (t : FileTree) (operator : String) (first second : Text) :
    Bool :=
  let isThere (path : Text) : Bool := (t.metadata path).toBool
  match operator with
  | "-ef" => isThere first && (t.resolve first true).toOption = (t.resolve second true).toOption
  | "-nt" => !inShell && isThere first && !isThere second
  | _ => !inShell && isThere second && !isThere first

/-- A condition on two operands, when there is an operator between them. Operands of a comparison
of numbers have to be numbers. A shell knows the order of texts, and one sign for equal ones. -/
def binaryCondition? (inShell : Bool) (t : FileTree) (first operator second : Text) :
    Option (Except ConditionFault Bool) :=
  match String.ofList operator with
  | "=" => some (.ok (first = second))
  | "==" => if inShell then none else some (.ok (first = second))
  | "!=" => some (.ok (first ≠ second))
  | "<" => if inShell then some (.ok (!Path.textLe second first)) else none
  | ">" => if inShell then some (.ok (!Path.textLe first second)) else none
  | name =>
    if name = "-ef" || name = "-nt" || name = "-ot" then
      some (.ok (fileComparison inShell t name first second))
    else (numberComparisons.lookup name).map fun compare => do
      .ok (compare (← readInteger first) (← readInteger second))

/-- The text is an operator between two operands. -/
def isBinary (inShell : Bool) (operator : Text) : Bool :=
  (binaryCondition? inShell .empty [] operator []).isSome

/-- The text has the form of an operator for one operand. -/
def looksUnary : Text → Bool
  | ['-', _] => true
  | _ => false

/-! ## The grammar of the program -/

namespace ProgramCondition

/-- The rest of a text's arguments, when there is one. -/
def more (last : Text) (rest : List Text) : Except ConditionFault (List Text) :=
  if rest.isEmpty then .error (.missingArgument last) else .ok rest

/-- What was read of a condition: whether it holds, and the arguments behind it. -/
abbrev Reading := Except ConditionFault (Bool × List Text)

/-- An operator for one operand at the start of the arguments. -/
def readUnary (t : FileTree) (last : Text) : List Text → Reading
  | [] => .error (.missingArgument last)
  | operator :: rest =>
    match unaryCondition? t operator [] with
    | none => .error (.noUnary operator)
    | some _ => do
      match ← more last rest with
      | operand :: rest =>
        match unaryCondition? t operator operand with
        | some holds => .ok (← holds, rest)
        | none => .error (.noUnary operator)
      | [] => .error (.missingArgument last)

/-- Two operands with an operator between them. -/
def readBinary (t : FileTree) (last : Text) : List Text → Reading
  | first :: operator :: second :: rest =>
    match binaryCondition? false t first operator second with
    | some holds => do .ok (← holds, rest)
    | none => .error (.noBinary operator)
  | _ => .error (.missingArgument last)

mutual

/-- A condition that is stated by the first `count` arguments. -/
def readCounted (t : FileTree) (last : Text) : Nat → Nat → List Text → Reading
  | 0, _, _ => .error (.missingArgument last)
  | n + 1, count, args =>
    match count, args with
    | 1, a :: rest => .ok (!a.isEmpty, rest)
    | 2, ['!'] :: rest => (readCounted t last n 1 rest).map fun (holds, rest) => (!holds, rest)
    | 2, a :: _ => if looksUnary a then readUnary t last args else .error (.missingArgument last)
    | 3, a :: b :: rest =>
      if isBinary false b then readBinary t last args
      else if a = ['!'] then
        (readCounted t last n 2 (b :: rest)).map fun (holds, rest) => (!holds, rest)
      else if a = ['('] && rest.head? = some [')'] then .ok (!b.isEmpty, rest.tail)
      else if b = ['-', 'a'] || b = ['-', 'o'] then readAnyOf t last n args
      else .error (.noBinary b)
    | 4, a :: rest =>
      if a = ['!'] then (readCounted t last n 3 rest).map fun (holds, rest) => (!holds, rest)
      else if a = ['('] && rest[2]? = some [')'] then
        (readCounted t last n 2 rest).map fun (holds, rest) => (holds, rest.tail)
      else readAnyOf t last n args
    | _, _ => readAnyOf t last n args

/-- Conditions of which one has to hold. -/
def readAnyOf (t : FileTree) (last : Text) : Nat → List Text → Reading
  | 0, _ => .error (.missingArgument last)
  | n + 1, args => do
    let (a, rest) ← readAllOf t last n args
    match rest with
    | ['-', 'o'] :: rest =>
      let (b, rest) ← readAnyOf t last n rest
      .ok (a || b, rest)
    | _ => .ok (a, rest)

/-- Conditions that all have to hold. -/
def readAllOf (t : FileTree) (last : Text) : Nat → List Text → Reading
  | 0, _ => .error (.missingArgument last)
  | n + 1, args => do
    let (a, rest) ← readTerm t last n args
    match rest with
    | ['-', 'a'] :: rest =>
      let (b, rest) ← readAllOf t last n rest
      .ok (a && b, rest)
    | _ => .ok (a, rest)

/-- One condition that is not joined. -/
def readTerm (t : FileTree) (last : Text) : Nat → List Text → Reading
  | 0, _ | _, [] => .error (.missingArgument last)
  | n + 1, a :: rest =>
    if a = ['!'] then do
      let (holds, rest) ← readTerm t last n (← more last rest)
      .ok (!holds, rest)
    else if a = ['('] then do
      let inside ← more last rest
      let near := (inside.drop 1).takeWhile (· ≠ [')'])
      let count := if near.length < 4 then near.length + 1 else inside.length
      let (holds, rest) ← readCounted t last n count inside
      match rest with
      | [] => .error (.noClosing none)
      | c :: rest => if c = [')'] then .ok (holds, rest) else .error (.noClosing (some c))
    else match rest with
      | b :: _ :: _ =>
        if isBinary false b then readBinary t last (a :: rest)
        else if looksUnary a then readUnary t last (a :: rest)
        else .ok (!a.isEmpty, rest)
      | _ => if looksUnary a then readUnary t last (a :: rest) else .ok (!a.isEmpty, rest)

end

/-- The condition that arguments state holds; no arguments state one that does not. -/
def holds (t : FileTree) (args : List Text) : Except ConditionFault Bool :=
  match args.getLast? with
  | none => .ok false
  | some last => do
    let (holds, rest) ← readCounted t last (4 * args.length + 4) args.length args
    match rest with
    | [] => .ok holds
    | extra :: _ => .error (.extraArgument extra)

end ProgramCondition

/-! ## The grammar of the command -/

namespace ShellCondition

/-- What an argument is, seen with those behind it. -/
inductive Role where
  | ending
  | operand
  | negation
  | conjunction
  | disjunction
  | opening
  | closing
  | unary
  | binary
  deriving DecidableEq

/-- The letters of the operators for one operand. -/
def unaryLetters : List Char :=
  ['r', 'w', 'x', 'e', 'f', 'd', 'c', 'b', 'p', 'u', 'g', 'k', 's', 't', 'z', 'n', 'h', 'O', 'G',
   'L', 'S']

/-- What an argument is when nothing else is known. -/
def plainRole (a : Text) : Role :=
  match a with
  | ['!'] => .negation
  | ['('] => .opening
  | [')'] => .closing
  | ['-', 'a'] => .conjunction
  | ['-', 'o'] => .disjunction
  | ['-', c] => if unaryLetters.contains c then .unary else .operand
  | _ => if isBinary true a then .binary else .operand

/-- What the first of the arguments is. An operator for one operand is an operand itself at the
end and in front of an operator for two. -/
def role : List Text → Role
  | [] => .ending
  | a :: rest =>
    match plainRole a with
    | .unary =>
      match rest with
      | [] => .operand
      | [_] => .unary
      | b :: _ => if plainRole b = .binary then .operand else .unary
    | .opening => if rest.isEmpty then .operand else .opening
    | r => r

/-- What was read of a condition: whether it holds, and the arguments from its last one on. -/
abbrev Reading := Except ConditionFault (Bool × List Text)

mutual

/-- Conditions of which one has to hold. -/
def readAnyOf (t : FileTree) : Nat → Role → List Text → Reading
  | 0, _, args => .ok (false, args)
  | n + 1, r, args => do
    let (a, here) ← readAllOf t n r args
    if role here.tail = .disjunction then
      let rest := here.tail.tail
      let (b, here) ← readAnyOf t n (role rest) rest
      .ok (a || b, here)
    else .ok (a, here)

/-- Conditions that all have to hold. -/
def readAllOf (t : FileTree) : Nat → Role → List Text → Reading
  | 0, _, args => .ok (false, args)
  | n + 1, r, args => do
    let (a, here) ← readNegated t n r args
    if role here.tail = .conjunction then
      let rest := here.tail.tail
      let (b, here) ← readAllOf t n (role rest) rest
      .ok (a && b, here)
    else .ok (a, here)

/-- A condition that may be negated. -/
def readNegated (t : FileTree) : Nat → Role → List Text → Reading
  | 0, _, args => .ok (false, args)
  | n + 1, r, args =>
    if r = .negation then do
      let (holds, here) ← readNegated t n (role args.tail) args.tail
      .ok (!holds, here)
    else readPrimary t n r args

/-- A condition that is neither joined nor negated. -/
def readPrimary (t : FileTree) : Nat → Role → List Text → Reading
  | 0, _, args => .ok (false, args)
  | _, _, [] => .ok (false, [])
  | n + 1, r, a :: rest =>
    if r = .opening then
      if role rest = .closing then .ok (false, rest)
      else do
        let (holds, here) ← readAnyOf t n (role rest) rest
        if role here.tail = .closing then .ok (holds, here.tail) else .error (.noClosing none)
    else if r = .unary then
      match rest with
      | [] => .error (.noOperand a)
      | operand :: _ => do
        .ok (← (unaryCondition? t a operand).getD (.ok false), rest)
    else if role rest = .binary then
      match rest with
      | operator :: second :: more => do
        .ok (← (binaryCondition? true t a operator second).getD (.ok false), second :: more)
      | _ => .error (.noOperand (rest.headD []))
    else .ok (!a.isEmpty, a :: rest)

end

/-- The condition that arguments state holds. Three and four arguments are looked at as a whole
first. -/
def holdsFrom (t : FileTree) : Nat → List Text → Except ConditionFault Bool
  | 0, _ | _, [] => .ok false
  | n + 1, a :: rest => do
    let args := a :: rest
    let whole (r : Role) (args : List Text) : Except ConditionFault Bool := do
      let (holds, here) ← readAnyOf t (4 * args.length + 4) r args
      match here with
      | last :: _ :: _ => .error (.unexpected last)
      | _ => .ok holds
    if args.length = 3 && (rest.head?.map plainRole) = some .binary then whole .operand args
    else if args.length = 3 || args.length = 4 then
      if a = ['('] && args.getLast? = some [')'] then whole (role rest.dropLast) rest.dropLast
      else if a = ['!'] then do .ok (!(← holdsFrom t n rest))
      else whole (role args) args
    else whole (role args) args

/-- The condition that arguments state holds; no arguments state one that does not. -/
def holds (t : FileTree) (args : List Text) : Except ConditionFault Bool :=
  holdsFrom t (args.length + 1) args

end ShellCondition

/-! ## Programs -/

/-- The end of a program that states a condition. -/
def concluded (s : Speaker) (p : Process) :
    Except ConditionFault Bool → Process × ExitStatus
  | .ok holds => (p, .ofBool 1 holds)
  | .error f => (s.complain (f.message s.inShell) p, .exited 2)

/-- The program. -/
def condition (s : Speaker) : Program := fun args p =>
  concluded s p (if s.inShell then ShellCondition.holds p.tree args
    else ProgramCondition.holds p.tree args)

/-- The program by its other name, which wants a bracket behind the condition. -/
def bracketed (s : Speaker) : Program := fun args p =>
  let isClosed := match args.getLast? with
    | some (']' :: more) => s.inShell || more.isEmpty
    | _ => false
  if isClosed then condition s args.dropLast p
  else (s.complain (ConditionFault.noBracket.message s.inShell) p, .exited 2)

end Program

end Fanout
