import Fanout.Machine.Script.Builtin.Arguments

/-!
# Commands for variables

Variables can be passed on to programs, fixed, brought back when a function has ended, filled from a
line of input, and given the next option of a script.

* `ShellState.declare`: variables are set and marked.
* `lineFields`: the fields of a line of input.
* `ShellState.readLine`: variables are filled from standard input.
* `ShellState.nextOption`: a variable is given the next option among arguments.
-/

namespace Fanout

/-- The text is the name of a variable. -/
def isName (t : Text) : Bool := t.head?.any beginsName && t.all inName

/-- The names and values in a text: what is in front of the first equals sign, and behind it. -/
def splitAssignment (t : Text) : Text × Option Text :=
  let name := t.takeWhile (· ≠ '=')
  (name, match t.drop name.length with
    | _ :: value => some value
    | [] => none)

namespace ShellState

/-- What is done with a variable if the text is its name. -/
def withName (s : ShellState) (name : Text) (next : ShellState) : ShellState :=
  if isName name then next else s.fail (name ++ ": bad variable name".toList)

/-! ## Lists of variables -/

/-- One line about a variable. -/
def variableLine (s : ShellState) (front : String) (name : Text) : Text :=
  front.toList ++ name ++ (match s.bindings.lookup name with
    | some v => '=' :: quoteWord v
    | none => []) ++ ['\n']

/-- Lines about variables, in the order of their names. -/
def variableLines (s : ShellState) (front : String) (names : List Text) : Text :=
  (names.mergeSort Path.textLe).flatMap (s.variableLine front)

/-! ## Marks -/

/-- A variable can no longer be set. -/
def fix (s : ShellState) (name : Text) : ShellState :=
  { s with readOnly := name :: s.readOnly.filter (· ≠ name) }

/-- Variables are set, if they are given with values, and marked. -/
def declareAll (mark : ShellState → Text → ShellState) : List Text → ShellState → ShellState
  | [], s => s.settle 0
  | a :: rest, s =>
    let (name, value) := splitAssignment a
    let after := s.withName name (match value with
      | some v => s.set name v
      | none => s)
    if after.isHalted then after else declareAll mark rest (mark after name)

/-- Variables are set and marked, or else listed. -/
def declare (front : String) (mark : ShellState → Text → ShellState)
    (marked : ShellState → List Text) : Builtin := fun _ args s =>
  s.withFlags ['p'] [] args fun flags names =>
    if flags.isEmpty && !names.isEmpty then declareAll mark names s
    else (s.say (s.variableLines front (marked s))).settle 0

/-- Variables and switches are brought back when the function has ended. -/
def keepAll : List Text → ShellState → ShellState
  | [], s => s.settle 0
  | ['-'] :: rest, s =>
    keepAll rest (match s.frames with
      | f :: fs => { s with frames := { f with switches := some (f.switches.getD s.switches) } :: fs }
      | [] => s)
  | a :: rest, s =>
    let (name, value) := splitAssignment a
    let after := s.withName name (match value with
      | some v => (s.keep name).set name v
      | none => s.keep name)
    if after.isHalted then after else keepAll rest after

/-- Variables of the function at work. -/
def localize : Builtin := fun _ args s =>
  if s.calls = 0 then s.fail "not in a function".toList else keepAll args s

/-- Variables lose their values. -/
def unsetAll : List Text → ShellState → ShellState
  | [], s => s.settle 0
  | name :: rest, s =>
    let after := s.withName name <|
      if s.readOnly.contains name then s.fail (name ++ ": is read only".toList) else s.discard name
    if after.isHalted then after else unsetAll rest after

/-- Variables lose their values, or functions are forgotten. -/
def unset : Builtin := fun _ args s =>
  s.withFlags ['v', 'f'] [] args fun flags names =>
    if flags.getLast?.any (·.1 = 'f') then
      { s with functions := s.functions.filter fun (name, _) => !names.contains name, status := 0 }
    else unsetAll names s

/-- Switches are changed, parameters are set, or variables are listed. -/
def setUp : Builtin := fun _ args s =>
  if args.isEmpty then
    (s.say (s.variableLines "" (s.bindings.map Prod.fst))).settle 0
  else match changeSwitches false (args.length + 1) { on := s.switches, rest := args } with
    | .error why => s.fail why
    | .ok r =>
      let s := { s with switches := r.on, status := 0 }.say r.lists
      let s := if r.on.contains .jobControl then
          let s := s.report "can't access tty; job control turned off".toList 0
          { s with switches := r.on.filter (· ≠ .jobControl) }
        else s
      if r.isMarked || !r.rest.isEmpty then { s with parameters := r.rest, optionPlace := {} }
      else s

/-- The first parameters are dropped. -/
def shift : Builtin := fun _ args s =>
  let drop (n : Nat) : ShellState :=
    if s.parameters.length < n then s.fail "can't shift that many".toList
    else { s with parameters := s.parameters.drop n, optionPlace := {}, status := 0 }
  match args with
  | [] => drop 1
  | n :: _ => s.withNumber n drop

end ShellState

/-! ## Lines of input -/

/-- The number of bytes up to the end of a line, from place `i` on, and whether there is a newline
at the end. A backslash joins lines unless the line is raw. -/
def lineEnd (raw : Bool) (b : ByteArray) : Nat → Nat → Nat × Bool
  | 0, i => (i, false)
  | n + 1, i =>
    match b[i]? with
    | none => (b.size, false)
    | some 10 => (i + 1, true)
    | some 92 => lineEnd raw b n (if raw then i + 1 else i + 2)
    | some _ => lineEnd raw b n (i + 1)

/-- The characters of a line, and whether a backslash took away the meaning of each. -/
def lineSigns (raw : Bool) : Text → Argument
  | [] | ['\n'] => []
  | '\\' :: c :: t =>
    if raw then ('\\', false) :: lineSigns raw (c :: t)
    else if c = '\n' then lineSigns raw t
    else (c, true) :: lineSigns raw t
  | '\\' :: [] => if raw then [('\\', false)] else []
  | c :: t => if c = '\x00' then lineSigns raw t else (c, false) :: lineSigns raw t

/-- The last field: all that is left, without the blanks at its end, and without a separator if that
is the only one. -/
def lastField (separates : Char × Bool → Bool) (line : Argument) : Argument :=
  let isSpace (x : Char × Bool) : Bool := separates x && isBlank x.1
  let field := line.takeWhile (!separates ·)
  let behind := line.drop field.length
  if behind.all separates && behind.countP (!isSpace ·) ≤ 1 then field
  else (line.reverse.dropWhile isSpace).reverse

/-- The fields of a line, at most `n` of them. -/
def lineFields (separators : Text) : Nat → Argument → List Text
  | 0, _ => []
  | n + 1, line =>
    let separates (x : Char × Bool) : Bool := !x.2 && separators.contains x.1
    let isSpace (x : Char × Bool) : Bool := separates x && isBlank x.1
    let line := line.dropWhile isSpace
    if line.isEmpty then []
    else if n = 0 then [lineText (lastField separates line)]
    else
      let field := line.takeWhile (!separates ·)
      let behind := line.drop field.length
      let rest := match behind.dropWhile isSpace with
        | x :: more => if separates x then more else x :: more
        | [] => []
      lineText field :: lineFields separators n rest
where
  lineText (line : Argument) : Text :=
    let bytes := line.map Prod.fst
    (Text.ofUtf8? (ofByteChars bytes)).getD bytes

namespace ShellState

/-- Variables are set to fields, and to nothing when there are too few. -/
def fill : List Text → List Text → ShellState → ShellState
  | [], _, s => s
  | name :: names, fields, s =>
    let after := s.withName name (s.set name (fields.headD []))
    if after.isHalted then after else fill names fields.tail after

/-- Variables are filled from a line of standard input. -/
def readLine : Builtin := fun _ args s =>
  s.withFlags ['r'] ['p'] args fun flags names =>
    if names.isEmpty then s.fail "arg count".toList
    else
      let raw := flags.any (·.1 = 'r')
      let input := s.process.input.toOption.getD .empty
      let (size, isEnded) := lineEnd raw input (input.size + 1) 0
      let size := min size input.size
      let line := lineSigns raw (byteChars (input.extract 0 size))
      let s := { s with process := s.process.skipInput size, status := if isEnded then 0 else 1 }
      fill names (lineFields s.separators names.length line) s

/-! ## Options of scripts -/

/-- What there is to know about the next option. -/
structure OptionStep where
  /-- What the variable gets. -/
  option : Char
  argument : Option Text
  complaint : Option Text := none
  place : OptionPlace
  isLast : Bool := false

/-- The option among the letters of an argument, when `next` is the number of the argument behind
it. Its value is the rest of the letters or else that argument. -/
def optionAmong (options : Text) (args : List Text) (next : Nat) (size : Nat) (c : Char)
    (letters : Text) : OptionStep :=
  let isSilent := options.head? = some ':'
  let known := if isSilent then options.tail else options
  let place (letters : Text) : OptionPlace := ⟨next, some (size - letters.length)⟩
  match known.dropWhile (· ≠ c) with
  | _ :: ':' :: _ =>
    if c = ':' then unknown isSilent (place letters)
    else if !letters.isEmpty then ⟨c, some letters, none, ⟨next, none⟩, false⟩
    else match args[next - 1]? with
      | some value => ⟨c, some value, none, ⟨next + 1, none⟩, false⟩
      | none =>
        if isSilent then ⟨':', some [c], none, place letters, false⟩
        else ⟨'?', none, some ("No arg for -".toList ++ c :: " option".toList), place letters, false⟩
  | _ :: _ => if c = ':' then unknown isSilent (place letters)
    else ⟨c, some [], none, place letters, false⟩
  | [] => unknown isSilent (place letters)
where
  unknown (isSilent : Bool) (place : OptionPlace) : OptionStep :=
    if isSilent then ⟨'?', some [c], none, place, false⟩
    else ⟨'?', none, some ("Illegal option -".toList ++ [c]), place, false⟩

/-- The next option among arguments. -/
def optionStep (options : Text) (args : List Text) (place : OptionPlace) : OptionStep :=
  let done (next : Nat) : OptionStep := ⟨'?', none, none, ⟨next, none⟩, true⟩
  let current := match place.letters with
    | some n => if place.next ≤ 1 then [] else ((args[place.next - 2]?).getD []).drop n
    | none => []
  match current with
  | c :: letters =>
    let size := ((args[place.next - 2]?).getD []).length
    optionAmong options args place.next size c letters
  | [] =>
    match args[place.next - 1]? with
    | some ['-', '-'] => done (place.next + 1)
    | some ('-' :: c :: letters) =>
      optionAmong options args (place.next + 1) (letters.length + 2) c letters
    | _ => done place.next

/-- A variable is given the next option of the parameters, or of arguments. -/
def nextOption : Builtin := fun _ args s =>
  match args with
  | options :: name :: rest =>
    let args := if rest.isEmpty then s.parameters else rest
    let place := if args.length + 1 < s.optionPlace.next then {} else s.optionPlace
    let step := optionStep options args place
    let s := match step.complaint with
      | some why => { s with process := s.process.complain why }
      | none => s
    let s := if step.isLast then s
      else match step.argument with
        | some v => s.set "OPTARG".toList v
        | none => s.discard "OPTARG".toList
    let s := s.set "OPTIND".toList (Text.numeral step.place.next)
    let s := s.withName name (s.set name [step.option])
    { s with optionPlace := step.place, status := if step.isLast then 1 else s.status }
  | _ => s.fail "Usage: getopts optstring var [arg...]".toList

end ShellState

end Fanout
