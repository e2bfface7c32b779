import Fanout.Machine.Process

/-!
# Options, operands and complaints

Programs that work on files take options as letters and files as operands, and complain in one
manner: their name, and what is wrong.

* `OptionTable.read`: the options and the operands among arguments.
* `shownName`: a file name as complaints show it, quoted as far as a shell would need it.
-/

namespace Fanout

namespace Program

/-! ## Options -/

/-- The options that a program knows. -/
structure OptionTable where
  /-- The letters of options that take no value. -/
  letters : List Char
  /-- The letters of options with a value. -/
  valued : List Char := []
  /-- The long names of options, with their letters. -/
  names : List (String × Char) := []

/-- Options with their values, and operands. -/
structure Request where
  options : List (Char × Text) := []
  operands : List Text := []

namespace Request

/-- The option is given. -/
def asks (r : Request) (c : Char) : Bool := r.options.any (·.1 = c)

/-- The values of an option, in order. -/
def values (r : Request) (c : Char) : List Text :=
  r.options.filterMap fun (d, value) => if d = c then some value else none

end Request

/-- A row of letters behind a dash: options with their values, and the arguments left. A value is
what is left of the row, or else the next argument. -/
def readLetters (table : OptionTable) :
    List Char → List Text → Except Text (List (Char × Text) × List Text)
  | [], rest => .ok ([], rest)
  | c :: cs, rest =>
    if table.letters.contains c then do
      let (options, rest) ← readLetters table cs rest
      .ok ((c, []) :: options, rest)
    else if !table.valued.contains c then .error ("invalid option -- '".toList ++ [c, '\''])
    else if !cs.isEmpty then .ok ([(c, cs)], rest)
    else match rest with
      | value :: rest => .ok ([(c, value)], rest)
      | [] => .error ("option requires an argument -- '".toList ++ [c, '\''])

/-- An option with a long name, which may be cut short as long as it is clear. -/
def readLongName (table : OptionTable) (arg : Text) (rest : List Text) :
    Except Text ((Char × Text) × List Text) :=
  let name := arg.takeWhile (· ≠ '=')
  let value := arg.drop name.length
  let fitting := table.names.filter fun (n, _) => name.isPrefixOf n.toList
  let exact := fitting.filter fun (n, _) => n.toList = name
  let quote (n : Text) : Text := '\'' :: '-' :: '-' :: n ++ ['\'']
  match if exact.isEmpty then fitting else exact with
  | [] => .error ("unrecognized option ".toList ++ quote arg)
  | (n, c) :: others =>
    if others.any (·.2 ≠ c) then
      .error ("option ".toList ++ quote arg ++ " is ambiguous; possibilities:".toList
        ++ fitting.flatMap fun (n, _) => ' ' :: quote n.toList)
    else if table.valued.contains c then
      match value, rest with
      | _ :: value, _ => .ok ((c, value), rest)
      | [], value :: rest => .ok ((c, value), rest)
      | [], [] => .error ("option ".toList ++ quote n.toList ++ " requires an argument".toList)
    else if value.isEmpty then .ok ((c, []), rest)
    else .error ("option ".toList ++ quote n.toList ++ " doesn't allow an argument".toList)

/-- The options and operands among arguments, or what is wrong with the first bad option. Operands
may stand in front of options; a lone dash is an operand, and two dashes end the options. -/
def readRequest (table : OptionTable) : Nat → List Text → Except Text Request
  | 0, _ | _, [] => .ok {}
  | n + 1, arg :: rest =>
    match arg with
    | ['-', '-'] => .ok { operands := rest }
    | '-' :: '-' :: name => do
      let (option, rest) ← readLongName table name rest
      let r ← readRequest table n rest
      .ok { r with options := option :: r.options }
    | '-' :: c :: letters => do
      let (options, rest) ← readLetters table (c :: letters) rest
      let r ← readRequest table n rest
      .ok { r with options := options ++ r.options }
    | operand => do
      let r ← readRequest table n rest
      .ok { r with operands := operand :: r.operands }

/-- The options and operands among arguments. -/
def OptionTable.read (table : OptionTable) (args : List Text) : Except Text Request :=
  readRequest table (args.length + 1) args

/-! ## Complaints -/

/-- Who complains: a program, or a shell into which the program is built. -/
structure Speaker where
  /-- The name by which the program was called. -/
  name : Text
  /-- What complaints begin with. -/
  front : Text
  inShell : Bool := false

namespace Speaker

/-- The program called by the given name. -/
def ofName (name : Text) : Speaker := { name, front := name ++ [':', ' '] }

/-- The name without directories. -/
def shortName (s : Speaker) : Text := ((Path.pieces s.name).getLast?).getD []

/-- A complaint of a speaker. -/
def complain (s : Speaker) (why : Text) (p : Process) : Process := p.complain (s.front ++ why)

/-- Where to find out how to call a program. -/
def seeHelp (name : Text) : Text :=
  "Try '".toList ++ name ++ " --help' for more information.".toList

/-- A complaint about the way a program is called, line by line. -/
def complainOfUse (s : Speaker) (why : List Text) (p : Process) : Process :=
  s.complain (Text.join ['\n'] (why ++ [seeHelp s.name])) p

/-- The complaint of a program whose output could not be written, which then ends with `code`. -/
def closeOutput (s : Speaker) (code : Nat) (ended : Process × ExitStatus) : Process × ExitStatus :=
  match ended.1.writeFault with
  | none => ended
  | some e => (s.complain ("write error: ".toList ++ e.text) { ended.1 with writeFault := none },
      .exited code)

end Speaker

/-- A text between quotation marks. -/
def marked (t : Text) : Text := '\u2018' :: t ++ ['\u2019']

/-! ## File names -/

/-- The control characters with a letter of their own. -/
def controlLetters : List (Char × Char) :=
  [('\x07', 'a'), ('\x08', 'b'), ('\x0c', 'f'), ('\n', 'n'), ('\r', 'r'), ('\t', 't'),
   ('\x0b', 'v')]

/-- The character is a control character. -/
def isControl (c : Char) : Bool := c.toNat < 32 || c.toNat = 127

/-- A control character written with a backslash. -/
def controlEscape (c : Char) : Text :=
  match controlLetters.lookup c with
  | some l => ['\\', l]
  | none =>
    ['\\', Nat.digitChar (c.toNat / 64), Nat.digitChar (c.toNat / 8 % 8),
      Nat.digitChar (c.toNat % 8)]

/-- The character has a meaning for shells wherever it stands. -/
def isShellSign (c : Char) : Bool := " !\"$&'()*;<=>[^\x60|\\?:".toList.contains c

/-- The character keeps its meaning between double quotes. -/
def isSafeInDouble (c : Char) : Bool :=
  c.isAlphanum || [' ', '\'', '%', '+', ',', '-', '.', '/', ':', ']', '_', '@'].contains c

/-- The inside of a single-quoted name from here on. A run of control characters leaves the quotes
for a notation of its own. -/
def quotedName (inEscape : Bool) : Text → Text
  | [] => []
  | c :: t =>
    if isControl c then
      (if inEscape then [] else ['\'', '$', '\'']) ++ controlEscape c ++ quotedName true t
    else
      (if inEscape then ['\'', '\''] else [])
        ++ (if c = '\'' then ['\'', '\\', '\'', '\''] else [c]) ++ quotedName false t

/-- The name of a file in a complaint. -/
def shownName (t : Text) : Text :=
  let plain := !t.isEmpty && !t.any (fun c => isShellSign c || isControl c)
    && t.head? ≠ some '#' && t.head? ≠ some '~'
  if plain then t
  else if t.contains '\'' && t.all isSafeInDouble then '"' :: t ++ ['"']
  else '\'' :: quotedName false t ++ ['\'']

/-! ## Operands -/

/-- The operands of a program that reads standard input when it has none. -/
def operandsOrInput (operands : List Text) : List Text :=
  if operands.isEmpty then [['-']] else operands

/-- An operand with what was read from it. -/
structure Source where
  name : Text
  content : Except IoFault ByteArray

namespace Source

/-- The bytes, if there are any to read. -/
def bytes (s : Source) : ByteArray :=
  match s.content with
  | .ok b => b
  | .error _ => .empty

/-- The operand could be read. -/
def isRead (s : Source) : Bool := s.content.isOk

end Source

/-- The operands with what can be read from them, in order. -/
def readOperands : List Text → Process → List Source × Process
  | [], p => ([], p)
  | operand :: rest, p =>
    let (content, p) := p.readOperand operand
    let (more, p) := readOperands rest p
    (⟨operand, content⟩ :: more, p)

/-- The complaint about a source that could not be read, with its name as `display` shows it. -/
def Source.complain (source : Source) (s : Speaker) (display : Text → Text) (p : Process) :
    Process :=
  match source.content with
  | .ok _ => p
  | .error f => s.complain (display source.name ++ [':', ' '] ++ f.brief) p

end Program

end Fanout
