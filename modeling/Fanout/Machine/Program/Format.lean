import Fanout.Machine.Program.Escape
import Fanout.Machine.Program.Operands

/-!
# Formatted output

Writes its arguments as a format asks. A format is text with directives; each takes one argument,
and as long as arguments are left the format is used again. Missing arguments are empty texts and
zeros. What does not suit a directive is complained about, and written as far as it does.
-/

namespace Fanout

namespace Program

/-- A number of a directive. -/
inductive FieldNumber where
  | fixed (n : Nat)
  /-- The next argument is the number. -/
  | fromArgument
  deriving DecidableEq

/-- How a directive writes its argument. -/
structure Field where
  flags : List Char := []
  width : FieldNumber := .fixed 0
  precision : Option FieldNumber := none
  conversion : Char
  deriving DecidableEq

/-- A piece of a format. -/
inductive FormatPiece where
  | plain (t : Text)
  | field (f : Field)
  /-- All output ends here. -/
  | stop
  /-- A directive that is not known ends all output, too. -/
  | unknown (directive : Text)
  deriving DecidableEq

/-- What a format and its arguments do wrong. -/
inductive FormatFault where
  | notNumber (t : Text)
  /-- Only the start of the text is a number. -/
  | notWhole (t : Text)
  | outOfRange (t : Text)
  | badDirective (directive : Text)
  /-- The format takes no arguments. -/
  | excess (t : Text)
  deriving DecidableEq

namespace FormatFault

/-- The wording of a fault. -/
def message (inShell : Bool) : FormatFault → Text
  | .notNumber t =>
    if inShell then t ++ ": expected numeric value".toList
    else marked t ++ ": expected a numeric value".toList
  | .notWhole t =>
    if inShell then t ++ ": not completely converted".toList
    else marked t ++ ": value not completely converted".toList
  | .outOfRange t => (if inShell then t else marked t) ++ ": Numerical result out of range".toList
  | .badDirective d =>
    if inShell then d ++ ": invalid directive".toList
    else d ++ ": invalid conversion specification".toList
  | .excess t => "warning: ignoring excess arguments, starting with ".toList ++ marked t

/-- The fault makes the program fail. -/
def isFailure : FormatFault → Bool
  | .excess _ => false
  | _ => true

/-- The fault ends all output. -/
def isBadDirective : FormatFault → Bool
  | .badDirective _ => true
  | _ => false

end FormatFault

/-! ## Formats -/

/-- How formats and arguments are read. -/
structure FormatManner where
  /-- The sequences of formats. -/
  formats : EscapeStyle
  /-- The sequences of arguments. -/
  arguments : EscapeStyle
  /-- What may stand behind the percent sign. -/
  flags : List Char
  /-- The conversions. -/
  conversions : List Char
  /-- The letters that may stand in front of a conversion and change nothing. -/
  modifiers : List Char
  /-- A quote in front of a character stands for the number of its first byte. -/
  bytewise : Bool

/-- The number of a directive that a text begins with, and what follows it. -/
def fieldNumber? (t : Text) : Option FieldNumber × Text :=
  match t with
  | '*' :: rest => (some .fromArgument, rest)
  | _ =>
    match t.takeWhile Char.isDigit with
    | [] => (none, t)
    | digits => (some (.fixed (Text.value digits)), t.drop digits.length)

/-- The directive behind a percent sign, and what follows it; the text of the directive when it is
not known. -/
def readField (m : FormatManner) (t : Text) : Except Text (Field × Text) :=
  let flags := t.takeWhile m.flags.contains
  let (width, rest) := fieldNumber? (t.drop flags.length)
  let (precision, rest) := match rest with
    | '.' :: rest =>
      let (n, rest) := fieldNumber? rest
      (some (n.getD (.fixed 0)), rest)
    | _ => (none, rest)
  let rest := rest.dropWhile m.modifiers.contains
  match rest with
  | c :: more =>
    if m.conversions.contains c then .ok (⟨flags, width.getD (.fixed 0), precision, c⟩, more)
    else .error ('%' :: t.take (t.length - more.length))
  | [] => .error ('%' :: t)

/-- The pieces of a format given as characters. -/
def readFormat (m : FormatManner) : Nat → Text → List FormatPiece
  | 0, _ | _, [] => []
  | n + 1, '\\' :: t =>
    match readEscape m.formats t with
    | none => [.stop]
    | some (decoded, rest) => .plain decoded :: readFormat m n rest
  | n + 1, '%' :: '%' :: t => .plain ['%'] :: readFormat m n t
  | n + 1, '%' :: t =>
    match readField m t with
    | .ok (f, rest) => .field f :: readFormat m n rest
    | .error directive => [.unknown directive]
  | n + 1, c :: t => .plain [c] :: readFormat m n t

/-! ## Arguments -/

/-- The value of an argument for a number, and what is wrong with it. A quote stands for the number
of the character behind it. -/
def argumentNumber (m : FormatManner) (t : Text) : Int × List FormatFault :=
  let inBase (base : Nat) (digits : Text) : Option (Nat × Text) :=
    match digits.takeWhile fun c => (hexValue? c).any (· < base) with
    | [] => none
    | row => some ((row.filterMap hexValue?).foldl (base * · + ·) 0, digits.drop row.length)
  let magnitude : Text → Option (Nat × Text)
    | '0' :: 'x' :: t => (inBase 16 t).or (some (0, 'x' :: t))
    | '0' :: 'X' :: t => (inBase 16 t).or (some (0, 'X' :: t))
    | '0' :: t => inBase 8 ('0' :: t)
    | t => inBase 10 t
  let judge (sign : Int) (digits : Text) : Int × List FormatFault :=
    match magnitude digits with
    | none => (0, [.notNumber t])
    | some (n, []) => (sign * n, [])
    | some (n, _) => (sign * n, [.notWhole t])
  match t.dropWhile fun c => c = ' ' || c = '\t' || c = '\n' with
  | [] => (0, if t.isEmpty then [] else [.notNumber t])
  | '\'' :: c :: _ | '"' :: c :: _ =>
    (if m.bytewise then ((byteChars (Text.toUtf8 [c])).headD c).toNat else c.toNat, [])
  | '-' :: digits => judge (-1) digits
  | '+' :: digits => judge 1 digits
  | digits => judge 1 digits

/-- A field whose numbers are known. -/
structure FixedField where
  flags : List Char
  width : Nat
  precision : Option Nat
  conversion : Char

/-- A text in its field. -/
def justify (f : FixedField) (zeros : Bool) (sign body : Text) : Text :=
  let room := f.width - (sign.length + body.length)
  if f.flags.contains '-' then sign ++ body ++ List.replicate room ' '
  else if zeros then sign ++ List.replicate room '0' ++ body
  else List.replicate room ' ' ++ sign ++ body

/-- The number is brought between the bounds of numbers with 64 bits. Without a sign, small numbers
below zero count as large ones. -/
def clipped (signed : Bool) (n : Int) : Int :=
  if signed then max (-0x8000000000000000) (min n 0x7fffffffffffffff)
  else if n.natAbs ≤ Text.maxWord then n % 0x10000000000000000
  else Text.maxWord

/-- A number in its field. -/
def numberField (f : FixedField) (n : Int) : Text :=
  let signed := f.conversion = 'd' || f.conversion = 'i'
  let n := clipped signed n
  let base :=
    if f.conversion = 'o' then 8 else if f.conversion = 'x' || f.conversion = 'X' then 16 else 10
  let digits := if f.precision = some 0 && n = 0 then [] else Nat.toDigits base n.natAbs
  let digits := if f.conversion = 'X' then digits.map Char.toUpper else digits
  let digits := List.replicate (f.precision.getD 1 - digits.length) '0' ++ digits
  let sign :=
    if signed && n < 0 then ['-'] else if signed && f.flags.contains '+' then ['+']
    else if signed && f.flags.contains ' ' then [' ']
    else if f.flags.contains '#' && n ≠ 0 then
      if f.conversion = 'o' then ['0'] else if base = 16 then ['0', f.conversion] else []
    else []
  justify f (f.flags.contains '0' && f.precision.isNone) sign digits

/-! ## Filling -/

/-- What comes of a piece of a format. -/
inductive FormatEvent where
  | written (t : Text)
  | fault (f : FormatFault)
  deriving DecidableEq

/-- What came of filling a format. -/
structure Filling where
  events : List FormatEvent := []
  /-- The arguments that are left. -/
  rest : List Text := []
  /-- Nothing more is written. -/
  isOver : Bool := false

namespace Filling

/-- The filling behind a piece. -/
def followedBy (f : Filling) (next : List Text → Filling) : Filling :=
  if f.isOver then f
  else
    let g := next f.rest
    { g with events := f.events ++ g.events }

/-- What was written. -/
def written (f : Filling) : Text :=
  f.events.flatMap fun
    | .written t => t
    | .fault _ => []

/-- What was wrong. -/
def faults (f : Filling) : List FormatFault :=
  f.events.filterMap fun
    | .written _ => none
    | .fault f => some f

end Filling

/-- The number of a directive, the arguments behind it, and what is wrong. -/
def takeNumber (m : FormatManner) (n : FieldNumber) (args : List Text) :
    Int × List Text × List FormatFault :=
  match n with
  | .fixed n => (n, args, [])
  | .fromArgument =>
    match args with
    | [] => (0, [], [])
    | a :: rest => ((argumentNumber m a).1, rest, (argumentNumber m a).2)

/-- A directive filled with its argument. A width below zero fills from the right. -/
def fillField (m : FormatManner) (f : Field) (args : List Text) : Filling :=
  let (width, args, widthFaults) := takeNumber m f.width args
  let (precision, args, precisionFaults) := match f.precision with
    | none => (none, args, [])
    | some n =>
      let (k, args, faults) := takeNumber m n args
      (if k < 0 then none else some k.toNat, args, faults)
  let fixed : FixedField :=
    ⟨if width < 0 then '-' :: f.flags else f.flags, width.natAbs, precision, f.conversion⟩
  let early := widthFaults ++ precisionFaults
  let arg := args.head?
  let bytes := byteChars (Text.toUtf8 (arg.getD []))
  let cut (t : Text) : Text := match precision with
    | some n => t.take n
    | none => t
  let filled (t : Text) (rest : List Text) (faults : List FormatFault) : Filling :=
    { events := (early ++ faults).map .fault ++ [.written t], rest }
  let shown (t : Text) : Filling := filled (justify fixed false [] t) args.tail []
  match f.conversion with
  | 's' => shown (cut bytes)
  | 'q' => shown (cut (byteChars (Text.toUtf8 (shownName (arg.getD [])))))
  | 'c' => shown [bytes.headD '\x00']
  | 'b' =>
    let (decoded, open_) := decodeEscapes m.arguments bytes.length bytes
    { shown (cut decoded) with isOver := !open_ }
  | _ =>
    match arg with
    | none => filled (numberField fixed 0) [] []
    | some t =>
      let (n, faults) := argumentNumber m t
      let isSigned := f.conversion = 'd' || f.conversion = 'i'
      let fits := if isSigned then clipped true n = n else n.natAbs ≤ Text.maxWord
      let faults := if fits then faults else [.outOfRange t]
      filled (numberField fixed n) args.tail faults

/-- One pass over a format. -/
def fillOnce (m : FormatManner) : List FormatPiece → List Text → Filling
  | [], args => { rest := args }
  | piece :: pieces, args =>
    let first : Filling := match piece with
      | .stop => { rest := args, isOver := true }
      | .unknown directive =>
        { events := [.fault (.badDirective directive)], rest := args, isOver := true }
      | .plain t => { events := [.written t], rest := args }
      | .field f => fillField m f args
    first.followedBy (fillOnce m pieces)

/-- The piece takes an argument. -/
def FormatPiece.takesArgument : FormatPiece → Bool
  | .field _ => true
  | _ => false

/-- Passes over a format until no argument is left. A format without directives is used once. -/
def fill (m : FormatManner) (pieces : List FormatPiece) : Nat → List Text → Filling
  | 0, args => { rest := args }
  | n + 1, args =>
    let once := fillOnce m pieces args
    match once.rest with
    | [] => once
    | a :: _ =>
      if once.isOver then once
      else if !pieces.any FormatPiece.takesArgument then
        { once with events := once.events ++ [.fault (.excess a)] }
      else once.followedBy (fill m pieces n)

/-- The program, by the manner in which it reads its arguments. -/
def formatIn (m : FormatManner) (s : Speaker) : Program := fun args p =>
  let option := match args with
    | ('-' :: c :: _) :: _ => if c = '-' then none else some c
    | _ => none
  let args := if args.head? = some ['-', '-'] then args.tail else args
  match if s.inShell then option else none, args with
  | some c, _ => (s.complain ("Illegal option -".toList ++ [c]) p, .exited 2)
  | none, [] =>
    if s.inShell then (s.complain "usage: printf format [arg ...]".toList p, .exited 2)
    else (s.complainOfUse ["missing operand".toList] p, .exited 1)
  | none, text :: args =>
    let text := byteChars (Text.toUtf8 text)
    let result := fill m (readFormat m text.length text) (args.length + 1) args
    let status : ExitStatus := .ofBool 1 (!result.faults.any FormatFault.isFailure)
    if s.inShell then
      let faults := result.faults.filter FormatFault.isFailure
      let p := faults.foldl (fun p f => s.complain (f.message true) p) p
      let ends := faults.any FormatFault.isBadDirective
      (p.write .output (ofByteChars result.written), if ends then .exited 2 else status)
    else
      s.closeOutput 1 (result.events.foldl (fun p e =>
        match e with
        | .written t => p.write .output (ofByteChars t)
        | .fault f => s.complain (f.message false) p) p, status)

/-- The program. -/
def format : Speaker → Program :=
  formatIn
    { formats := { leadingZero := false, hexadecimal := true, doubleQuote := true }
      arguments := { hexadecimal := true }
      flags := ['-', '+', ' ', '0', '#', '\'']
      conversions := ['s', 'b', 'c', 'd', 'i', 'u', 'o', 'x', 'X', 'q']
      modifiers := ['h', 'l', 'L', 'j', 't', 'z']
      bytewise := false }

/-- The command of a shell, which knows fewer backslash sequences. -/
def shellFormat : Speaker → Program :=
  formatIn
    { formats := { leadingZero := false, stops := false }
      arguments := {}
      flags := ['-', '+', ' ', '0', '#']
      conversions := ['s', 'b', 'c', 'd', 'i', 'u', 'o', 'x', 'X']
      modifiers := []
      bytewise := true }

end Program

end Fanout
