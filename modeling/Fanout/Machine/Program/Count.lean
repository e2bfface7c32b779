import Fanout.Machine.Program.Cat

/-!
# Counting

Counts the newlines, words, characters and bytes of its operands, and measures their longest lines.
The counts of an operand stand on one line, each in a field wide enough for the bytes of all files;
a total follows when there is more than one operand. A directory counts as empty.
-/

namespace Fanout

namespace Program

/-- What can be counted, in the order it is shown. -/
inductive Measure where
  | lines
  | words
  | chars
  | bytes
  /-- The width of the longest line. -/
  | width
  deriving DecidableEq, Repr

namespace Measure

/-- The measures in the order they are shown. -/
def all : List Measure := [lines, words, chars, bytes, width]

/-- The option letter that asks for a measure. -/
def letter : Measure → Char
  | lines => 'l'
  | words => 'w'
  | chars => 'm'
  | bytes => 'c'
  | width => 'L'

/-- A byte that parts words. -/
def partsWords (c : Char) : Bool :=
  c = ' ' || c = '\n' || c = '\t' || c = '\r' || c = '\x0b' || c = '\x0c'

/-- The number of runs of bytes between those that part words. -/
def wordCount (inWord : Bool) : Text → Nat
  | [] => 0
  | c :: t =>
    if partsWords c then wordCount false t
    else if inWord then wordCount true t else wordCount true t + 1

/-- The byte begins a character of UTF-8 text. -/
def beginsChar (c : Char) : Bool := c.toNat < 0x80 || 0xc0 ≤ c.toNat

/-- The width of the longest line. A tab reaches to the next multiple of eight. -/
def longestLine (longest column : Nat) : Text → Nat
  | [] => max longest column
  | c :: t =>
    if c = '\n' || c = '\r' || c = '\x0c' then longestLine (max longest column) 0 t
    else if c = '\t' then longestLine longest (column - column % 8 + 8) t
    else if beginsChar c && 32 ≤ c.toNat && c.toNat ≠ 127 then longestLine longest (column + 1) t
    else longestLine longest column t

/-- The measure of bytes given as characters. -/
def of (t : Text) : Measure → Nat
  | lines => t.count '\n'
  | words => wordCount false t
  | chars => t.countP beginsChar
  | bytes => t.length
  | width => longestLine 0 0 t

/-- The measure of several texts together. -/
def together : Measure → Nat → Nat → Nat
  | width => max
  | _ => (· + ·)

end Measure

/-- One line of counts. -/
def countLine (width : Nat) (name : Option Text) (counts : List Nat) : Text :=
  Text.join [' '] (counts.map (padded width) ++ name.toList) ++ ['\n']

/-- The source is a file, so that its size is known before it is read. -/
def isSized (inputIsFile : Bool) (s : Source) : Bool :=
  match s.content with
  | .ok _ => s.name ≠ ['-'] || inputIsFile
  | .error f => f ≠ .system .isADirectory

/-- The width of the fields: as many digits as the bytes of all files take, and at least seven when
a source is no file. A single count of a single operand needs no field. -/
def countWidth (inputIsFile : Bool) (sources : List Source) (measures : Nat) : Nat :=
  let total := (sources.map fun s => s.bytes.size).foldl (· + ·) 0
  if sources.length = 1 && measures = 1 then 1
  else if sources.all (isSized inputIsFile) then (Text.numeral total).length
  else max 7 (Text.numeral total).length

/-- The source has a line of counts. -/
def isCounted (s : Source) : Bool :=
  match s.content with
  | .ok _ => true
  | .error f => f = .system .isADirectory || f = .system .badDescriptor

/-- When there is a line with the total. -/
inductive TotalRule where
  | auto
  | always
  /-- There is no other line. -/
  | only
  | never
  deriving DecidableEq, Repr

/-- The rule of each name. -/
def totalRules : List (String × TotalRule) :=
  [("auto", .auto), ("always", .always), ("only", .only), ("never", .never)]

/-- The letter of the option for that, which has only a long name. -/
def totalLetter : Char := '\x01'

/-- The options. -/
def countOptions : OptionTable where
  letters := Measure.all.map Measure.letter
  valued := [totalLetter]
  names := [("bytes", 'c'), ("chars", 'm'), ("lines", 'l'), ("words", 'w'),
    ("max-line-length", 'L'), ("total", totalLetter)]

/-- The rule that options ask for, or what is wrong with its name, line by line. -/
def totalRule (r : Request) : Except (List Text) TotalRule :=
  match (r.values totalLetter).getLast? with
  | none => .ok .auto
  | some name =>
    match totalRules.filter fun (n, _) => name.isPrefixOf n.toList with
    | [(_, rule)] => .ok rule
    | fitting =>
      let fault := if fitting.isEmpty then "invalid" else "ambiguous"
      .error ((fault.toList ++ " argument ".toList ++ marked name ++ " for ".toList
          ++ marked "--total".toList) :: "Valid arguments are:".toList
        :: totalRules.map fun (n, _) => "  - ".toList ++ marked n.toList)

/-- The name of an operand in a complaint. -/
def countName (implied : Bool) (name : Text) : Text :=
  if implied then "'standard input'".toList else shownName name

/-- The counts of a source. -/
def countsOf (measures : List Measure) (s : Source) : List Nat :=
  measures.map (Measure.of (byteChars s.bytes))

/-- The program. -/
def count (s : Speaker) : Program := fun args p =>
  match countOptions.read args with
  | .error why => (s.complainOfUse [why] p, .exited 1)
  | .ok r =>
    match totalRule r with
    | .error why => (s.complainOfUse why p, .exited 1)
    | .ok rule =>
      let measures := if r.options.all (·.1 = totalLetter) then [.lines, .words, .bytes]
        else Measure.all.filter fun m => r.asks m.letter
      let implied := r.operands.isEmpty
      let fromFile := p.inputIsFile
      let (sources, p) := readOperands (operandsOrInput r.operands) p
      let width := if rule = .only then 1 else countWidth fromFile sources measures.length
      let p := sources.foldl (fun p f =>
        let p := f.complain s (countName implied) p
        if isCounted f && rule ≠ .only then
          p.say (countLine width (if implied then none else some f.name) (countsOf measures f))
        else p) p
      let sum (totals ns : List Nat) : List Nat :=
        (measures.zip (totals.zip ns)).map fun (m, a, b) => m.together a b
      let totals := ((sources.filter isCounted).map (countsOf measures)).foldl sum
        (measures.map fun _ => 0)
      let hasTotal := rule = .always || rule = .only || rule = .auto && 1 < r.operands.length
      let label := if rule = .only then none else some "total".toList
      let p := if hasTotal then p.say (countLine width label totals) else p
      let isClosed := sources.any (·.name = ['-']) && (p.descriptor? 0).isNone
      let p := if isClosed then s.complain ("-: ".toList ++ SystemError.badDescriptor.text) p else p
      s.closeOutput 1 (p, .ofBool 1 (sources.all Source.isRead))

end Program

end Fanout
