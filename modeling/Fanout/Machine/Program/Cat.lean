import Fanout.Machine.Program.Operands

/-!
# Cat

Writes its operands one after another, or standard input when there are none. Lines can be
numbered, empty ones can be squeezed, and characters that do not show can be made visible.
-/

namespace Fanout

namespace Program

/-- A number in a field of the given width, right-justified. -/
def padded (width n : Nat) : Text :=
  List.replicate (width - (Text.numeral n).length) ' ' ++ Text.numeral n

/-- The options. -/
def catOptions : OptionTable where
  letters := ['A', 'b', 'e', 'E', 'n', 's', 't', 'T', 'u', 'v']
  names := [("show-all", 'A'), ("number-nonblank", 'b'), ("show-ends", 'E'), ("number", 'n'),
    ("squeeze-blank", 's'), ("show-tabs", 'T'), ("show-nonprinting", 'v')]

/-- A byte below 128 made visible. -/
def visibleLow (c : Char) : Text :=
  if c.toNat < 32 then ['^', Char.ofNat (c.toNat + 64)]
  else if c.toNat = 127 then ['^', '?']
  else [c]

/-- A byte made visible. -/
def visible (c : Char) : Text :=
  if c.toNat < 128 then visibleLow c else 'M' :: '-' :: visibleLow (Char.ofNat (c.toNat - 128))

/-- How lines are shown. -/
structure CatMode where
  numbered : Bool
  /-- Empty lines have no numbers. -/
  skipsEmpty : Bool
  ends : Bool
  tabs : Bool
  signs : Bool
  squeezed : Bool

/-- The mode that options ask for. -/
def CatMode.ofRequest (r : Request) : CatMode where
  numbered := r.asks 'n' || r.asks 'b'
  skipsEmpty := r.asks 'b'
  ends := r.asks 'E' || r.asks 'e' || r.asks 'A'
  tabs := r.asks 'T' || r.asks 't' || r.asks 'A'
  signs := r.asks 'v' || r.asks 'e' || r.asks 't' || r.asks 'A'
  squeezed := r.asks 's'

/-- A byte as it is shown. -/
def CatMode.shown (m : CatMode) (c : Char) : Text :=
  if c = '\t' then (if m.tabs then ['^', 'I'] else [c])
  else if m.signs then visible c
  else [c]

/-- Lines with the number of the next one; the flag tells whether the line before is empty. The last
line has no end. -/
def CatMode.lines (m : CatMode) (number : Nat) (behindEmpty : Bool) : List Text → Text
  | [] => []
  | [l] =>
    if l.isEmpty then []
    else (if m.numbered then padded 6 number ++ ['\t'] else []) ++ l.flatMap m.shown
  | l :: ls =>
    if m.squeezed && l.isEmpty && behindEmpty then m.lines number true ls
    else
      let counts := m.numbered && !(m.skipsEmpty && l.isEmpty)
      let front := if counts then padded 6 number ++ ['\t'] else []
      let mark := if m.ends then ['$', '\n'] else ['\n']
      front ++ l.flatMap m.shown ++ mark
        ++ m.lines (if counts then number + 1 else number) l.isEmpty ls

/-- What the program has done so far. -/
structure CatProgress where
  process : Process
  /-- The bytes of the operands so far. -/
  content : ByteArray := .empty
  /-- How much of what they look like is written. -/
  shown : Nat := 0
  succeeded : Bool := true

/-- The location of the file behind a descriptor, and the place in it where bytes go or come from. -/
def filePlace? (p : Process) (n : Nat) : Option (Location × Nat) := do
  let d ← p.descriptor? n
  match ← p.streams.lookup d.stream with
  | .file l place appends =>
    let size := match p.tree.nodeAt? l with
      | some (.file content) => content.size
      | _ => 0
    some (l, if appends then size else place)
  | _ => none

/-- What is read from the operand would be written behind it without an end. -/
def feedsItself (p : Process) (operand : Text) : Bool :=
  let source := if operand = ['-'] then filePlace? p 0
    else ((p.tree.resolve operand true).toOption).map (·, 0)
  match source, filePlace? p 1 with
  | some (l, read), some (m, written) => l = m && read < written
  | _, _ => false

/-- One more operand. -/
def CatProgress.next (s : Speaker) (show_ : ByteArray → ByteArray) (c : CatProgress)
    (operand : Text) : CatProgress :=
  if feedsItself c.process operand then
    let why := shownName operand ++ ": input file is output file".toList
    { c with process := s.complain why c.process, succeeded := false }
  else
    let (content, p) := c.process.readOperand operand
    match content with
    | .error f =>
      let p := s.complain (shownName operand ++ [':', ' '] ++ f.brief) p
      { c with process := p, succeeded := false }
    | .ok b =>
      let content := c.content ++ b
      let all := show_ content
      { c with process := p.write .output (all.extract c.shown all.size)
               content, shown := all.size }

/-- The program. -/
def cat (s : Speaker) : Program := fun args p =>
  match catOptions.read args with
  | .error why => (s.complainOfUse [why] p, .exited 1)
  | .ok r =>
    if p.isMute then
      (s.complain ("standard output: ".toList ++ SystemError.badDescriptor.text) p, .exited 1)
    else
      let shown (all : ByteArray) : ByteArray :=
        if r.options.all (·.1 = 'u') then all
        else ofByteChars ((CatMode.ofRequest r).lines 1 false ((byteChars all).splitOn '\n'))
      let operands := operandsOrInput r.operands
      let c := operands.foldl (CatProgress.next s shown) { process := p }
      let p := if operands.contains ['-'] && (c.process.descriptor? 0).isNone then
          s.complain ("closing standard input: ".toList ++ SystemError.badDescriptor.text) c.process
        else c.process
      s.closeOutput 1 (p, .ofBool 1 c.succeeded)

end Program

end Fanout
