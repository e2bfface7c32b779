import Fanout.Batch.Outcome
import Fanout.FileTree.Layout
import Fanout.Text.Record

/-!
# Processes

A process is a program at work on a machine. It sees the files, and reads and writes through
numbered descriptors: 0 is standard input, 1 is standard output, and 2 is standard error. Each
descriptor leads to a stream, and many can lead to one: what is read through one of them is gone for
the others, and all write behind each other.

A program is a function on processes: all it does is in the process it leaves, and in the way it
ends. Programs look at bytes one by one. `byteChars` gives each byte as the character of its number,
so that a program can be written with characters; `ofByteChars` is the way back.

* `Process.writeTo`: bytes written through a descriptor.
* `Process.waiting`: what can be read through a descriptor; `Process.advance` takes it away.
-/

namespace Fanout

/-- Where a machine gathers what is written. -/
inductive Channel where
  | output
  | errors
  deriving DecidableEq, Repr

/-- The number of the descriptor for a channel. -/
def Channel.number : Channel → Nat
  | output => 1
  | errors => 2

/-- Where bytes come from and go to. -/
inductive Stream where
  /-- What is written is gathered by the machine. -/
  | outside (c : Channel)
  /-- There is nothing to read, and what is written is gone. -/
  | sink
  /-- There is no room for anything. -/
  | full
  /-- What is written waits until it is read; what was written last comes first here. -/
  | pipe (waiting : List ByteArray)
  /-- A file, at a place in it; bytes are written there or at its end. -/
  | file (l : Location) (place : Nat) (appends : Bool)
  /-- A directory, which has no bytes. -/
  | dir

/-- The stream leads to a file. -/
def Stream.isFile : Stream → Bool
  | .file .. => true
  | _ => false

/-- A way to a stream. -/
structure Descriptor where
  stream : Nat
  reads : Bool
  writes : Bool
  deriving DecidableEq, Repr

/-- A program at work. -/
structure Process where
  tree : FileTree
  streams : List (Nat × Stream) := []
  descriptors : List (Nat × Descriptor) := []
  /-- No stream has this number or a larger one. -/
  freshStream : Nat := 0
  /-- The variables that the process was started with. -/
  environment : List (Text × Text) := []
  /-- What came out of the machine, with what came last first. -/
  gathered : List (Channel × ByteArray) := []
  /-- Why standard output could not be written, if it could not. -/
  writeFault : Option SystemError := none
  /-- The number of the process. -/
  id : Nat := 2
  /-- The numbers of the processes that wait for it, with its parent first. -/
  ancestors : List Nat := []
  /-- The signals that the process does not heed. -/
  ignored : List Nat := []
  /-- The rights that files do not get when they are made, as a number. -/
  mask : Nat := 18
  /-- Signals with the processes they were sent to, which still have to take them. -/
  signals : List (Nat × Nat) := []
  /-- No process has this number or a larger one. -/
  freshId : Nat := 3

/-- A program: what it does with its arguments, and how it ends. -/
abbrev Program := List Text → Process → Process × ExitStatus

/-- Each byte as the character of its number. -/
def byteChars (b : ByteArray) : Text := b.toList.map fun n => Char.ofNat n.toNat

/-- The bytes whose numbers the characters have. -/
def ofByteChars (t : Text) : ByteArray := ⟨(t.map fun c => UInt8.ofNat c.toNat).toArray⟩

/-- Bytes one piece behind the other. -/
def joinBytes (pieces : List ByteArray) : ByteArray := pieces.foldl (· ++ ·) .empty

/-- Bytes at a place of others, over those that stood there. A gap is filled with zeros. -/
def overwrite (old : ByteArray) (place : Nat) (new : ByteArray) : ByteArray :=
  let front := if place ≤ old.size then old.extract 0 place
    else old ++ ⟨(List.replicate (place - old.size) 0).toArray⟩
  front ++ new ++ old.extract (place + new.size) old.size

namespace Process

/-- A process at work on files alone: there is nothing to read for it, and the machine gathers what
it writes. -/
def onTree (tree : FileTree) (environment : List (Text × Text)) : Process where
  tree
  streams := [(0, .sink), (1, .outside .output), (2, .outside .errors)]
  descriptors := [(0, ⟨0, true, false⟩), (1, ⟨1, false, true⟩), (2, ⟨2, false, true⟩)]
  freshStream := 3
  environment

/-! ## Descriptors -/

/-- The descriptor of a number. -/
def descriptor? (p : Process) (n : Nat) : Option Descriptor := p.descriptors.lookup n

/-- The number has the descriptor, or none, from now on. -/
def connect (p : Process) (n : Nat) (d : Option Descriptor) : Process :=
  { p with descriptors := (d.map (n, ·)).toList ++ p.descriptors.filter (·.1 ≠ n) }

/-- A new stream, and the process that has it. -/
def addStream (p : Process) (s : Stream) : Nat × Process :=
  (p.freshStream,
    { p with streams := (p.freshStream, s) :: p.streams, freshStream := p.freshStream + 1 })

/-- The stream becomes another one. -/
def setStream (p : Process) (n : Nat) (s : Stream) : Process :=
  { p with streams := p.streams.map fun (k, old) => if k = n then (k, s) else (k, old) }

/-- The streams with this number and larger ones are dropped, unless a descriptor leads to them. -/
def dropSince (p : Process) (n : Nat) : Process :=
  { p with streams := p.streams.filter fun (k, _) => k < n || p.descriptors.any (·.2.stream = k) }

/-! ## Processes and their parents -/

/-- A process of its own that begins as a copy. -/
def fork (p : Process) : Process :=
  { p with id := p.freshId, ancestors := p.id :: p.ancestors, freshId := p.freshId + 1 }

/-- The process when one that it has started is over: what all processes share is as that one left
it. -/
def adopt (p child : Process) : Process :=
  { p with
    tree := { child.tree with workingDir := p.tree.workingDir }
    streams := child.streams.filter fun (k, _) => k < p.freshStream
    freshStream := child.freshStream
    gathered := child.gathered
    signals := child.signals
    freshId := child.freshId }

/-- The process sends a signal. -/
def send (p : Process) (target signal : Nat) : Process :=
  { p with signals := p.signals ++ [(target, signal)] }

/-! ## Writing -/

/-- Bytes written through a descriptor. -/
def writeTo (p : Process) (d : Descriptor) (b : ByteArray) : Except SystemError Process :=
  match d.writes, p.streams.lookup d.stream with
  | false, _ | _, none | _, some .dir => .error .badDescriptor
  | true, some (.outside c) => .ok { p with gathered := (c, b) :: p.gathered }
  | true, some .sink => .ok p
  | true, some .full => if b.size = 0 then .ok p else .error .noSpace
  | true, some (.pipe waiting) => .ok (p.setStream d.stream (.pipe (b :: waiting)))
  | true, some (.file l place appends) =>
    match p.tree.nodeAt? l with
    | some (.file old) =>
      let place := if appends then old.size else place
      .ok { p.setStream d.stream (.file l (place + b.size) appends) with
        tree := p.tree.replace l (.file (overwrite old place b)) }
    | _ => .ok p

/-- More bytes on a channel. What cannot be written to standard output is remembered. -/
def write (p : Process) (c : Channel) (b : ByteArray) : Process :=
  let blocked (e : SystemError) : Process :=
    if c = .output then { p with writeFault := some e } else p
  if b.size = 0 then p
  else match p.descriptor? c.number with
    | none => blocked .badDescriptor
    | some d =>
      match p.writeTo d b with
      | .ok p => p
      | .error e => blocked e

/-- More text on standard output. -/
def say (p : Process) (t : Text) : Process := p.write .output (Text.toUtf8 t)

/-- A line on standard error. -/
def complain (p : Process) (t : Text) : Process := p.write .errors (Text.toUtf8 (t ++ ['\n']))

/-- Standard output is closed. -/
def isMute (p : Process) : Bool := (p.descriptor? 1).isNone

/-- What was gathered on a channel. -/
def onChannel (p : Process) (c : Channel) : ByteArray :=
  joinBytes (p.gathered.reverse.filterMap fun (d, b) => if d = c then some b else none)

/-! ## Reading -/

/-- The bytes that can be read through a descriptor. -/
def waiting (p : Process) (d : Descriptor) : Except SystemError ByteArray :=
  match d.reads, p.streams.lookup d.stream with
  | false, _ | _, none => .error .badDescriptor
  | true, some .dir => .error .isADirectory
  | true, some (.pipe pieces) => .ok (joinBytes pieces.reverse)
  | true, some (.file l place _) =>
    match p.tree.nodeAt? l with
    | some (.file content) => .ok (content.extract place content.size)
    | _ => .ok .empty
  | true, some (.outside _) | true, some .sink | true, some .full => .ok .empty

/-- So many bytes have been read through a descriptor. -/
def advance (p : Process) (d : Descriptor) (n : Nat) : Process :=
  match p.streams.lookup d.stream with
  | some (.pipe pieces) =>
    let all := joinBytes pieces.reverse
    p.setStream d.stream (.pipe [all.extract n all.size])
  | some (.file l place appends) => p.setStream d.stream (.file l (place + n) appends)
  | _ => p

/-- The bytes that can be read from standard input. -/
def input (p : Process) : Except SystemError ByteArray :=
  match p.descriptor? 0 with
  | none => .error .badDescriptor
  | some d => p.waiting d

/-- So many bytes have been read from standard input. -/
def skipInput (p : Process) (n : Nat) : Process :=
  match p.descriptor? 0 with
  | none => p
  | some d => p.advance d n

/-- All that can be read through a descriptor. -/
def drainFrom (p : Process) (d : Option Descriptor) : Except SystemError ByteArray × Process :=
  match d with
  | none => (.error .badDescriptor, p)
  | some d =>
    match p.waiting d with
    | .ok b => (.ok b, p.advance d b.size)
    | .error e => (.error e, p)

/-- All that can be read from standard input. -/
def drain (p : Process) : Except SystemError ByteArray × Process := p.drainFrom (p.descriptor? 0)

/-- The stream of standard input. -/
def inputStream? (p : Process) : Option Stream :=
  (p.descriptor? 0).bind fun d => p.streams.lookup d.stream

/-- Standard input is a file. -/
def inputIsFile (p : Process) : Bool := p.inputStream?.any Stream.isFile

/-- The bytes at a path. A device that leads to a channel is read like the channel, but a file that
stands behind it is read from its start. -/
def readPath (p : Process) (path : Text) : Except IoFault ByteArray × Process :=
  match p.tree.open? path with
  | .error f => (.error f, p)
  | .ok (.channel n) =>
    match p.descriptor? n with
    | none => (.error (.system .notFound), p)
    | some d =>
      match p.streams.lookup d.stream with
      | some (.file l _ _) =>
        (match p.tree.nodeAt? l with
          | some e => e.bytes
          | none => .error (.system .notFound), p)
      | _ =>
        let (content, p) := p.drainFrom (some d)
        (content.mapError .system, p)
  | .ok e => (e.bytes, p)

/-- The bytes of an operand: a lone dash stands for standard input. -/
def readOperand (p : Process) (operand : Text) : Except IoFault ByteArray × Process :=
  if operand = ['-'] then
    let (content, p) := p.drain
    (content.mapError .system, p)
  else p.readPath operand

end Process

/-- The text of a fault, as programs report it. -/
def IoFault.brief : IoFault → Text
  | .system e => e.text
  | f => f.message

namespace ExitStatus

/-- The program did what it was asked to. -/
def success : ExitStatus := .exited 0

/-- Success or, with code `n`, failure. -/
def ofBool (n : Nat) (ok : Bool) : ExitStatus := if ok then .success else .exited n

end ExitStatus

/-- The lines of bytes given as characters, and whether the last one lacks its newline. -/
def byteLines (t : Text) : List Text :=
  let ls := t.splitOn '\n'
  if ls.getLast? = some [] then ls.dropLast else ls

end Fanout
