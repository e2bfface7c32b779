import Fanout.Machine.Script.Substitution

/-!
# Redirections

A redirection leads a channel elsewhere while a command runs. The words of all redirections are
expanded before the first one is made; afterwards the channels lead where they led before.

* `Process.openFile`: a way to what stands at a path.
* `ShellState.redirect`: the shell with its channels led elsewhere.
* `Process.reconnect`: the channels as they were.
-/

namespace Fanout

/-- Why a file cannot be opened, as the shell puts it. -/
def openFault (creates : Bool) (path : Text) (f : IoFault) : Text :=
  let why := match f with
    | .system e =>
      if e = .notFound || e = .notADirectory then
        (if creates then "Directory nonexistent" else "No such file").toList
      else e.text
    | f => f.message
  (if creates then "cannot create " else "cannot open ").toList ++ path ++ [':', ' '] ++ why

namespace Process

/-- A new stream, and a descriptor that leads to it. -/
def openStream (p : Process) (s : Stream) (reads writes : Bool) : Descriptor × Process :=
  let (n, p) := p.addStream s
  (⟨n, reads, writes⟩, p)

/-- A way to a device that leads to a channel: a file behind it is opened once more. -/
def openChannel (p : Process) (reads writes empties appends : Bool) (n : Nat) :
    Except IoFault (Descriptor × Process) :=
  match p.descriptor? n with
  | none => .error (.system .notFound)
  | some d =>
    match p.streams.lookup d.stream with
    | some (.file l _ _) =>
      let tree := if empties then p.tree.replace l (.file .empty) else p.tree
      .ok ({ p with tree }.openStream (.file l 0 appends) reads writes)
    | _ => .ok (⟨d.stream, reads, writes⟩, p)

/-- A way to what stands at a path. A file is made, or made empty, if the kind of the redirection is
so, and a file that is there can be safe from that. -/
def openFile (p : Process) (kind : RedirectKind) (keepsFiles : Bool) (path : Text) :
    Except IoFault (Descriptor × Process) := do
  let reads := kind = .read || kind = .both
  let writes := kind ≠ .read
  let empties := kind = .write || kind = .force
  let appends := kind = .append
  let l ← if writes then p.tree.spot path else p.tree.resolve path true
  match p.tree.nodeAt? l with
  | none => .ok ({ p with tree := p.tree.replace l (.file .empty) }.openStream
      (.file l 0 appends) reads writes)
  | some .dir => if writes then .error (.system .isADirectory) else .ok (p.openStream .dir reads false)
  | some .terminal => .error (.system .noDevice)
  | some .sink => .ok (p.openStream .sink reads writes)
  | some .full => .ok (p.openStream .full reads writes)
  | some (.channel n) => p.openChannel reads writes empties appends n
  | some _ =>
    if kind = .write && keepsFiles then .error (.system .fileExists)
    else
      let tree := if empties then p.tree.replace l (.file .empty) else p.tree
      .ok ({ p with tree }.openStream (.file l 0 appends) reads writes)

/-- The channels lead where they led in an earlier state of the process. Streams that have come
since then are dropped, unless something else leads to them. -/
def reconnect (p old : Process) (channels : List Nat) : Process :=
  (channels.foldl (fun p n => p.connect n (old.descriptor? n)) p).dropSince old.freshStream

end Process

namespace ShellState

/-- A text names a channel to copy, or none at all. -/
def namesChannel : Text → Bool
  | [c] => c.isDigit || c = '-'
  | _ => false

/-- Redirections with the texts of their words, and the shell behind these. The texts that commands
read are left for later. -/
def expandTargets (host : ShellHost) :
    List Redirect → ShellState → List (Redirect × Text) × ShellState
  | [], s => ([], s)
  | r :: rs, s =>
    let (target, s) := if r.kind = .text then ([], s) else r.target.text host false s
    let s := if !s.isHalted && r.kind = .copy && !namesChannel target then
        s.fail "Syntax error: Bad fd number".toList
      else s
    if s.isHalted then ([], s)
    else
      let (more, s) := expandTargets host rs s
      ((r, target) :: more, s)

/-- The shell with a channel led elsewhere, if that is possible. A fault in a text to read makes it
impossible, too. -/
def redirectOne (host : ShellHost) (r : Redirect) (target : Text) (s : ShellState) :
    ShellState × Bool :=
  let connected (s : ShellState) (p : Process) (d : Option Descriptor) : ShellState × Bool :=
    ({ s with process := p.connect r.channel d }, true)
  match r.kind with
  | .copy =>
    if target = ['-'] then connected s s.process none
    else match s.process.descriptor? (Text.value target) with
      | some d => connected s s.process (some d)
      | none => (s.report (target ++ ": Bad file descriptor".toList) 2, false)
  | .text =>
    let (t, s) := r.target.text host false s
    if s.isHalted then ({ s with halt := if s.halt = some .fault then none else s.halt }, false)
    else
      let (d, p) := s.process.openStream (.pipe [Text.toUtf8 t]) true false
      connected s p (some d)
  | kind =>
    match s.process.openFile kind (s.isOn .keepsFiles) target with
    | .ok (d, p) => connected s p (some d)
    | .error f => (s.report (openFault (kind ≠ .read) target f) 2, false)

/-- The shell with channels led elsewhere, from left to right, as long as that is possible. -/
def redirect (host : ShellHost) : List (Redirect × Text) → ShellState → ShellState × Bool
  | [], s => (s, true)
  | (r, target) :: rest, s =>
    match redirectOne host r target s with
    | (s, true) => redirect host rest s
    | (s, false) => (s, false)

/-- The shell with its channels as they were in an earlier state. -/
def reconnect (s old : ShellState) (redirects : List Redirect) : ShellState :=
  { s with process := s.process.reconnect old.process (redirects.map Redirect.channel) }

end ShellState

end Fanout
