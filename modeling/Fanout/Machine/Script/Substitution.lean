import Fanout.Machine.Script.Shell
import Fanout.Machine.Script.Word

/-!
# Words in a shell

A shell replaces the parts of a word one after another: by values of its parameters, by the output
of scripts that it runs, and by the values of expressions. That can change the shell, and it can
fail.

* `Word.expand`: the atoms of a word.
* `expandWords`: the arguments that words stand for.
-/

namespace Fanout

namespace ShellState

/-- The shell with the output of a copy that ran a script, as a value. The script stands in that of
the shell, with so many newlines behind it, or has lines of its own. -/
def outputOf (host : ShellHost) (script : Text) (behind : Option Nat) (s : ShellState) :
    Text × ShellState :=
  let (n, opened) := s.process.addStream (.pipe [])
  let copy := { s with process := opened }.fork
  let process := copy.process.connect 1 (some ⟨n, false, true⟩)
  let lines := behind.map (s.newlines - ·)
  let copy := (host.interpret lines script { copy with process, tested := false }).conclude host
  let output := (copy.process.waiting ⟨n, true, false⟩).toOption.getD .empty
  let after := s.absorb copy
  (outputValue output, { after with status := s.status, substituted := after.status })

/-- The shell behind an expression, and its value. -/
def compute (expression : Text) (s : ShellState) : Text × ShellState :=
  match Arithmetic.evaluate expression s.bindings with
  | .error f => ([], s.fail (f.message expression))
  | .ok (value, bindings) =>
    let changes (name : Text) : Bool := bindings.lookup name ≠ s.bindings.lookup name
    match s.readOnly.find? changes with
    | some name => ([], s.fail (name ++ ": is read only".toList))
    | none =>
      let shown := if value < 0 then '-' :: Text.numeral value.natAbs else Text.numeral value.natAbs
      (shown, { s with bindings })

end ShellState

mutual

/-- The atoms of one part of a word, and the shell behind it. -/
def WordPart.expand (host : ShellHost) : WordPart → ShellState → List Atom × ShellState
  | .plain t, s => (t.map (.char · false false), s)
  | .quoted t, s => (valueAtoms true t, s)
  | .parameter name use operand isQuoted, s =>
    let isAll := name = ['@'] || name = ['*']
    let asValue (t : Text) : List Atom :=
      if name = ['@'] || name = ['*'] && !isQuoted then parameterAtoms isQuoted s.parameters
      else valueAtoms isQuoted t
    let instead : List Atom × ShellState :=
      let (atoms, s) := Word.expand host operand s
      (operandAtoms isQuoted atoms, s)
    let needed (next : Text → List Atom × ShellState) : List Atom × ShellState :=
      match s.value? name with
      | some v => next v
      | none =>
        if s.isOn .strict && !isAll then ([], s.fail (name ++ ": parameter not set".toList))
        else next []
    match use with
    | .value => needed fun v => (asValue v, s)
    | .length => needed fun v => (valueAtoms isQuoted (Text.numeral (Text.byteLength v)), s)
    | .orElse nonempty =>
      match s.given? name nonempty with
      | some v => (asValue v, s)
      | none => instead
    | .ifGiven nonempty =>
      match s.given? name nonempty with
      | some _ => instead
      | none => ([], s)
    | .orAssign nonempty =>
      match s.given? name nonempty with
      | some v => (asValue v, s)
      | none =>
        let (atoms, s) := Word.expand host operand s
        let t := atomText s.joint atoms
        if s.isHalted then ([], s)
        else if !name.head?.any beginsName then
          ([], s.fail (name ++ ": bad variable name".toList))
        else (valueAtoms isQuoted t, s.set name t)
    | .orFail nonempty =>
      match s.given? name nonempty with
      | some v => (asValue v, s)
      | none =>
        let (atoms, s) := Word.expand host operand s
        let why := if !operand.isEmpty then atomText s.joint atoms
          else if nonempty then "parameter not set or null".toList else "parameter not set".toList
        if s.isHalted then ([], s) else ([], s.fail (name ++ [':', ' '] ++ why))
    | .withoutStart longest => needed fun v =>
      let (atoms, s) := Word.expand host operand s
      (valueAtoms isQuoted (Wildcard.withoutStart longest (atomSigns s.joint atoms) v), s)
    | .withoutEnd longest => needed fun v =>
      let (atoms, s) := Word.expand host operand s
      (valueAtoms isQuoted (Wildcard.withoutEnd longest (atomSigns s.joint atoms) v), s)
  | .command script behind isQuoted, s =>
    let (value, s) := s.outputOf host script behind
    (valueAtoms isQuoted value, s)
  | .sum operand isQuoted, s =>
    let (atoms, s) := Word.expand host operand s
    if s.isHalted then ([], s)
    else
      let (value, s) := s.compute (atomText s.joint atoms)
      (valueAtoms isQuoted value, s)

/-- The atoms of a word, and the shell behind it. Quotes around all parameters make no argument
where there are none. -/
def Word.expand (host : ShellHost) : List WordPart → ShellState → List Atom × ShellState
  | [], s => ([], s)
  | part :: parts, s =>
    let isVoid := match part, parts with
      | .quoted [], .parameter ['@'] .value _ true :: _ => true
      | _, _ => false
    let (atoms, s) := if isVoid then ([], s) else part.expand host s
    if s.isHalted then ([], s)
    else
      let (more, s) := Word.expand host parts s
      (atoms ++ more, s)

end

namespace Word

/-- The text of a word that is not parted. -/
def text (host : ShellHost) (inValue : Bool) (w : Word) (s : ShellState) : Text × ShellState :=
  let home := s.bindings.lookup "HOME".toList
  let (atoms, s) := expand host (w.withHomes home inValue) s
  (atomText s.joint atoms, s)

/-- The arguments that a word stands for, and the shell behind it. -/
def args (host : ShellHost) (w : Word) (s : ShellState) : List Text × ShellState :=
  let home := s.bindings.lookup "HOME".toList
  let (atoms, s) := expand host (w.withHomes home false) s
  let found := (arguments s.separators atoms).flatMap fun a =>
    if s.isOn .plainNames then [a.text] else a.paths s.process.tree
  (if s.isHalted then [] else found, s)

end Word

/-- The arguments that words stand for, and the shell behind them. -/
def expandWords (host : ShellHost) : List Word → ShellState → List Text × ShellState
  | [], s => ([], s)
  | w :: ws, s =>
    let (found, s) := w.args host s
    if s.isHalted then ([], s)
    else
      let (more, s) := expandWords host ws s
      (found ++ more, s)

/-- The commands whose arguments can be values of variables. -/
def declaring : List String := ["export", "readonly", "local"]

/-- Whether values of variables are given to a command, as far as its arguments are known. -/
def declares? : List Text → Option Bool
  | [] => none
  | name :: rest =>
    if name = "command".toList then
      if rest.head?.any fun a => a = ['-', 'p'] || a = ['-', '-'] then none
      else rest.head?.map fun a => declaring.contains (String.ofList a)
    else some (declaring.contains (String.ofList name))

/-- The arguments of a command, behind those that are known. -/
def expandArguments (host : ShellHost) (known : List Text) :
    List Word → ShellState → List Text × ShellState
  | [], s => ([], s)
  | w :: ws, s =>
    let value? := if declares? known = some true then w.assignment? else none
    let (found, s) := match value? with
      | some (name, w) =>
        let (t, s) := Word.text host true w s
        ([name ++ '=' :: t], s)
      | none => w.args host s
    if s.isHalted then ([], s)
    else
      let known := if (declares? known).isSome then known else known ++ found
      let (more, s) := expandArguments host known ws s
      (found ++ more, s)

end Fanout
