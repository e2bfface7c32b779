import Fanout.Machine.Script.Builtin.Arguments

/-!
# Commands for the working directory

A shell remembers the path by which it came to its working directory: a step upwards leads back to
where a link was followed. It can also be asked for the path without links.

* `logicalPath`: the path of a directory, as seen from another one.
* `ShellState.changeDir`: another working directory.
-/

namespace Fanout

/-- The pieces of a path with its steps upwards taken, on top of others. The last piece comes
first. -/
def logicalPieces (front : List Text) : List Text → List Text
  | [] => front
  | p :: rest =>
    if p.isEmpty || p = ['.'] then logicalPieces front rest
    else if p = ['.', '.'] then logicalPieces front.tail rest
    else logicalPieces (p :: front) rest

/-- The path of a directory, as seen from another one: links are not looked at. -/
def logicalPath (here path : Text) : Text :=
  let isAbsolute := Path.isAbsolute path
  let base := if isAbsolute then path else here
  let root := match base with
    | '/' :: '/' :: '/' :: _ => ['/']
    | '/' :: '/' :: _ => ['/', '/']
    | _ => ['/']
  let start := if isAbsolute then [] else logicalPieces [] (Path.pieces here)
  root ++ Text.join ['/'] (logicalPieces start (Path.pieces path)).reverse

/-- The path of a location. -/
def locationPath (l : Location) : Text := '/' :: Text.join ['/'] l

namespace ShellState

/-- The option among flags that counts: the last one. -/
def isPhysical (flags : List (Char × Text)) : Bool := flags.getLast?.any (·.1 = 'P')

/-- The working directory is the one at a path, if there is one. -/
def enterDir (s : ShellState) (physical : Bool) (path : Text) : Option ShellState :=
  let logical := logicalPath s.directory path
  let tree := s.process.tree
  match tree.resolve (if physical then path else logical) true with
  | .ok l =>
    if tree.isDirAt l then
      let directory := if physical then locationPath l else logical
      let s := { s with process := { s.process with tree := { tree with workingDir := l } } }
      let s := (s.assign "OLDPWD".toList s.directory).passOn "OLDPWD".toList
      let s := (s.assign "PWD".toList directory).passOn "PWD".toList
      some { s with directory, found := [] }
    else none
  | .error _ => none

/-- The path is looked for from the working directory on only. -/
def isAnchored (path : Text) : Bool :=
  Path.isAbsolute path || match Path.pieces path with
    | p :: _ => p = ['.'] || p = ['.', '.']
    | [] => false

/-- Another working directory: the home directory, the one before, or the one at a path, which can
be looked for in several places. -/
def changeDir : Builtin := fun _ args s =>
  s.withFlags ['L', 'P'] [] args fun flags rest =>
    let valueOf (name : String) : Text := (s.bindings.lookup name.toList).getD []
    let isBack := rest.head? = some ['-']
    let path := match rest with
      | [] => valueOf "HOME"
      | path :: _ => if isBack then valueOf "OLDPWD" else path
    let places := if isAnchored path then []
      else (valueOf "CDPATH").splitOn ':' |>.filterMap fun place =>
        let full := if place.isEmpty then path
          else if place.getLast? = some '/' then place ++ path
          else place ++ '/' :: path
        if s.process.tree.isDir full then some (full, !place.isEmpty) else none
    let path' := if path.isEmpty then ['.'] else path
    let (target, isFound) := places.headD (path', false)
    match s.enterDir (isPhysical flags) target with
    | some after =>
      (if isBack || isFound then after.say (after.directory ++ ['\n']) else after).settle 0
    | none => s.fail ("can't cd to ".toList ++ path')

/-- The path of the working directory is written. -/
def showDir : Builtin := fun _ args s =>
  s.withFlags ['L', 'P'] [] args fun flags _ =>
    let path := if isPhysical flags then locationPath s.process.tree.workingDir else s.directory
    (s.say (path ++ ['\n'])).settle 0

/-! ## Rights -/

/-- The rights that letters stand for, when all others have the rights of `mask`. -/
def rightsOf? (allowed : Nat) (letters : Text) : Option Nat :=
  letters.foldlM (fun rights c =>
    match c with
    | 'r' => some (rights ||| 4)
    | 'w' => some (rights ||| 2)
    | 'x' => some (rights ||| 1)
    | 'X' => some rights
    | 's' | 't' => some rights
    | 'u' => some (rights ||| (allowed / 64) % 8)
    | 'g' => some (rights ||| (allowed / 8) % 8)
    | 'o' => some (rights ||| allowed % 8)
    | _ => none) 0

/-- The rights behind one clause: who has them, what becomes of them, and letters. -/
def changeRights? (allowed : Nat) (clause : Text) : Option Nat :=
  let who := clause.takeWhile fun c => ['u', 'g', 'o', 'a'].contains c
  let whole := who.isEmpty || who.contains 'a'
  let places := (if whole || who.contains 'u' then [64] else [])
    ++ (if whole || who.contains 'g' then [8] else [])
    ++ (if whole || who.contains 'o' then [1] else [])
  match clause.drop who.length with
  | [] => some allowed
  | operator :: letters => do
    let rights ← rightsOf? allowed letters
    let change (old : Nat) : Option Nat :=
      if operator = '=' then some rights
      else if operator = '+' then some (old ||| rights)
      else if operator = '-' then some (old - (old &&& rights))
      else none
    places.foldlM (fun allowed place => do
      let old := allowed / place % 8
      some (allowed - old * place + (← change old) * place)) allowed

/-- Rights as letters. -/
def rightLetters (allowed : Nat) : Text :=
  let letters (n : Nat) : Text :=
    (if n &&& 4 ≠ 0 then ['r'] else []) ++ (if n &&& 2 ≠ 0 then ['w'] else [])
      ++ (if n &&& 1 ≠ 0 then ['x'] else [])
  "u=".toList ++ letters (allowed / 64 % 8) ++ ",g=".toList ++ letters (allowed / 8 % 8)
    ++ ",o=".toList ++ letters (allowed % 8)

/-- The rights that files do not get are written, or chosen. -/
def limitRights : Builtin := fun _ args s =>
  s.withFlags ['S'] [] args fun flags rest =>
    let mask := s.process.mask
    let choose (mask : Nat) : ShellState :=
      { s with process := { s.process with mask := mask % 512 }, status := 0 }
    match rest with
    | [] =>
      let digits := Nat.toDigits 8 mask
      let shown := if flags.isEmpty then List.replicate (4 - digits.length) '0' ++ digits
        else rightLetters (511 - mask)
      (s.say (shown ++ ['\n'])).settle 0
    | mode :: _ =>
      if mode.head?.any Char.isDigit then
        if mode.all isOctal then choose (Nat.ofDigitChars 8 mode 0) else s.failNumber mode
      else match (mode.splitOn ',').foldlM changeRights? (511 - mask) with
        | some allowed => choose (511 - allowed)
        | none => s.fail ("Illegal mode: ".toList ++ mode)

/-- The limits of the shell: there are none. -/
def showLimits : Builtin := fun _ args s =>
  s.withFlags "HSatfdsmcpnvwrl".toList [] args fun _ _ =>
    (s.say "unlimited\n".toList).settle 0

end ShellState

end Fanout
