import Fanout.Machine.CharClass
import Fanout.Machine.Program.Escape
import Fanout.Machine.Program.Operands

/-!
# Replacing bytes

Reads standard input and writes it with bytes replaced, deleted, or squeezed when they repeat. The
bytes are named by sets: single ones, ranges, classes, and backslash sequences.
-/

namespace Fanout

namespace Program

/-- The bytes from one to another. -/
def byteSpan (a b : Char) : List Char :=
  (List.range' a.toNat (b.toNat + 1 - a.toNat)).map Char.ofNat

/-- The first byte that a set names singly, and what follows it. -/
def readSetByte? : Text → Option (Char × Text)
  | [] => none
  | '\\' :: t =>
    match readEscape { leadingZero := false, escapeLetter := false, stops := false } t with
    | some ([c], rest) => some (c, rest)
    | some (_ :: c :: _, rest) => some (c, rest)
    | _ => match t with
      | c :: rest => some (c, rest)
      | [] => some ('\\', [])
  | c :: t => some (c, t)

/-- Why a text is no set. -/
inductive SetFault where
  /-- A range goes downwards. -/
  | reversed (range : Text)
  /-- There is no class of this name. -/
  | unknownClass (name : Text)
  deriving DecidableEq, Repr

/-- The wording of a fault. -/
def SetFault.message : SetFault → Text
  | .reversed range =>
    "range-endpoints of '".toList ++ range ++ "' are in reverse collating sequence order".toList
  | .unknownClass name => "invalid character class ".toList ++ marked name

/-- An item of a set. -/
inductive SetItem where
  | these (bytes : List Char)
  /-- The byte so many times; as often as it takes to make both sets equally long, when that is not
  said. -/
  | repeated (c : Char) (times : Option Nat)
  deriving DecidableEq, Repr

/-- The bytes of an item, when `missing` bytes are missing. -/
def SetItem.bytes (missing : Nat) : SetItem → List Char
  | .these bytes => bytes
  | .repeated c times => List.replicate (times.getD missing) c

/-- The bytes of the second set, next to a first one of `length` bytes. -/
def spread (length : Nat) (items : List SetItem) : List Char :=
  items.flatMap (·.bytes (length - (items.flatMap (·.bytes 0)).length))

/-- A repetition at the start of a text, and what follows it. The number is octal behind a zero. -/
def readRepetition? : Text → Option (SetItem × Text)
  | '[' :: t => do
    let (c, t) ← readSetByte? t
    let t ← Text.after? ['*'] t
    let digits := t.takeWhile Char.isDigit
    let rest ← Text.after? [']'] (t.drop digits.length)
    let n := Nat.ofDigitChars (if digits.head? = some '0' then 8 else 10) digits 0
    some (.repeated c (if n = 0 then none else some n), rest)
  | _ => none

/-- The only member of a class of equal bytes at the start of a text, and what follows it. -/
def readEqual? (t : Text) : Option (SetItem × Text) := do
  let t ← Text.after? ['[', '='] t
  let c ← t.head?
  let rest ← Text.after? ['=', ']'] t.tail
  some (.these [c], rest)

/-- The items of a set, in order. A range has to go upwards. -/
def readSet : Nat → Text → Except SetFault (List SetItem)
  | 0, _ | _, [] => .ok []
  | n + 1, t =>
    match readClassName? t, (readEqual? t).or (readRepetition? t) with
    | some (name, rest), _ =>
      match charClasses.lookup (String.ofList name) with
      | some accepts => do .ok (.these (allBytes.filter accepts) :: (← readSet n rest))
      | none => .error (.unknownClass name)
    | none, some (item, rest) => do .ok (item :: (← readSet n rest))
    | none, none =>
      match readSetByte? t with
      | none => .ok []
      | some (a, rest) =>
        match rest with
        | '-' :: c :: more =>
          match readSetByte? (c :: more) with
          | none => .ok [.these [a]]
          | some (b, rest) =>
            if b.toNat < a.toNat then .error (.reversed (t.take (t.length - rest.length)))
            else do .ok (.these (byteSpan a b) :: (← readSet n rest))
        | _ => do .ok (.these [a] :: (← readSet n rest))

/-- What each byte of the first set becomes. The second set goes on with its last byte; the last
mention of a byte counts. -/
def replacement (first second : List Char) (c : Char) : Char :=
  let last := second.getLastD c
  ((first.zipIdx.reverse.find? fun (d, _) => d = c).map fun (_, k) => second[k]?.getD last).getD c

/-- Each run of one byte of the set becomes a single one. -/
def squeeze (set : List Char) (prev : Option Char) : Text → Text
  | [] => []
  | c :: t =>
    if prev = some c && set.contains c then squeeze set prev t else c :: squeeze set (some c) t

/-- The work on the bytes, given as characters. -/
def replaceBytes (deletes squeezed : Bool) (first : List Char) (second : Option (List Char))
    (t : Text) : Text :=
  let set := second.getD first
  if deletes then
    let kept := t.filter (!first.contains ·)
    if squeezed then squeeze set none kept else kept
  else
    let mapped := match second with
      | some second => t.map (replacement first second)
      | none => t
    if squeezed then squeeze set none mapped else mapped

/-- What is wrong with the number of sets, line by line. -/
def badSets? (deletes squeezes : Bool) (sets : List Text) : Option (List Text) :=
  let least := if deletes == squeezes then 2 else 1
  let most := if deletes && !squeezes then 1 else 2
  match sets with
  | [] => some ["missing operand".toList]
  | first :: rest =>
    if sets.length < least then
      some ["missing operand after ".toList ++ marked first,
        if deletes then "Two strings must be given when both deleting and squeezing repeats.".toList
        else "Two strings must be given when translating.".toList]
    else match rest.drop (most - 1) with
      | [] => none
      | extra :: _ =>
        some (("extra operand ".toList ++ marked extra) ::
          if sets.length = 2 then
            ["Only one string may be given when deleting without squeezing repeats.".toList]
          else [])

/-- The options. -/
def replaceOptions : OptionTable where
  letters := ['c', 'C', 'd', 's', 't']
  names := [("complement", 'c'), ("delete", 'd'), ("squeeze-repeats", 's'), ("truncate-set1", 't')]

/-- The program. -/
def replace (s : Speaker) : Program := fun args p =>
  let failed (why : Text) : Process × ExitStatus := (s.complain why p, .exited 1)
  match replaceOptions.read args with
  | .error why => (s.complainOfUse [why] p, .exited 1)
  | .ok r =>
    match badSets? (r.asks 'd') (r.asks 's') r.operands with
    | some why => (s.complainOfUse why p, .exited 1)
    | none =>
      match r.operands.mapM fun t => readSet t.length.succ (byteChars (Text.toUtf8 t)) with
      | .error f => failed f.message
      | .ok sets =>
        let named := (sets.headD []).flatMap (·.bytes 0)
        let first :=
          if r.asks 'c' || r.asks 'C' then allBytes.filter (!named.contains ·) else named
        let second := sets[1]?.map (spread first.length)
        let first := match second with
          | some set => if r.asks 't' && !r.asks 'd' then first.take set.length else first
          | none => first
        if second = some [] && !r.asks 'd' && !first.isEmpty then
          failed "when not truncating set1, string2 must be non-empty".toList
        else match p.drain with
          | (.error e, _) => failed ("read error: ".toList ++ e.text)
          | (.ok content, p) =>
            let shown := replaceBytes (r.asks 'd') (r.asks 's') first second (byteChars content)
            s.closeOutput 1 (p.write .output (ofByteChars shown), .success)

end Program

end Fanout
