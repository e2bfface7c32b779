import Fanout.Machine.CharClass
import Fanout.Text.Numeral

/-!
# Regular expressions

An expression describes texts. It is written in one of two notations: in the basic one, grouping,
alternatives and counts other than the asterisk need a backslash; in the extended one they are
plain characters, and the backslash takes their meaning away.

* `Expression.read`: the expression of a text.
* `Expression.ends`: where the matches that begin at a place can end.
-/

namespace Fanout

/-- A member of a bracket: one character, a range, or a class. -/
inductive BracketItem where
  | one (c : Char)
  | span (first last : Char)
  | named (accepts : Char → Bool)

/-- The character is a member. -/
def BracketItem.covers (c : Char) : BracketItem → Bool
  | .one d => c = d
  | .span a b => a ≤ c && c ≤ b
  | .named accepts => accepts c

/-- A regular expression. -/
inductive Expression where
  | nothing
  | char (c : Char)
  | any
  | bracket (negated : Bool) (items : List BracketItem)
  | start
  | stop
  /-- A place where a word begins, ends, does either, or does neither. -/
  | edge (holds : Bool → Bool → Bool)
  | followed (first second : Expression)
  | either (first second : Expression)
  | optional (e : Expression)
  | many (e : Expression)

/-- The two ways to write an expression. -/
inductive Expression.Form where
  | basic
  | extended
  deriving DecidableEq

namespace Expression

/-! ## Reading -/

/-- Why a text is no expression. -/
inductive Fault where
  /-- There is nothing behind the opening of a bracket. -/
  | bareBracket
  | openBracket
  /-- There is no class of this name. -/
  | unknownClass
  /-- A class is named outside a bracket. -/
  | lonelyClass
  /-- A range goes downwards. -/
  | reversedRange
  | openGroup
  | unopenedGroup
  | openInterval
  | badInterval
  | lonelyBackslash
  deriving DecidableEq, Repr

/-- The wording of a fault. -/
def Fault.message : Fault → Text
  | .bareBracket => "Invalid regular expression".toList
  | .openBracket => "Unmatched [, [^, [:, [., or [=".toList
  | .unknownClass => "Invalid character class name".toList
  | .lonelyClass => "character class syntax is [[:space:]], not [:space:]".toList
  | .reversedRange => "Invalid range end".toList
  | .openGroup => "Unmatched ( or \\(".toList
  | .unopenedGroup => "Unmatched ) or \\)".toList
  | .openInterval => "Unmatched \\\x7b".toList
  | .badInterval => "Invalid content of \\\x7b\\\x7d".toList
  | .lonelyBackslash => "Trailing backslash".toList

/-- The members of a bracket up to its end, and what follows it. -/
def readItems : Nat → Bool → Text → Except Fault (List BracketItem × Text)
  | 0, _, _ | _, _, [] => .error .openBracket
  | n + 1, first, t =>
    match readClassName? t with
    | some (name, rest) =>
      match charClasses.lookup (String.ofList name) with
      | some accepts => do
        let (items, rest) ← readItems n false rest
        .ok (.named accepts :: items, rest)
      | none => .error .unknownClass
    | none =>
      match t with
      | ']' :: rest => if first then do
          let (items, rest) ← readItems n false rest
          .ok (.one ']' :: items, rest)
        else .ok ([], rest)
      | a :: '-' :: b :: rest =>
        if b = ']' then .ok ([.one a, .one '-'], rest)
        else if b < a then .error .reversedRange
        else do
          let (items, rest) ← readItems n false rest
          .ok (.span a b :: items, rest)
      | a :: rest => do
        let (items, rest) ← readItems n false rest
        .ok (.one a :: items, rest)
      | [] => .error .openBracket

/-- A bracket behind its opening. -/
def readBracket (t : Text) : Except Fault (Expression × Text) := do
  let negated := t.head? = some '^'
  let inside := if negated then t.tail else t
  if inside.isEmpty then throw .bareBracket
  let (items, rest) ← readItems (t.length + 1) true inside
  let within := inside.take (inside.length - rest.length - 1)
  if within.length > 1 && within.head? = some ':' && within.getLast? = some ':' then
    throw .lonelyClass
  .ok (.bracket negated items, rest)

/-- A sign with a meaning, and what follows it: in the basic notation some signs are written with
a backslash, in the extended one without. -/
def readSign? (form : Form) (signs : List Char) : Text → Option (Char × Text)
  | '\\' :: c :: t => if form = .basic && signs.contains c then some (c, t) else none
  | c :: t => if form = .extended && signs.contains c then some (c, t) else none
  | [] => none

/-- The character belongs to a word. -/
def isWordChar (c : Char) : Bool := c.isAlphanum || c = '_' || 128 ≤ c.toNat

/-- The character parts words. -/
def isSpaceChar (c : Char) : Bool := c = ' ' || (9 ≤ c.toNat && c.toNat ≤ 13)

/-- The expression that a backslash makes of a character, if it gives it a meaning. -/
def special? (c : Char) : Option Expression :=
  match c with
  | 'w' => some (.bracket false [.named isWordChar])
  | 'W' => some (.bracket true [.named isWordChar])
  | 's' => some (.bracket false [.named isSpaceChar])
  | 'S' => some (.bracket true [.named isSpaceChar])
  | '<' => some (.edge fun behind before => !behind && before)
  | '>' => some (.edge fun behind before => behind && !before)
  | 'b' => some (.edge fun behind before => behind != before)
  | 'B' => some (.edge fun behind before => behind == before)
  | _ => none

/-- The expression `n` times. -/
def times (e : Expression) : Nat → Expression
  | 0 => .nothing
  | n + 1 => .followed e (times e n)

/-- The expression at most `n` times. -/
def upTo (e : Expression) : Nat → Expression
  | 0 => .nothing
  | n + 1 => .optional (.followed e (upTo e n))

/-- The expression as often as an interval says, and what follows the interval. The text begins
behind the opening brace. -/
def readInterval (form : Form) (e : Expression) (t : Text) : Except Fault (Expression × Text) :=
  let low := t.takeWhile Char.isDigit
  let rest := t.drop low.length
  let least := Text.value low
  let high := (rest.drop 1).takeWhile Char.isDigit
  let isRange := rest.head? = some ','
  let behind := if isRange then rest.drop (1 + high.length) else rest
  match readSign? form ['\x7d'] behind with
  | none => .error (if behind.isEmpty then .openInterval else .badInterval)
  | some (_, rest) =>
    if low.isEmpty && !isRange then .error .badInterval
    else if !isRange then .ok (e.times least, rest)
    else if high.isEmpty then .ok (.followed (e.times least) (.many e), rest)
    else if Text.value high < least then .error .badInterval
    else .ok (.followed (e.times least) (e.upTo (Text.value high - least)), rest)

/-- The fault of an interval makes the extended notation take its brace as it stands, unless only
the numbers are wrong. -/
def isLenient (form : Form) (t : Text) : Bool :=
  let inside := t.takeWhile (· ≠ '\x7d')
  form = .extended
    && (inside.length = t.length || !inside.all (fun c => c.isDigit || c = ',') || inside.isEmpty)

/-- The counts behind an expression. -/
def readCounts (form : Form) (e : Expression) : Nat → Text → Except Fault (Expression × Text)
  | 0, t => .ok (e, t)
  | n + 1, t =>
    match t with
    | '*' :: rest => readCounts form (.many e) n rest
    | _ =>
      match readSign? form ['+', '?', '\x7b'] t with
      | some ('+', rest) => readCounts form (.followed e (.many e)) n rest
      | some ('\x7b', rest) =>
        match readInterval form e rest with
        | .ok (counted, rest) => readCounts form counted n rest
        | .error f => if isLenient form rest then .ok (e, t) else .error f
      | some (_, rest) => readCounts form (.optional e) n rest
      | none => .ok (e, t)

mutual

/-- One expression without counts; nothing where none begins. -/
def readAtom (form : Form) (leading inGroup : Bool) :
    Nat → Text → Except Fault (Option (Expression × Text))
  | 0, _ => .ok none
  | n + 1, t =>
    match readSign? form ['('] t with
    | some (_, rest) => do
      let (e, rest) ← readEither form true n rest
      match readSign? form [')'] rest with
      | some (_, rest) => .ok (some (e, rest))
      | none => .error .openGroup
    | none =>
      if (readSign? form ['|'] t).isSome then .ok none
      else if (readSign? form [')'] t).isSome && (inGroup || form = .basic) then .ok none
      else match t with
        | [] => .ok none
        | '.' :: rest => .ok (some (.any, rest))
        | '[' :: rest => (readBracket rest).map some
        | '^' :: rest =>
          .ok (some (if leading || form = .extended then .start else .char '^', rest))
        | '$' :: rest =>
          let last := rest.isEmpty || (readSign? form [')', '|'] rest).isSome
          .ok (some (if last || form = .extended then .stop else .char '$', rest))
        | '\\' :: c :: rest => .ok (some ((special? c).getD (.char c), rest))
        | '\\' :: [] => .error .lonelyBackslash
        | c :: rest => .ok (some (.char c, rest))

/-- Expressions one after another. -/
def readRow (form : Form) (leading inGroup : Bool) : Nat → Text → Except Fault (Expression × Text)
  | 0, t => .ok (.nothing, t)
  | n + 1, t => do
    match ← readAtom form leading inGroup n t with
    | none => .ok (.nothing, t)
    | some (e, rest) =>
      let (e, rest) ← match e with
        | .start => .ok (e, rest)
        | _ => readCounts form e n rest
      let leads := match e with
        | .start => true
        | _ => false
      let (more, rest) ← readRow form leads inGroup n rest
      .ok (.followed e more, rest)

/-- Alternatives. -/
def readEither (form : Form) (inGroup : Bool) : Nat → Text → Except Fault (Expression × Text)
  | 0, t => .ok (.nothing, t)
  | n + 1, t => do
    let (e, rest) ← readRow form true inGroup n t
    match readSign? form ['|'] rest with
    | some (_, rest) =>
      let (f, rest) ← readEither form inGroup n rest
      .ok (.either e f, rest)
    | none => .ok (e, rest)

end

/-- The expression of a text, when it is well formed. -/
def read (form : Form) (t : Text) : Except Fault Expression := do
  let (e, rest) ← readEither form false (3 * t.length + 3) t
  if rest.isEmpty then .ok e else .error .unopenedGroup

/-- The expression of a text whose characters all stand for themselves. -/
def ofText (t : Text) : Expression := t.foldr (fun c e => .followed (.char c) e) .nothing

/-! ## Matching -/

/-- A place in a line: the character in front of it, and what follows. -/
structure Place where
  behind : Option Char
  rest : Text
  deriving DecidableEq

/-- The place is the start of the line. -/
def Place.atStart (p : Place) : Bool := p.behind.isNone

/-- The place behind the next character, when that fits. -/
def Place.advance (p : Place) (fits : Char → Bool) : List Place :=
  match p.rest with
  | c :: rest => if fits c then [⟨some c, rest⟩] else []
  | [] => []

/-- The places that any number of steps lead to, each of them forwards. -/
def reach (step : Place → List Place) : Nat → Place → List Place
  | 0, p => [p]
  | n + 1, p =>
    (p :: ((step p).filter (·.rest.length < p.rest.length)).flatMap (reach step n)).eraseDups

/-- Where the matches that begin at a place can end. -/
def ends (same : Char → Char → Bool) : Expression → Place → List Place
  | .nothing, p => [p]
  | .char c, p => p.advance (same c)
  | .any, p => p.advance fun _ => true
  | .bracket negated items, p =>
    p.advance fun c => negated != items.any fun i =>
      i.covers c || (same c c.toUpper && i.covers c.toUpper)
        || (same c c.toLower && i.covers c.toLower)
  | .start, p => if p.atStart then [p] else []
  | .stop, p => if p.rest.isEmpty then [p] else []
  | .edge holds, p =>
    if holds (p.behind.any isWordChar) (p.rest.head?.any isWordChar) then [p] else []
  | .followed e f, p => ((ends same e p).flatMap (ends same f)).eraseDups
  | .either e f, p => (ends same e p ++ ends same f p).eraseDups
  | .optional e, p => (p :: ends same e p).eraseDups
  | .many e, p => reach (ends same e) p.rest.length p

end Expression

end Fanout
