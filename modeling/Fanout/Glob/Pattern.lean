import Fanout.Fault.Basic

/-!
# Glob patterns

A pattern is a row of tokens: characters that stand for themselves, a question mark for any one
character, an asterisk for any run of them, classes in brackets, and two asterisks for any number
of directories. Two asterisks have to be a path component of their own.

* `Pattern.ofText`: the pattern a text denotes, or where the text goes wrong.
* `Pattern.matches`: the pattern describes the whole text.
* `Pattern.escape`: a pattern for one text only.
-/

namespace Fanout

namespace Glob

/-- The characters a class names: one of them, or all from one to another. -/
inductive CharSpec where
  | one (c : Char)
  | span (first last : Char)
  deriving DecidableEq, Repr

/-- The character is among those named. -/
def CharSpec.covers (c : Char) : CharSpec → Bool
  | .one d => c = d
  | .span a b => a.toNat ≤ c.toNat && c.toNat ≤ b.toNat

/-- A piece of a pattern. -/
inductive Token where
  | char (c : Char)
  /-- Any one character. -/
  | anyChar
  /-- Any run of characters. -/
  | anySequence
  /-- Any number of whole path components. -/
  | anyRecursive
  /-- One of the named characters. -/
  | within (specs : List CharSpec)
  /-- Any character but the named ones. -/
  | except (specs : List CharSpec)
  deriving DecidableEq, Repr

/-- What a class names between its brackets: a dash between two characters makes a range. -/
def charSpecs : Text → List CharSpec
  | a :: '-' :: b :: t => .span a b :: charSpecs t
  | c :: t => .one c :: charSpecs t
  | [] => []

/-- A class behind its opening bracket, and what follows the bracket that closes it. A bracket
right behind the opening is a member. -/
def readClass? : Text → Option (Token × Text)
  | '!' :: c :: t =>
    match t.dropWhile (· ≠ ']') with
    | _ :: rest => some (.except (charSpecs (c :: t.takeWhile (· ≠ ']'))), rest)
    | [] => none
  | c :: t =>
    if c = '!' then none
    else match t.dropWhile (· ≠ ']') with
      | _ :: rest => some (.within (charSpecs (c :: t.takeWhile (· ≠ ']'))), rest)
      | [] => none
  | [] => none

theorem length_dropWhile_le (p : Char → Bool) (t : Text) :
    (t.dropWhile p).length ≤ t.length := by
  induction t with
  | nil => simp
  | cons c t ih =>
    rw [List.dropWhile_cons]
    split
    · exact Nat.le_succ_of_le ih
    · exact Nat.le_refl _

theorem length_lt_of_readClass? {t rest : Text} {k : Token} (h : readClass? t = some (k, rest)) :
    rest.length < t.length := by
  have key : ∀ (u : Text) (d : Char) (r : Text), u.dropWhile (· ≠ ']') = d :: r →
      r.length < u.length := fun u d r hu => by
    have hl := length_dropWhile_le (· ≠ ']') u
    rw [hu, List.length_cons] at hl
    omega
  unfold readClass? at h
  split at h
  · next c u =>
    split at h
    · next d r hu =>
      obtain ⟨-, rfl⟩ : _ ∧ r = rest := by simpa using h
      have := key _ _ _ hu
      simp only [List.length_cons]
      omega
    · simp at h
  · next c u _ =>
    split at h
    · simp at h
    · split at h
      · next d r hu =>
        obtain ⟨-, rfl⟩ : _ ∧ r = rest := by simpa using h
        have := key _ _ _ hu
        simp only [List.length_cons]
        omega
      · simp at h
  · simp at h

/-- The tokens of a text from character number `pos` on, behind the character `prev`. -/
def readTokens (pos : Nat) (prev : Option Char) (t : Text) : Except PatternFault (List Token) :=
  match t with
  | [] => .ok []
  | '?' :: t => (readTokens (pos + 1) (some '?') t).map (.anyChar :: ·)
  | '*' :: '*' :: '*' :: _ => .error ⟨pos + 2, .wildcards⟩
  | '*' :: '*' :: t =>
    if prev = none || prev = some '/' then
      match t with
      | [] => .ok [.anyRecursive]
      | c :: t =>
        if c = '/' then (readTokens (pos + 3) (some '/') t).map (.anyRecursive :: ·)
        else .error ⟨pos + 2, .recursiveWildcards⟩
    else .error ⟨pos - 1, .recursiveWildcards⟩
  | '*' :: t => (readTokens (pos + 1) (some '*') t).map (.anySequence :: ·)
  | '[' :: t =>
    match _h : readClass? t with
    | some (k, rest) =>
      (readTokens (pos + 1 + (t.length - rest.length)) (some ']') rest).map (k :: ·)
    | none => .error ⟨pos, .invalidRange⟩
  | c :: t => (readTokens (pos + 1) (some c) t).map (.char c :: ·)
termination_by t.length
decreasing_by
  all_goals simp_wf
  · omega
  · have := length_lt_of_readClass? _h
    omega

/-- A well-formed pattern. -/
structure Pattern where
  tokens : List Token
  deriving DecidableEq, Repr

namespace Pattern

/-- The pattern that a text denotes. -/
def ofText (t : Text) : Except PatternFault Pattern := (readTokens 0 none t).map Pattern.mk

/-- The text of a pattern whose characters all stand for themselves. -/
def literal? (p : Pattern) : Option Text :=
  p.tokens.mapM fun
    | .char c => some c
    | _ => none

/-- The pattern stands for any number of directories. -/
def isRecursive (p : Pattern) : Bool := p.tokens.contains .anyRecursive

/-- The pattern begins with a dot that stands for itself. -/
def beginsWithDot (p : Pattern) : Bool := p.tokens.head? = some (.char '.')

end Pattern

/-! ## Matching -/

/-- The token describes the one character. -/
def Token.accepts (c : Char) : Token → Bool
  | .char d => c = d
  | .anyChar => true
  | .within specs => specs.any (·.covers c)
  | .except specs => !specs.any (·.covers c)
  | .anySequence | .anyRecursive => false

/-- How an attempt to match ends. An attempt that runs out of text tells that no attempt on a
shorter ending of the same text can succeed, so that a search over endings can stop there. -/
inductive Verdict where
  | matched
  | mismatched
  | exhausted
  deriving DecidableEq, Repr

/-- The first verdict on an ending of the text, the whole of it included, that settles the
search. -/
def searchEndings (f : Text → Verdict) : Text → Verdict
  | [] => f []
  | c :: t =>
    match f (c :: t) with
    | .mismatched => searchEndings f t
    | v => v

/-- The first verdict on the text behind a slash, or on the end of the text, that settles the
search. -/
def searchBehindSlashes (f : Text → Verdict) : Text → Verdict
  | [] => f []
  | c :: t =>
    if c = '/' then
      match f t with
      | .mismatched => searchBehindSlashes f t
      | v => v
    else searchBehindSlashes f t

/-- How the attempt to describe the whole text by the tokens ends. -/
def matchTokens : List Token → Text → Verdict
  | [], [] => .matched
  | [], _ :: _ => .mismatched
  | .anySequence :: ks, t => searchEndings (matchTokens ks) t
  | .anyRecursive :: ks, t =>
    match matchTokens ks t with
    | .mismatched => searchBehindSlashes (matchTokens ks) t
    | v => v
  | _ :: _, [] => .exhausted
  | k :: ks, c :: t => if k.accepts c then matchTokens ks t else .mismatched

/-- The pattern describes the whole text. -/
def Pattern.matches (p : Pattern) (t : Text) : Bool := matchTokens p.tokens t = .matched

/-! ## Escaping -/

/-- A class of one where a character would not stand for itself. -/
def escapeChar (c : Char) : Text :=
  if c = '?' || c = '*' || c = '[' || c = ']' then ['[', c, ']'] else [c]

/-- A pattern for the text itself. -/
def Pattern.escape (t : Text) : Text := t.flatMap escapeChar

end Glob

end Fanout
