import Ranging.Power

/-!
Patterns for texts.

A pattern describes a piece of a text: characters out of sets, places such as the end of a line,
and pieces that follow each other, exclude each other or are repeated. How deep a pattern is and
what it costs to search for are bounded.
-/
namespace Ranging

inductive CharSet where
  | nothing
  | range (first last : Char)
  | either (s t : CharSet)
  | both (s t : CharSet)
  | without (s t : CharSet)
  | exactlyOne (s t : CharSet)
  | others (s : CharSet)
  /-- A set with the other case of every letter in it. -/
  | anyCase (s : CharSet)
  deriving Repr, DecidableEq, Inhabited

namespace CharSet

/-- The other case of a letter; letters are those of ASCII. -/
def otherCase (c : Char) : Char := if c.isUpper then c.toLower else c.toUpper

def contains : CharSet → Char → Bool
  | nothing, _ => false
  | range first last, c => first ≤ c && c ≤ last
  | either s t, c => s.contains c || t.contains c
  | both s t, c => s.contains c && t.contains c
  | without s t, c => s.contains c && !t.contains c
  | exactlyOne s t, c => s.contains c != t.contains c
  | others s, c => !s.contains c
  | anyCase s, c => s.contains c || s.contains (otherCase c)

def one (c : Char) : CharSet := range c c

def all : CharSet := others nothing

def union (sets : List CharSet) : CharSet := sets.foldr either nothing

/-- Whether a set may have characters beyond ASCII. -/
def isWide : CharSet → Bool
  | nothing => false
  | range _ last => '\x7f' < last
  | either s t | exactlyOne s t => s.isWide || t.isWide
  | both s t => s.isWide && t.isWide
  | without s _ => s.isWide
  | others s => !s.isWide
  | anyCase s => s.isWide

def digits : CharSet := range '0' '9'
def uppers : CharSet := range 'A' 'Z'
def lowers : CharSet := range 'a' 'z'
def letters : CharSet := either uppers lowers

def wordly : CharSet := union [letters, digits, one '_']

/-- The characters of ASCII that separate words. -/
def spaces : CharSet := either (range '\t' '\r') (one ' ')

def named? : String → Option CharSet
  | "alnum" => some (either letters digits)
  | "alpha" => some letters
  | "ascii" => some (range '\x00' '\x7f')
  | "blank" => some (either (one '\t') (one ' '))
  | "cntrl" => some (either (range '\x00' '\x1f') (one '\x7f'))
  | "digit" => some digits
  | "graph" => some (range '!' '~')
  | "lower" => some lowers
  | "print" => some (range ' ' '~')
  | "punct" => some (union [range '!' '/', range ':' '@', range '[' '\x60', range '\x7b' '~'])
  | "space" => some spaces
  | "upper" => some uppers
  | "word" => some wordly
  | "xdigit" => some (union [digits, range 'A' 'F', range 'a' 'f'])
  | _ => none

@[simp] theorem contains_all (c : Char) : all.contains c = true := rfl

end CharSet

/-- A place between the characters of a text. -/
inductive Edge where
  | textStart
  | textEnd
  /-- The start of a line; lines end with a line feed, or also with carriage returns. -/
  | lineStart (carriage : Bool)
  | lineEnd (carriage : Bool)
  | wordEdge
  | noWordEdge
  | wordStart
  | wordEnd
  | noWordBefore
  | noWordBehind
  deriving Repr, DecidableEq

/-- Whether a place is an edge, by the characters before and behind it. -/
def Edge.holds (e : Edge) (before behind : Option Char) : Bool :=
  let word (c : Option Char) : Bool := c.any CharSet.wordly.contains
  match e with
  | textStart => before.isNone
  | textEnd => behind.isNone
  | lineStart false => before.isNone || before = some '\n'
  | lineStart true =>
    before.isNone || before = some '\n' || (before = some '\r' && behind ≠ some '\n')
  | lineEnd false => behind.isNone || behind = some '\n'
  | lineEnd true =>
    behind.isNone || behind = some '\r' || (behind = some '\n' && before ≠ some '\r')
  | wordEdge => word before != word behind
  | noWordEdge => word before == word behind
  | wordStart => !word before && word behind
  | wordEnd => word before && !word behind
  | noWordBefore => !word before
  | noWordBehind => !word behind

/-- A description of pieces of a text. -/
inductive Pattern where
  /-- The empty piece. -/
  | nothing
  | one (set : CharSet)
  /-- The empty piece at an edge. -/
  | edge (edge : Edge)
  | group (inner : Pattern)
  /-- Pieces one after the other, not fewer and not more than stated. -/
  | repeated (inner : Pattern) (least : Nat) (most : Option Nat)
  | followed (first rest : Pattern)
  | either (first rest : Pattern)
  deriving Repr, DecidableEq, Inhabited

namespace Pattern

/-- Patterns one after the other, given in the opposite order. -/
def sequence : List Pattern → Pattern
  | [] => nothing
  | last :: earlier => earlier.foldl (fun rest first => followed first rest) last

/-- A choice of patterns, given in the opposite order. -/
def choice : List Pattern → Pattern
  | [] => nothing
  | last :: earlier => earlier.foldl (fun rest first => either first rest) last

/-- How deep patterns are inside each other. A sequence or a choice counts once, however long it
is. -/
def depth : Pattern → Nat
  | nothing | one _ | edge _ => 0
  | group p | repeated p _ _ => p.depth + 1
  | followed p q =>
    match q with
    | followed _ _ => max (p.depth + 1) q.depth
    | _ => max p.depth q.depth + 1
  | either p q =>
    match q with
    | either _ _ => max (p.depth + 1) q.depth
    | _ => max p.depth q.depth + 1

/-- Whether some piece that a pattern describes may have characters. -/
def consumes : Pattern → Bool
  | nothing | edge _ => false
  | one _ => true
  | group p => p.consumes
  | repeated p _ most => most ≠ some 0 && p.consumes
  | followed p q | either p q => p.consumes || q.consumes

/-- Bytes for one step of a search. -/
def stepCost : Nat := 32

/-- An estimate of the memory that a search takes, in bytes. Counted repetitions are written
out. -/
def cost : Pattern → Nat
  | nothing | edge _ => stepCost
  | one (.range first last) =>
    if first = last then stepCost * first.utf8Size
    else if '\x7f' < last then 9 * stepCost + 80 else 2 * stepCost
  | one s => if s.isWide then 9 * stepCost + 80 else 2 * stepCost + 8
  | group p => p.cost
  | repeated p least most =>
    if !p.consumes then p.cost + stepCost
    else
      match most with
      | none => max least 1 * p.cost + stepCost + 8
      | some most => least * p.cost + (most - least) * (p.cost + stepCost + 8) + stepCost
  | followed p q => p.cost + q.cost
  | either p q => p.cost + q.cost + stepCost

/-- The greatest depth of a pattern. -/
def depthLimit : Nat := 250

/-- The greatest cost of a pattern: ten mebibytes. -/
def costLimit : Nat := 10 * 2 ^ 20

def isModest (p : Pattern) : Bool := p.depth ≤ depthLimit && p.cost ≤ costLimit

end Pattern
end Ranging
