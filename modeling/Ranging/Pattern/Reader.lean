import Ranging.Blank
import Ranging.Pattern.Basic

/-!
Patterns as text.

Most characters stand for themselves. A point stands for any character but a line feed, brackets
for a set, a bar between patterns for a choice, a caret and a dollar sign for the ends of the text;
an asterisk, a plus sign, a question mark or counts in braces repeat what they follow, and
parentheses make one pattern of several. A backslash takes its meaning from a punctuation mark or
gives one to a letter.

Modes change the meaning of what follows. In the wide mode, which is on from the start, sets are
of all characters; what would need tables of letters, such as ignoring case or `\d`, is not read.
Otherwise sets are of ASCII characters.
-/
namespace Ranging.Pattern

structure Modes where
  /-- Letters stand for both their cases. -/
  caseless : Bool
  /-- Carets and dollar signs stand for the ends of lines. -/
  perLine : Bool
  /-- A point stands for line feeds too. -/
  pointAll : Bool
  /-- Lines end with carriage returns too. -/
  carriage : Bool
  wide : Bool
  /-- Blanks do not count, nor does what is behind a number sign in a line. -/
  spaced : Bool
  deriving Repr, DecidableEq, Inhabited

def Modes.standard : Modes := ⟨false, false, false, false, true, false⟩

/-- Sets a mode by its letter. `U` is about which of several pieces is found first, and that does
not matter. -/
def Modes.set? (m : Modes) (letter : Char) (on : Bool) : Option Modes :=
  match letter with
  | 'i' => some { m with caseless := on }
  | 'm' => some { m with perLine := on }
  | 's' => some { m with pointAll := on }
  | 'R' => some { m with carriage := on }
  | 'u' => some { m with wide := on }
  | 'x' => some { m with spaced := on }
  | 'U' => some m
  | _ => none

/-! ### Characters between blanks -/

/-- Leaves out blanks and comments, possibly from the middle of a comment. -/
def skipBlanks (inComment : Bool) : List Char → List Char
  | [] => []
  | c :: cs =>
    if inComment then skipBlanks (c ≠ '\n') cs
    else if isBlank c then skipBlanks false cs
    else if c = '#' then skipBlanks true cs
    else c :: cs

/-- Leaves out what does not count. -/
def Modes.skip (m : Modes) (cs : List Char) : List Char :=
  if m.spaced then skipBlanks false cs else cs

/-- Takes up to `limit` characters that pass a test, and leaves out what does not count between
them. -/
def scan (spaced : Bool) (test : Char → Bool) (inComment : Bool) :
    Nat → List Char → List Char × List Char
  | _, [] => ([], [])
  | 0, c :: cs => ([], c :: cs)
  | limit + 1, c :: cs =>
    if inComment then scan spaced test (c ≠ '\n') (limit + 1) cs
    else if test c then
      let (taken, rest) := scan spaced test false limit cs
      (c :: taken, rest)
    else if spaced && isBlank c then scan spaced test false (limit + 1) cs
    else if spaced && c = '#' then scan spaced test true (limit + 1) cs
    else ([], c :: cs)

def Modes.scan (m : Modes) (test : Char → Bool) (cs : List Char) : List Char × List Char :=
  Pattern.scan m.spaced test false cs.length cs

/-! ### Characters by number -/

def isHexDigit (c : Char) : Bool := c.isDigit || ('a' ≤ c && c ≤ 'f') || ('A' ≤ c && c ≤ 'F')

def valueOf (base : Nat) (digits : List Char) : Nat :=
  digits.foldl (fun n c =>
    base * n + (if c.isDigit then c.toNat - 48 else c.toLower.toNat - 87)) 0

def charOfHex? (digits : List Char) : Option Char :=
  let n := valueOf 16 digits
  if n.isValidChar then some (Char.ofNat n) else none

/-- Reads the digits behind `\x`, `\u` or `\U`: as many as the letter says, or any number in
braces. Also says whether braces were there. -/
def readHex (m : Modes) (count : Nat) (cs : List Char) : Option (Char × Bool × List Char) :=
  match m.skip cs with
  | '\x7b' :: cs =>
    match m.scan isHexDigit cs with
    | ([], _) => none
    | (digits, '\x7d' :: rest) => (charOfHex? digits).map fun c => (c, true, rest)
    | _ => none
  | cs =>
    let (digits, rest) := Pattern.scan m.spaced isHexDigit false count cs
    if digits.length = count then (charOfHex? digits).map fun c => (c, false, rest) else none

/-! ### Single elements -/

/-- What can stand behind a backslash. -/
inductive Element where
  | char (c : Char) (isByte : Bool)
  | set (set : CharSet) (negated : Bool)
  /-- An edge, and whether it is one of words. -/
  | edge (edge : Edge) (ofWords : Bool)

/-- Reads the name of an edge of words in braces. Other braces are left alone. -/
def readWordEdge (m : Modes) (cs : List Char) : Option (Edge × List Char) :=
  let isNameChar (c : Char) : Bool := c.isAlpha || c = '-'
  match cs with
  | '\x7b' :: inner =>
    match m.skip inner with
    | [] => none
    | c :: _ =>
      if isNameChar c then
        match m.scan isNameChar inner with
        | (name, '\x7d' :: rest) =>
          match String.ofList name with
          | "start" => some (.wordStart, rest)
          | "end" => some (.wordEnd, rest)
          | "start-half" => some (.noWordBefore, rest)
          | "end-half" => some (.noWordBehind, rest)
          | _ => none
        | _ => none
      else some (.wordEdge, cs)
  | _ => some (.wordEdge, cs)

def readEscape (m : Modes) : List Char → Option (Element × List Char)
  | [] => none
  | c :: cs =>
    match c with
    | 'x' => (readHex m 2 cs).map fun (c, braced, rest) => (.char c !braced, rest)
    | 'u' => (readHex m 4 cs).map fun (c, _, rest) => (.char c false, rest)
    | 'U' => (readHex m 8 cs).map fun (c, _, rest) => (.char c false, rest)
    | 'd' => some (.set .digits false, cs)
    | 'D' => some (.set .digits true, cs)
    | 's' => some (.set .spaces false, cs)
    | 'S' => some (.set .spaces true, cs)
    | 'w' => some (.set .wordly false, cs)
    | 'W' => some (.set .wordly true, cs)
    | 'a' => some (.char '\x07' false, cs)
    | 'f' => some (.char '\x0c' false, cs)
    | 't' => some (.char '\t' false, cs)
    | 'n' => some (.char '\n' false, cs)
    | 'r' => some (.char '\r' false, cs)
    | 'v' => some (.char '\x0b' false, cs)
    | 'A' => some (.edge .textStart false, cs)
    | 'z' => some (.edge .textEnd false, cs)
    | 'b' => (readWordEdge m cs).map fun (e, rest) => (.edge e true, rest)
    | 'B' => some (.edge .noWordEdge true, cs)
    | '<' => some (.edge .wordStart true, cs)
    | '>' => some (.edge .wordEnd true, cs)
    | c => if c.isAlphanum || '\x7f' < c then none else some (.char c false, cs)

/-- A set of characters from `first` to `last`, as the modes have it. -/
def Modes.range? (m : Modes) (first last : Char) : Option CharSet :=
  if m.wide then if m.caseless then none else some (.range first last)
  else if '\x7f' < last then none
  else if m.caseless then some (.anyCase (.range first last))
  else some (.range first last)

def Modes.others? (m : Modes) (s : CharSet) : Option CharSet :=
  if m.wide then some (.others s) else none

def Modes.named? (m : Modes) (s : CharSet) (negated : Bool) : Option CharSet :=
  if m.wide && m.caseless then none
  else
    let s := if m.caseless then .anyCase s else s
    if negated then m.others? s else some s

/-- The set of one character that stands for itself in a pattern. -/
def Modes.char? (m : Modes) (c : Char) (isByte : Bool) : Option CharSet :=
  if !m.wide && '\x7f' < c then if isByte then none else some (.one c)
  else m.range? c c

/-- The set that a letter stands for; only ASCII sets have letters. -/
def Modes.lettered? (m : Modes) (s : CharSet) (negated : Bool) : Option CharSet :=
  if m.wide || negated then none else some s

def Modes.element? (m : Modes) : Element → Option Pattern
  | .char c isByte => (m.char? c isByte).map .one
  | .set s negated => (m.lettered? s negated).map .one
  | .edge e ofWords => if ofWords && m.wide then none else some (.edge e)

def Modes.point? (m : Modes) : Option CharSet :=
  if !m.wide then none
  else if m.pointAll then some .all
  else if m.carriage then some (.others (.either (.one '\n') (.one '\r')))
  else some (.others (.one '\n'))

/-- The edge that a caret stands for. -/
def Modes.caret (m : Modes) : Edge := if m.perLine then .lineStart m.carriage else .textStart

/-- The edge that a dollar sign stands for. -/
def Modes.dollar (m : Modes) : Edge := if m.perLine then .lineEnd m.carriage else .textEnd

/-! ### Sets in brackets -/

structure Bracket where
  negated : Bool
  /-- What stands before the last sign between sets, waiting for what stands behind it. -/
  before : Option ((CharSet → CharSet → CharSet) × CharSet)
  items : CharSet

namespace Bracket

def add (b : Bracket) (s : CharSet) : Bracket := { b with items := .either b.items s }

def joined (b : Bracket) : CharSet :=
  match b.before with
  | none => b.items
  | some (join, s) => join s b.items

def sign (b : Bracket) (join : CharSet → CharSet → CharSet) : Bracket :=
  { b with before := some (join, b.joined), items := .nothing }

def close? (b : Bracket) (m : Modes) : Option CharSet :=
  if b.negated then m.others? b.joined else some b.joined

/-- Reads what follows an opening bracket: a caret for all other characters, and then hyphens or a
closing bracket that stand for themselves. -/
def read? (m : Modes) (cs : List Char) : Option (Bracket × List Char) :=
  let (negated, cs) :=
    match m.skip cs with
    | '^' :: cs => (true, cs)
    | cs => (false, cs)
  let b : Bracket := ⟨negated, none, .nothing⟩
  match m.scan (· = '-') (m.skip cs) with
  | ([], ']' :: cs) => (m.range? ']' ']').map fun s => (b.add s, cs)
  | ([], cs) => some (b, cs)
  | (_, cs) => (m.range? '-' '-').map fun s => (b.add s, cs)

end Bracket

/-- Reads a set with a name, from behind its opening bracket. -/
def readNamed (cs : List Char) : Option (CharSet × Bool × List Char) :=
  match cs with
  | ':' :: cs =>
    let (negated, cs) :=
      match cs with
      | '^' :: cs => (true, cs)
      | cs => (false, cs)
    match cs.dropWhile (· ≠ ':') with
    | ':' :: ']' :: rest =>
      (CharSet.named? (String.ofList (cs.takeWhile (· ≠ ':')))).map fun s => (s, negated, rest)
    | _ => none
  | _ => none

/-- Reads an element inside brackets. -/
def readInside (m : Modes) : List Char → Option (Element × List Char)
  | [] => none
  | '\\' :: cs => readEscape m cs
  | c :: cs => some (.char c false, cs)

/-- Reads an element or a range of characters inside brackets. A hyphen before a hyphen or a
closing bracket makes no range. -/
def readMember (m : Modes) (cs : List Char) : Option (CharSet × List Char) := do
  let (element, cs) ← readInside m cs
  let alone : Option (CharSet × List Char) :=
    match element with
    | .char c _ => (m.range? c c).map (·, m.skip cs)
    | .set s negated => (m.lettered? s negated).map (·, m.skip cs)
    | .edge _ _ => none
  match m.skip cs with
  | '-' :: behind =>
    match m.skip behind with
    | [] => none
    | '-' :: _ | ']' :: _ => alone
    | behind => do
      let (other, rest) ← readInside m behind
      match element, other with
      | .char first _, .char last _ =>
        if first ≤ last then (m.range? first last).map (·, rest) else none
      | _, _ => none
  | _ => alone

/-- Reads on inside brackets, the innermost first, until the outermost is closed. -/
def readBrackets (m : Modes) : Nat → Bracket → List Bracket → List Char →
    Option (CharSet × List Char)
  | 0, _, _, _ => none
  | fuel + 1, b, outer, cs =>
    match m.skip cs with
    | [] => none
    | '[' :: cs =>
      match readNamed cs with
      | some (s, negated, rest) => do
        readBrackets m fuel (b.add (← m.named? s negated)) outer rest
      | none => do
        let (inner, rest) ← Bracket.read? m cs
        readBrackets m fuel inner (b :: outer) rest
    | ']' :: cs => do
      let s ← b.close? m
      match outer with
      | [] => some (s, cs)
      | b :: outer => readBrackets m fuel (b.add s) outer cs
    | '&' :: '&' :: cs => readBrackets m fuel (b.sign .both) outer cs
    | '-' :: '-' :: cs => readBrackets m fuel (b.sign .without) outer cs
    | '~' :: '~' :: cs => readBrackets m fuel (b.sign .exactlyOne) outer cs
    | cs => do
      let (s, rest) ← readMember m cs
      readBrackets m fuel (b.add s) outer rest

/-- Reads a set from behind its opening bracket. -/
def readSet (m : Modes) (cs : List Char) : Option (CharSet × List Char) := do
  let (b, rest) ← Bracket.read? m cs
  readBrackets m (cs.length + 1) b [] rest

/-! ### Repetitions -/

/-- Reads a count with blanks around it. -/
def readCount (m : Modes) (cs : List Char) : Option Nat × List Char :=
  let (digits, rest) := m.scan Char.isDigit (cs.dropWhile isBlank)
  let n := valueOf 10 digits
  (if digits.isEmpty || 2 ^ 32 ≤ n then none else some n, rest.dropWhile isBlank)

/-- Reads counts and the closing brace, from behind the opening one. -/
def readCounts (m : Modes) (cs : List Char) : Option (Nat × Option Nat × List Char) := do
  let (least, cs) := readCount m (m.skip cs)
  let least ← least
  match cs with
  | '\x7d' :: rest => some (least, some least, rest)
  | ',' :: cs =>
    match m.skip cs with
    | '\x7d' :: rest => some (least, none, rest)
    | cs =>
      match readCount m cs with
      | (some most, '\x7d' :: rest) =>
        if least ≤ most then some (least, some most, rest) else none
      | _ => none
  | _ => none

/-- Leaves out the question mark behind a repetition: which of several pieces is found first does
not matter. -/
def skipLazy : List Char → List Char
  | '?' :: cs => cs
  | cs => cs

/-! ### Whole patterns -/

/-- An open pair of parentheses, or the whole pattern. -/
structure Level where
  /-- The finished patterns of the choice, latest first. -/
  branches : List Pattern
  /-- The parts of the unfinished one, latest first. -/
  parts : List Pattern
  /-- The modes that hold behind the closing parenthesis. -/
  outside : Modes

def Level.pattern (l : Level) : Pattern := choice (sequence l.parts :: l.branches)

/-- A pattern that is read up to some place. -/
structure Reading where
  modes : Modes
  level : Level
  /-- The levels around that one, innermost first. -/
  outer : List Level
  names : List (List Char)

namespace Reading

def start : Reading := ⟨.standard, ⟨[], [], .standard⟩, [], []⟩

def add (r : Reading) (p : Pattern) : Reading :=
  { r with level := { r.level with parts := p :: r.level.parts } }

/-- Repeats the last part. A change of modes is a part that cannot be repeated. -/
def repeatLast (r : Reading) (least : Nat) (most : Option Nat) : Option Reading :=
  match r.level.parts with
  | [] | nothing :: _ => none
  | p :: parts => some { r with level := { r.level with parts := repeated p least most :: parts } }

/-- Goes on to the next pattern of a choice. -/
def nextBranch (r : Reading) : Reading :=
  { r with level :=
    { r.level with branches := sequence r.level.parts :: r.level.branches, parts := [] } }

/-- Goes into parentheses, where other modes may hold. -/
def enter (r : Reading) (modes : Modes) : Reading :=
  { r with modes := modes, level := ⟨[], [], r.modes⟩, outer := r.level :: r.outer }

def leave (r : Reading) : Option Reading :=
  match r.outer with
  | [] => none
  | level :: outer =>
    some { r with
      modes := r.level.outside
      level := { level with parts := group r.level.pattern :: level.parts }
      outer := outer }

/-- The pattern, if all parentheses are closed. -/
def finish (r : Reading) : Option Pattern :=
  if r.outer.isEmpty then some r.level.pattern else none

end Reading

/-- Reads letters of modes up to the closing parenthesis or the colon. Letters behind a hyphen turn
modes off, and no letter may be there twice. -/
def readModes (off : Bool) (seen : List Char) (m : Modes) :
    List Char → Option (Modes × List Char)
  | [] => none
  | c :: cs =>
    if c = ')' || c = ':' then
      if seen.head? = some '-' || (c = ')' && seen.isEmpty) then none else some (m, c :: cs)
    else if seen.contains c then none
    else if c = '-' then readModes true (c :: seen) m cs
    else
      match m.set? c !off with
      | none => none
      | some m => readModes off (c :: seen) m cs

/-- Whether a name can be that of a group. Beyond ASCII every character counts as a letter. -/
def isGroupName : List Char → Bool
  | [] => false
  | c :: cs =>
    let isLetter (c : Char) : Bool := c.isAlpha || c = '_' || '\x7f' < c
    isLetter c && cs.all fun c => isLetter c || c.isDigit || c = '.' || c = '[' || c = ']'

/-- Goes into a group with a name, from behind the sign before the name. -/
def readNamedGroup (r : Reading) (cs : List Char) : Option (Reading × List Char) :=
  let name := cs.takeWhile (· ≠ '>')
  match cs.dropWhile (· ≠ '>') with
  | '>' :: rest =>
    if isGroupName name && !r.names.contains name then
      some ({ r with names := name :: r.names }.enter r.modes, rest)
    else none
  | _ => none

/-- Reads what follows an opening parenthesis: a group with or without a name, one with modes of
its own, or a change of modes. -/
def readGroup (r : Reading) (cs : List Char) : Option (Reading × List Char) :=
  match r.modes.skip cs with
  | '?' :: 'P' :: '<' :: cs => readNamedGroup r cs
  | '?' :: '<' :: cs => readNamedGroup r cs
  | '?' :: cs =>
    match readModes false [] r.modes cs with
    | some (m, ':' :: rest) => some (r.enter m, rest)
    | some (m, _ :: rest) => some ({ r with modes := m }.add nothing, rest)
    | _ => none
  | cs => some (r.enter r.modes, cs)

/-- Reads a pattern to its end. Brackets add to its depth as parentheses do. -/
def readAll : Nat → Reading → List Char → Option Pattern
  | 0, _, _ => none
  | fuel + 1, r, cs =>
    let m := r.modes
    match m.skip cs with
    | [] => r.finish
    | '(' :: cs => do
      let (r, rest) ← readGroup r cs
      readAll fuel r rest
    | ')' :: cs => do readAll fuel (← r.leave) cs
    | '|' :: cs => readAll fuel r.nextBranch cs
    | '[' :: cs => do
      let (s, rest) ← readSet m cs
      readAll fuel (r.add (group (one s))) rest
    | '?' :: cs => do readAll fuel (← r.repeatLast 0 (some 1)) (skipLazy cs)
    | '*' :: cs => do readAll fuel (← r.repeatLast 0 none) (skipLazy cs)
    | '+' :: cs => do readAll fuel (← r.repeatLast 1 none) (skipLazy cs)
    | '\x7b' :: cs => do
      let (least, most, rest) ← readCounts m cs
      readAll fuel (← r.repeatLast least most) (skipLazy (m.skip rest))
    | '\\' :: cs => do
      let (element, rest) ← readEscape m cs
      readAll fuel (r.add (← m.element? element)) rest
    | '.' :: cs => do readAll fuel (r.add (one (← m.point?))) cs
    | '^' :: cs => readAll fuel (r.add (edge m.caret)) cs
    | '$' :: cs => readAll fuel (r.add (edge m.dollar)) cs
    | c :: cs => do readAll fuel (r.add (one (← m.char? c false))) cs

def ofText? (cs : List Char) : Option Pattern :=
  match readAll (cs.length + 1) .start cs with
  | none => none
  | some p => if p.isModest then some p else none

example : ofText? "a|".toList = some (either (one (.one 'a')) nothing) := by decide +kernel
example : ofText? "x*".toList = some (repeated (one (.one 'x')) 0 none) := by decide +kernel
example : ofText? "[z-a]".toList = none := by decide +kernel
example : ofText? "*".toList = none := by decide +kernel
example : ofText? "]".toList = some (one (.one ']')) := by decide +kernel

end Ranging.Pattern
