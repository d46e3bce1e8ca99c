import Ranging.Blank
import Ranging.Demo.Note
import Ranging.Demo.Plain
import Ranging.Pattern.Reader
import Ranging.Pattern.Search

/-!
Which notes are shown.

A filter is a list of directives separated by commas, for instance `info,tdoa3_sim=debug`. A
directive is a level, an origin, or both with `=` between them, and holds for all origins whose
names begin with its own; the longest such name decides. What follows a slash is a pattern that has
to occur in the texts of shown notes.
-/
namespace Ranging.Demo

/-- Shows the notes of some origins down to a level. -/
structure Directive where
  /-- How the names of the origins begin; without it the directive holds for all. -/
  target : Option (List Char)
  /-- The last level shown, if any is. -/
  limit : Option Level
  deriving Repr, DecidableEq

structure LogFilter where
  directives : List Directive
  /-- What has to occur in shown notes, if anything has to. -/
  wanted : Option Pattern
  deriving Repr, DecidableEq

/-- A level by its name in letters of any case, or `off` for none. -/
def limitOfName? (cs : List Char) : Option (Option Level) :=
  let name := String.ofList (cs.map Char.toUpper)
  if name = "OFF" then some none
  else
    match [Level.error, .warn, .info, .debug, .trace].find? (·.name = name) with
    | some level => some (some level)
    | none => none

namespace Directive

/-- Reads a directive without blanks around it. -/
def ofText? (cs : List Char) : Option Directive :=
  match cs.splitOn '=' with
  | [word] =>
    match limitOfName? word with
    | some limit => some ⟨none, limit⟩
    | none => some ⟨some word, some .trace⟩
  | [target, word] =>
    if (trimmed word).isEmpty then some ⟨some target, some .trace⟩
    else (limitOfName? (trimmed word)).map fun limit => ⟨some target, limit⟩
  | _ => none

def appliesTo (d : Directive) (o : Origin) : Bool :=
  match d.target with
  | none => true
  | some target => target.isPrefixOf o.name.toList

/-- How much of a name a directive states. -/
def length (d : Directive) : Nat := (d.target.getD []).length

end Directive

namespace LogFilter

/-- Adds a directive; one with the same target is replaced. -/
def addDirective (directives : List Directive) (d : Directive) : List Directive :=
  if directives.any (·.target = d.target) then
    directives.map fun other => if other.target = d.target then d else other
  else directives ++ [d]

/-- The directives in a text; those that cannot be read are left out. -/
def directivesOf (cs : List Char) : List Directive :=
  let words := ((cs.splitOn ',').map trimmed).filter (· ≠ [])
  (words.filterMap Directive.ofText?).foldl addDirective []

/-- Shows only errors where no directive says more. -/
def orErrors (directives : List Directive) : List Directive :=
  if directives.isEmpty then [⟨none, some .error⟩] else directives

/-- Reads a filter; with more than one slash it has no directives and no pattern. A pattern that
cannot be read is left out. -/
def ofText (text : String) : LogFilter :=
  match text.toList.splitOn '/' with
  | [directives] => ⟨orErrors (directivesOf directives), none⟩
  | [directives, wanted] => ⟨orErrors (directivesOf directives), Pattern.ofText? wanted⟩
  | _ => ⟨orErrors [], none⟩

/-- The filter where none is given. -/
def standard : LogFilter := ⟨[⟨none, some .info⟩], none⟩

/-- The directive that decides about an origin: of those with the longest target the last. -/
def deciding (f : LogFilter) (o : Origin) : Option Directive :=
  (f.directives.filter (·.appliesTo o)).foldl
    (fun best d =>
      match best with
      | none => some d
      | some b => if b.length ≤ d.length then some d else best)
    none

def wants (f : LogFilter) (text : String) : Bool :=
  match f.wanted with
  | none => true
  | some p => p.occursIn text.toList

def shows (f : LogFilter) (n : Note) : Bool :=
  match f.deciding n.origin with
  | none => false
  | some d =>
    match d.limit with
    | none => false
    | some limit => n.level.rank ≤ limit.rank && f.wants n.text

/-- The entries of the notes that are shown, without control sequences. -/
def entries (f : LogFilter) (notes : List Note) : List String :=
  (notes.filter f.shows).map fun n => plain n.entry

end LogFilter

example : LogFilter.ofText "tdoa3_sim=debug" =
    ⟨[⟨some "tdoa3_sim".toList, some .debug⟩], none⟩ := by
  decide +kernel
example : LogFilter.ofText "Info,x=" =
    ⟨[⟨none, some .info⟩, ⟨some ['x'], some .trace⟩], none⟩ := by
  decide +kernel
example : LogFilter.ofText "" = ⟨[⟨none, some .error⟩], none⟩ := by decide +kernel

end Ranging.Demo
