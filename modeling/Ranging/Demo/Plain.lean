/-!
Texts without control sequences.

A terminal takes an escape character and some characters behind it as a command, for instance to
change colours. What is left of a text without such commands, and without control characters that
lay nothing out, is plain.
-/
namespace Ranging.Demo

/-- Where in a text with control sequences a place is. -/
inductive ControlState where
  | text
  /-- Behind an escape character. -/
  | escape
  /-- Inside an escape sequence of more than two characters. -/
  | escapeTail
  /-- Among the parameters of a control sequence. -/
  | parameters
  /-- Before the data of a device string. -/
  | deviceHead
  /-- Inside a string for a device or an application. -/
  | string
  /-- Inside a command for the operating system. -/
  | systemCommand
  deriving Repr, DecidableEq

namespace ControlState

/-- Whether a control character lays a text out. -/
def isLayout (c : Char) : Bool := c = '\t' || c = '\n' || c = '\x0c' || c = '\r'

/-- Whether a character has the byte that ends strings; a string ends inside it then. -/
def hasTerminator (c : Char) : Bool := c.toString.toUTF8.data.contains 0x9c

/-- Goes past a character, and says whether it is shown. -/
def next (s : ControlState) (c : Char) : ControlState × Bool :=
  if c = '\x18' || c = '\x1a' then (text, false)
  else if c = '\x1b' then (escape, false)
  else
    match s with
    | text => (text, c ≠ '\x7f' && (' ' ≤ c || isLayout c))
    | escape =>
      if c < ' ' then (escape, isLayout c)
      else if c < '0' then (escapeTail, false)
      else if c = '[' then (parameters, false)
      else if c = ']' then (systemCommand, false)
      else if c = 'P' then (deviceHead, false)
      else if c = 'X' || c = '^' || c = '_' then (string, false)
      else if c < '\x7f' then (text, false)
      else (escape, false)
    | escapeTail =>
      if c < ' ' then (escapeTail, isLayout c)
      else if '0' ≤ c && c < '\x7f' then (text, false)
      else (escapeTail, false)
    | parameters =>
      if c < ' ' then (parameters, isLayout c)
      else if '@' ≤ c && c < '\x7f' then (text, false)
      else (parameters, false)
    | deviceHead => (if '@' ≤ c && c < '\x7f' then string else deviceHead, false)
    | string => (if hasTerminator c then text else string, false)
    | systemCommand => (if c = '\x07' then text else systemCommand, false)

end ControlState

/-- The characters that are shown. One that is shown inside a control sequence interrupts it: what
follows is text up to a character that no text shows, and there the sequence goes on. -/
def plainFrom (s : ControlState) (showing : Bool) : List Char → List Char
  | [] => []
  | c :: cs =>
    if showing && (ControlState.text.next c).2 then
      c :: plainFrom (if '\x7f' < c then .text else s) true cs
    else
      match s.next c with
      | (s, true) => c :: plainFrom s true cs
      | (s, false) => plainFrom s false cs

/-- A text without control sequences. -/
def plain (s : String) : String := String.ofList (plainFrom .text true s.toList)

example : plain "a\x1b[1;31mb\x1b[0m\x7f" = "ab" := by decide +kernel
example : plain "x\x0by\x0cz" = "xy\x0cz" := by decide +kernel

end Ranging.Demo
