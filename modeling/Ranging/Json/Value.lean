import Ranging.Number.Text

/-!
JSON values and their text.

A number is kept as it is written, so that whoever reads it decides what it means. The content of
a string is missing where its escapes do not make up Unicode text.
-/
namespace Ranging.Json

inductive Value where
  | null
  | bool (b : Bool)
  | number (lexeme : List Char)
  | text (content : Option String)
  | array (items : List Value)
  | object (members : List (Option String × Value))
  deriving Repr, Inhabited

/-- A hexadecimal digit, in lower case. -/
def hexDigit (n : Nat) : Char := Char.ofNat (if n < 10 then 48 + n else 87 + n)

def escapeChar (c : Char) : List Char :=
  if c = '"' then ['\\', '"']
  else if c = '\\' then ['\\', '\\']
  else if c = '\x08' then ['\\', 'b']
  else if c = '\x0c' then ['\\', 'f']
  else if c = '\n' then ['\\', 'n']
  else if c = '\r' then ['\\', 'r']
  else if c = '\t' then ['\\', 't']
  else if c.toNat < 32 then
    ['\\', 'u', '0', '0', hexDigit (c.toNat / 16), hexDigit (c.toNat % 16)]
  else [c]

/-- A string in quotes. -/
def quote (s : String) : List Char := '"' :: (s.toList.flatMap escapeChar ++ ['"'])

/-- The content of a string with its quotes; without content it is written empty. -/
def quoteContent (content : Option String) : List Char := quote (content.getD "")

namespace Value

mutual

/-- The text of a value without blanks. -/
def compact : Value → List Char
  | null => ['n', 'u', 'l', 'l']
  | bool true => ['t', 'r', 'u', 'e']
  | bool false => ['f', 'a', 'l', 's', 'e']
  | number lexeme => lexeme
  | text content => quoteContent content
  | array [] => ['[', ']']
  | array (item :: items) => '[' :: (compact item ++ compactItems items)
  | object [] => ['\x7b', '\x7d']
  | object ((key, value) :: members) =>
    '\x7b' :: (quoteContent key ++ ':' :: (compact value ++ compactMembers members))

/-- The items behind the first, and the closing bracket. -/
def compactItems : List Value → List Char
  | [] => [']']
  | item :: items => ',' :: (compact item ++ compactItems items)

/-- The members behind the first, and the closing brace. -/
def compactMembers : List (Option String × Value) → List Char
  | [] => ['\x7d']
  | (key, value) :: members =>
    ',' :: (quoteContent key ++ ':' :: (compact value ++ compactMembers members))

end

/-- A new line at a nesting depth, two blanks per level. -/
def newLine (depth : Nat) : List Char := '\n' :: List.replicate (2 * depth) ' '

mutual

/-- The text of a value with one line per item and member, at a nesting depth. -/
def pretty (depth : Nat) : Value → List Char
  | null => ['n', 'u', 'l', 'l']
  | bool true => ['t', 'r', 'u', 'e']
  | bool false => ['f', 'a', 'l', 's', 'e']
  | number lexeme => lexeme
  | text content => quoteContent content
  | array [] => ['[', ']']
  | array (item :: items) =>
    '[' :: (newLine (depth + 1) ++ (pretty (depth + 1) item ++ prettyItems depth items))
  | object [] => ['\x7b', '\x7d']
  | object ((key, value) :: members) =>
    '\x7b' :: (newLine (depth + 1) ++ (quoteContent key ++
      ':' :: ' ' :: (pretty (depth + 1) value ++ prettyMembers depth members)))

/-- The items behind the first, and the closing bracket. -/
def prettyItems (depth : Nat) : List Value → List Char
  | [] => newLine depth ++ [']']
  | item :: items =>
    ',' :: (newLine (depth + 1) ++ (pretty (depth + 1) item ++ prettyItems depth items))

/-- The members behind the first, and the closing brace. -/
def prettyMembers (depth : Nat) : List (Option String × Value) → List Char
  | [] => newLine depth ++ ['\x7d']
  | (key, value) :: members =>
    ',' :: (newLine (depth + 1) ++ (quoteContent key ++
      ':' :: ' ' :: (pretty (depth + 1) value ++ prettyMembers depth members)))

end
end Value
end Ranging.Json
