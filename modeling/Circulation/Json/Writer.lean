import Circulation.Json.Value

/-!
# Writing JSON

Compact text, without blanks. Members are written in the order in which they stand.
-/

namespace Circulation.Json

def hexChar (n : Nat) : Char :=
  if n < 10 then Char.ofNat (48 + n) else Char.ofNat (87 + n)

/-- The characters that stand for `c` in a string. -/
def escape (c : Char) : List Char :=
  if c = '"' then ['\\', '"']
  else if c = '\\' then ['\\', '\\']
  else if c = '\x08' then ['\\', 'b']
  else if c = '\x0c' then ['\\', 'f']
  else if c = '\n' then ['\\', 'n']
  else if c = '\r' then ['\\', 'r']
  else if c = '\t' then ['\\', 't']
  else if c.toNat < 32 then ['\\', 'u', '0', '0', hexChar (c.toNat / 16), hexChar (c.toNat % 16)]
  else [c]

def stringChars (s : String) : List Char :=
  '"' :: s.toList.flatMap escape ++ ['"']

mutual

def chars : Json → List Char
  | null => "null".toList
  | bool true => "true".toList
  | bool false => "false".toList
  | int n => Text.ofInt n
  | decimal d => d.chars
  | str s => stringChars s
  | arr items => '[' :: itemsChars items
  | obj members => '\x7b' :: membersChars members

/-- The items of a list with the closing bracket. -/
def itemsChars : List Json → List Char
  | [] => [']']
  | [j] => chars j ++ [']']
  | j :: k :: rest => chars j ++ ',' :: itemsChars (k :: rest)

/-- The members of an object with the closing brace. -/
def membersChars : List (String × Json) → List Char
  | [] => ['\x7d']
  | [(key, j)] => stringChars key ++ ':' :: chars j ++ ['\x7d']
  | (key, j) :: m :: rest => stringChars key ++ ':' :: chars j ++ ',' :: membersChars (m :: rest)

end

def toText (j : Json) : String := String.ofList (chars j)

end Circulation.Json
