/-!
# JSON values and how they are written

Values are written without blanks, and the members of an object in the order in which they are
given.  Numbers are natural numbers; no others are needed.
-/

namespace GoReach

inductive Json where
  | null
  | bool (b : Bool)
  | num (n : Nat)
  | str (s : String)
  | arr (items : List Json)
  | obj (members : List (String × Json))
deriving Inhabited

namespace Json

def hexDigit (n : Nat) : Char := Nat.digitChar (n % 16)

/-- A character in a string: quotes, backslashes and control characters are escaped. -/
def escapeChar (c : Char) : List Char :=
  if c == '"' then ['\\', '"']
  else if c == '\\' then ['\\', '\\']
  else if c.toNat < 0x20 then
    match c.toNat with
    | 0x8 => ['\\', 'b']
    | 0x9 => ['\\', 't']
    | 0xA => ['\\', 'n']
    | 0xC => ['\\', 'f']
    | 0xD => ['\\', 'r']
    | n => ['\\', 'u', '0', '0', hexDigit (n / 16), hexDigit n]
  else [c]

def escape (cs : List Char) : List Char := cs.flatMap escapeChar

def quoted (s : String) : List Char := '"' :: escape s.toList ++ ['"']

mutual

/-- A value as text. -/
def chars : Json → List Char
  | .null => "null".toList
  | .bool true => "true".toList
  | .bool false => "false".toList
  | .num n => Nat.toDigits 10 n
  | .str s => quoted s
  | .arr items => '[' :: charsOfItems items ++ [']']
  | .obj members => '\x7b' :: charsOfMembers members ++ ['\x7d']

def charsOfItems : List Json → List Char
  | [] => []
  | [j] => j.chars
  | j :: rest => j.chars ++ ',' :: charsOfItems rest

def charsOfMembers : List (String × Json) → List Char
  | [] => []
  | [(name, j)] => quoted name ++ ':' :: j.chars
  | (name, j) :: rest => quoted name ++ ':' :: j.chars ++ ',' :: charsOfMembers rest

end

def render (j : Json) : String := String.ofList j.chars

end Json

end GoReach
