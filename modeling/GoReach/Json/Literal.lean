import GoReach.Json.Value

/-!
# Reading JSON

A text is first taken apart into literals, in which numbers and strings stay as they are written.
A string can then be unescaped; that fails if it names one half of a surrogate pair alone, which is
no character.
-/

namespace GoReach

/-- A JSON text taken apart. -/
inductive Literal where
  | null
  | bool (b : Bool)
  | number (written : List Char)
  /-- What stands between the quotes. -/
  | string (written : List Char)
  | array (items : List Literal)
  | object (members : List (List Char × Literal))
deriving Inhabited

namespace Literal

/-! ## Tokens -/

def isBlank (c : Char) : Bool := c == ' ' || c == '\t' || c == '\n' || c == '\r'

def skipBlanks (cs : List Char) : List Char := cs.dropWhile isBlank

def hexValue? (c : Char) : Option Nat :=
  if c.isDigit then some (c.toNat - '0'.toNat)
  else if 'a' ≤ c && c ≤ 'f' then some (c.toNat - 'a'.toNat + 10)
  else if 'A' ≤ c && c ≤ 'F' then some (c.toNat - 'A'.toNat + 10)
  else none

/-- The number that four hexadecimal digits write. -/
def hexValue4? (a b c d : Char) : Option Nat := do
  return (((← hexValue? a) * 16 + (← hexValue? b)) * 16 + (← hexValue? c)) * 16 + (← hexValue? d)

/-- The character that a backslash and a letter stand for. -/
def shortEscape? : Char → Option Char
  | '"' => some '"'
  | '\\' => some '\\'
  | '/' => some '/'
  | 'b' => some '\x08'
  | 'f' => some '\x0c'
  | 'n' => some '\n'
  | 'r' => some '\r'
  | 't' => some '\t'
  | _ => none

/-- Put characters before the first part of a pair. -/
def before (cs : List Char) (p : List Char × List Char) : List Char × List Char :=
  (cs ++ p.1, p.2)

/-- The inside of a string up to the closing quote, and what follows it. -/
def scanString : List Char → Option (List Char × List Char)
  | [] => none
  | '"' :: rest => some ([], rest)
  | '\\' :: 'u' :: a :: b :: c :: d :: rest =>
    if (hexValue4? a b c d).isSome then (scanString rest).map (before ['\\', 'u', a, b, c, d])
    else none
  | '\\' :: c :: rest =>
    if (shortEscape? c).isSome then (scanString rest).map (before ['\\', c]) else none
  | c :: rest =>
    if c == '\\' || c.toNat < 0x20 then none else (scanString rest).map (before [c])

/-- The digits at the beginning, at least one, and what follows them. -/
def scanDigits (cs : List Char) : Option (List Char × List Char) :=
  let digits := cs.takeWhile Char.isDigit
  if digits.isEmpty then none else some (digits, cs.drop digits.length)

/-- The digits before the point; only zero itself begins with a zero. -/
def scanWhole (cs : List Char) : Option (List Char × List Char) :=
  (scanDigits cs).filter fun (digits, _) => digits.head? != some '0' || digits.length == 1

/-- The point and the digits after it, if there is a point. -/
def scanFraction : List Char → Option (List Char × List Char)
  | '.' :: rest => (scanDigits rest).map (before ['.'])
  | cs => some ([], cs)

/-- The sign of an exponent and its digits. -/
def scanSigned : List Char → Option (List Char × List Char)
  | '+' :: rest => (scanDigits rest).map (before ['+'])
  | '-' :: rest => (scanDigits rest).map (before ['-'])
  | cs => scanDigits cs

/-- The exponent, if there is one. -/
def scanExponent : List Char → Option (List Char × List Char)
  | 'e' :: rest => (scanSigned rest).map (before ['e'])
  | 'E' :: rest => (scanSigned rest).map (before ['E'])
  | cs => some ([], cs)

/-- A number without its sign. -/
def scanUnsigned (cs : List Char) : Option (List Char × List Char) := do
  let (whole, cs) ← scanWhole cs
  let (fraction, cs) ← scanFraction cs
  let (exponent, cs) ← scanExponent cs
  return (whole ++ fraction ++ exponent, cs)

def scanNumber : List Char → Option (List Char × List Char)
  | '-' :: rest => (scanUnsigned rest).map (before ['-'])
  | cs => scanUnsigned cs

/-! ## Values -/

mutual

/-- The value at the beginning of a text, and what follows it. -/
def scanValue : Nat → List Char → Option (Literal × List Char)
  | 0, _ => none
  | fuel + 1, cs =>
    match skipBlanks cs with
    | 'n' :: 'u' :: 'l' :: 'l' :: rest => some (.null, rest)
    | 't' :: 'r' :: 'u' :: 'e' :: rest => some (.bool true, rest)
    | 'f' :: 'a' :: 'l' :: 's' :: 'e' :: rest => some (.bool false, rest)
    | '"' :: rest => (scanString rest).map fun (s, rest) => (.string s, rest)
    | '[' :: rest =>
      match skipBlanks rest with
      | ']' :: rest => some (.array [], rest)
      | rest => (scanItems fuel rest).map fun (items, rest) => (.array items, rest)
    | '\x7b' :: rest =>
      match skipBlanks rest with
      | '\x7d' :: rest => some (.object [], rest)
      | rest => (scanMembers fuel rest).map fun (members, rest) => (.object members, rest)
    | rest => (scanNumber rest).map fun (n, rest) => (.number n, rest)

/-- The items of an array up to its end. -/
def scanItems : Nat → List Char → Option (List Literal × List Char)
  | 0, _ => none
  | fuel + 1, cs =>
    match scanValue fuel cs with
    | none => none
    | some (item, rest) =>
      match skipBlanks rest with
      | ']' :: rest => some ([item], rest)
      | ',' :: rest => (scanItems fuel rest).map fun (items, rest) => (item :: items, rest)
      | _ => none

/-- The members of an object up to its end. -/
def scanMembers : Nat → List Char → Option (List (List Char × Literal) × List Char)
  | 0, _ => none
  | fuel + 1, cs =>
    match skipBlanks cs with
    | '"' :: rest =>
      match scanString rest with
      | none => none
      | some (name, rest) =>
        match skipBlanks rest with
        | ':' :: rest =>
          match scanValue fuel rest with
          | none => none
          | some (value, rest) =>
            match skipBlanks rest with
            | '\x7d' :: rest => some ([(name, value)], rest)
            | ',' :: rest =>
              (scanMembers fuel rest).map fun (more, rest) => ((name, value) :: more, rest)
            | _ => none
        | _ => none
    | _ => none

end

/-- A whole text.  Every step of the scan leaves a character behind, so that the fuel suffices. -/
def ofChars? (cs : List Char) : Option Literal :=
  match scanValue (2 * cs.length + 1) cs with
  | some (value, rest) => if (skipBlanks rest).isEmpty then some value else none
  | none => none

def ofText? (text : String) : Option Literal := ofChars? text.toList

/-! ## Strings and numbers -/

/-- First and second halves of surrogate pairs. -/
def isHighHalf (n : Nat) : Bool := 0xD800 ≤ n && n < 0xDC00
def isLowHalf (n : Nat) : Bool := 0xDC00 ≤ n && n < 0xE000

/-- The text that a string stands for. -/
def unescape : List Char → Option (List Char)
  | [] => some []
  | '\\' :: 'u' :: a :: b :: c :: d :: '\\' :: 'u' :: a' :: b' :: c' :: d' :: rest =>
    match hexValue4? a b c d, hexValue4? a' b' c' d' with
    | some m, some n =>
      if isHighHalf m then
        if isLowHalf n then
          let code := 0x10000 + (m - 0xD800) * 0x400 + (n - 0xDC00)
          (unescape rest).map (Char.ofNat code :: ·)
        else none
      else if isLowHalf m then none
      else
        (unescape ('\\' :: 'u' :: a' :: b' :: c' :: d' :: rest)).map (Char.ofNat m :: ·)
    | _, _ => none
  | '\\' :: 'u' :: a :: b :: c :: d :: rest =>
    match hexValue4? a b c d with
    | some n =>
      if isHighHalf n || isLowHalf n then none else (unescape rest).map (Char.ofNat n :: ·)
    | none => none
  | '\\' :: c :: rest =>
    match shortEscape? c with
    | some e => (unescape rest).map (e :: ·)
    | none => none
  | c :: rest => (unescape rest).map (c :: ·)

/-- The text of a string. -/
def text? : Literal → Option String
  | .string written => (unescape written).map String.ofList
  | _ => none

/-- The number that digits write. -/
def digitsValue (digits : List Char) : Nat :=
  digits.foldl (fun n c => 10 * n + (c.toNat - '0'.toNat)) 0

/-- A natural number that fits into 64 bits, written as nothing but digits. -/
def nat? : Literal → Option Nat
  | .number written =>
    if written.all Char.isDigit && digitsValue written < UInt64.size then some (digitsValue written)
    else none
  | _ => none

mutual

/-- The value that a literal stands for. -/
def value? : Literal → Option Json
  | .null => some .null
  | .bool b => some (.bool b)
  | .number n => (nat? (.number n)).map .num
  | .string s => (text? (.string s)).map .str
  | .array items => (valueOfItems? items).map .arr
  | .object members => (valueOfMembers? members).map .obj

def valueOfItems? : List Literal → Option (List Json)
  | [] => some []
  | l :: rest =>
    match l.value?, valueOfItems? rest with
    | some j, some js => some (j :: js)
    | _, _ => none

def valueOfMembers? : List (List Char × Literal) → Option (List (String × Json))
  | [] => some []
  | (name, l) :: rest =>
    match text? (.string name), l.value?, valueOfMembers? rest with
    | some name, some j, some js => some ((name, j) :: js)
    | _, _, _ => none

end

end Literal

/-- Read a value. -/
def Json.ofText? (text : String) : Option Json := (Literal.ofText? text).bind Literal.value?

end GoReach
