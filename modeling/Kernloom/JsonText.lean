import Mathlib

/-! JSON texts over strings that need not be Unicode: values, their indented text, and a reader that
gives back what was written, with a replacement character for each stray byte. -/

namespace JsonText

section Values

/-- A step of decoding a byte string: a character, or a byte that is part of none. -/
inductive Rune
  | char (c : Char)
  | invalid (b : UInt8)
  deriving DecidableEq

abbrev Text := List Rune

def replacement : Char := '\ufffd'

/-- The character that a rune is read as. -/
def Rune.read : Rune → Char
  | .char c => c
  | .invalid _ => replacement

def isDigits (cs : List Char) : Bool := cs ≠ [] ∧ cs.all Char.isDigit

/-- A whole part: no leading zero. -/
def isWhole (cs : List Char) : Bool := isDigits cs ∧ (cs.head? = some '0' → cs.length = 1)

def isExponent : List Char → Bool
  | '+' :: cs | '-' :: cs => isDigits cs
  | cs => isDigits cs

def unsignedNumber (cs : List Char) : Bool :=
  let mantissa := cs.takeWhile fun c => c ≠ 'e' ∧ c ≠ 'E'
  let exponent := cs.dropWhile fun c => c ≠ 'e' ∧ c ≠ 'E'
  let whole := mantissa.takeWhile (· ≠ '.')
  let fraction := mantissa.dropWhile (· ≠ '.')
  isWhole whole ∧ (fraction = [] ∨ isDigits (fraction.drop 1)) ∧ (exponent = [] ∨ isExponent (exponent.drop 1))

/-- The number grammar. -/
def isNumber : List Char → Bool
  | '-' :: cs => unsignedNumber cs
  | cs => unsignedNumber cs

abbrev NumberText := { cs : List Char // isNumber cs = true }

mutual
inductive Value
  | null
  | bool (b : Bool)
  | num (n : NumberText)
  | str (s : Text)
  | arr (items : Items)
  | obj (fields : Fields)
inductive Items
  | nil
  | cons (v : Value) (rest : Items)
inductive Fields
  | nil
  | cons (key : Text) (v : Value) (rest : Fields)
end

def readText (s : Text) : Text := s.map fun r => .char r.read

mutual
/-- A value with its stray bytes replaced. -/
def Value.read : Value → Value
  | .str s => .str (readText s)
  | .arr items => .arr items.read
  | .obj fields => .obj fields.read
  | v => v
def Items.read : Items → Items
  | .nil => .nil
  | .cons v rest => .cons v.read rest.read
def Fields.read : Fields → Fields
  | .nil => .nil
  | .cons key v rest => .cons (readText key) v.read rest.read
end

end Values

section Writing

def hexDigit (n : Nat) : Char := Nat.digitChar (n % 16)

/-- A rune inside a string: the characters of HTML and the line separators are escaped too. -/
def escape : Rune → List Char
  | .invalid _ => ['\\', 'u', 'f', 'f', 'f', 'd']
  | .char c =>
    if c = '"' ∨ c = '\\' then ['\\', c]
    else if c = '\x08' then ['\\', 'b']
    else if c = '\x0c' then ['\\', 'f']
    else if c = '\n' then ['\\', 'n']
    else if c = '\r' then ['\\', 'r']
    else if c = '\t' then ['\\', 't']
    else if c.toNat < 32 ∨ c = '<' ∨ c = '>' ∨ c = '&' then
      ['\\', 'u', '0', '0', hexDigit (c.toNat / 16), hexDigit c.toNat]
    else if c = '\u2028' ∨ c = '\u2029' then ['\\', 'u', '2', '0', '2', hexDigit c.toNat]
    else [c]

def writeString (s : Text) : List Char := '"' :: (s.flatMap escape ++ ['"'])

def newline (depth : Nat) : List Char := '\n' :: List.replicate (2 * depth) ' '

mutual
/-- The text of a value at a depth of indentation. -/
def Value.write (depth : Nat) : Value → List Char
  | .null => ['n', 'u', 'l', 'l']
  | .bool true => ['t', 'r', 'u', 'e']
  | .bool false => ['f', 'a', 'l', 's', 'e']
  | .num n => n.1
  | .str s => writeString s
  | .arr .nil => ['[', ']']
  | .arr (.cons v rest) =>
    '[' :: (newline (depth + 1) ++ (v.write (depth + 1) ++ (rest.write (depth + 1) ++ (newline depth ++ [']']))))
  | .obj .nil => ['{', '}']
  | .obj (.cons key v rest) =>
    '{' :: (newline (depth + 1) ++ (writeString key ++ (':' :: ' ' :: (v.write (depth + 1) ++
      (rest.write (depth + 1) ++ (newline depth ++ ['}']))))))
/-- The items after the first. -/
def Items.write (depth : Nat) : Items → List Char
  | .nil => []
  | .cons v rest => ',' :: (newline depth ++ (v.write depth ++ rest.write depth))
/-- The fields after the first. -/
def Fields.write (depth : Nat) : Fields → List Char
  | .nil => []
  | .cons key v rest =>
    ',' :: (newline depth ++ (writeString key ++ (':' :: ' ' :: (v.write depth ++ rest.write depth))))
end

end Writing

section Reading

def isBlank (c : Char) : Bool := c = ' ' ∨ c = '\n' ∨ c = '\t' ∨ c = '\r'

def skipBlanks (cs : List Char) : List Char := cs.dropWhile isBlank

def hexValue (c : Char) : Option Nat :=
  if '0' ≤ c ∧ c ≤ '9' then some (c.toNat - 48)
  else if 'a' ≤ c ∧ c ≤ 'f' then some (c.toNat - 87)
  else if 'A' ≤ c ∧ c ≤ 'F' then some (c.toNat - 55)
  else none

def readHex4 : List Char → Option (Nat × List Char)
  | a :: b :: c :: d :: rest =>
    match hexValue a, hexValue b, hexValue c, hexValue d with
    | some a, some b, some c, some d => some (((a * 16 + b) * 16 + c) * 16 + d, rest)
    | _, _, _, _ => none
  | _ => none

/-- The character of a code unit; a pair of surrogates is one character. -/
def readUnit (n : Nat) (rest : List Char) : Char × List Char :=
  if n < 0xd800 ∨ 0xe000 ≤ n then (Char.ofNat n, rest)
  else match rest with
    | '\\' :: 'u' :: more =>
      match readHex4 more with
      | some (m, after) =>
        if n < 0xdc00 ∧ 0xdc00 ≤ m ∧ m < 0xe000 then
          (Char.ofNat ((n - 0xd800) * 1024 + (m - 0xdc00) + 0x10000), after)
        else (replacement, rest)
      | none => (replacement, rest)
    | _ => (replacement, rest)

/-- One character of a string. -/
def readRune : List Char → Option (Char × List Char)
  | [] => none
  | '\\' :: 'u' :: rest => (readHex4 rest).map fun u => readUnit u.1 u.2
  | '\\' :: c :: rest =>
    if c = '"' ∨ c = '\\' ∨ c = '/' then some (c, rest)
    else if c = 'b' then some ('\x08', rest)
    else if c = 'f' then some ('\x0c', rest)
    else if c = 'n' then some ('\n', rest)
    else if c = 'r' then some ('\r', rest)
    else if c = 't' then some ('\t', rest)
    else none
  | c :: rest => if c.toNat < 32 ∨ c = '"' ∨ c = '\\' then none else some (c, rest)

/-- The rest of a string after its opening quote. -/
def readString : (fuel : Nat) → List Char → Option (Text × List Char)
  | 0, _ => none
  | _ + 1, '"' :: rest => some ([], rest)
  | fuel + 1, cs => do
    let (c, rest) ← readRune cs
    let (s, rest) ← readString fuel rest
    return (.char c :: s, rest)

def isNumberChar (c : Char) : Bool := c.isDigit ∨ c = '-' ∨ c = '+' ∨ c = '.' ∨ c = 'e' ∨ c = 'E'

def readNumber (cs : List Char) : Option (Value × List Char) :=
  if h : isNumber (cs.takeWhile isNumberChar) = true then
    some (.num ⟨cs.takeWhile isNumberChar, h⟩, cs.dropWhile isNumberChar)
  else none

/-- What stands before a character that has to come next. -/
def expect (c : Char) (cs : List Char) : Option (List Char) :=
  match skipBlanks cs with
  | d :: rest => if d = c then some rest else none
  | [] => none

mutual
def readValue : (fuel : Nat) → List Char → Option (Value × List Char)
  | 0, _ => none
  | fuel + 1, cs =>
    match skipBlanks cs with
    | 'n' :: 'u' :: 'l' :: 'l' :: rest => some (.null, rest)
    | 't' :: 'r' :: 'u' :: 'e' :: rest => some (.bool true, rest)
    | 'f' :: 'a' :: 'l' :: 's' :: 'e' :: rest => some (.bool false, rest)
    | '"' :: rest => do
      let (s, rest) ← readString (rest.length + 1) rest
      return (.str s, rest)
    | '[' :: rest =>
      match expect ']' rest with
      | some rest => some (.arr .nil, rest)
      | none => do
        let (v, rest) ← readValue fuel rest
        let (items, rest) ← readItems fuel rest
        return (.arr (.cons v items), rest)
    | '{' :: rest =>
      match expect '}' rest with
      | some rest => some (.obj .nil, rest)
      | none => do
        let (key, v, rest) ← readField fuel rest
        let (fields, rest) ← readFields fuel rest
        return (.obj (.cons key v fields), rest)
    | cs => readNumber cs
/-- The items after the first, to the end of the array. -/
def readItems : (fuel : Nat) → List Char → Option (Items × List Char)
  | 0, _ => none
  | fuel + 1, cs =>
    match expect ']' cs with
    | some rest => some (.nil, rest)
    | none => do
      let rest ← expect ',' cs
      let (v, rest) ← readValue fuel rest
      let (items, rest) ← readItems fuel rest
      return (.cons v items, rest)
def readField : (fuel : Nat) → List Char → Option (Text × Value × List Char)
  | 0, _ => none
  | fuel + 1, cs => do
    let rest ← expect '"' cs
    let (key, rest) ← readString (rest.length + 1) rest
    let rest ← expect ':' rest
    let (v, rest) ← readValue fuel rest
    return (key, v, rest)
/-- The fields after the first, to the end of the object. -/
def readFields : (fuel : Nat) → List Char → Option (Fields × List Char)
  | 0, _ => none
  | fuel + 1, cs =>
    match expect '}' cs with
    | some rest => some (.nil, rest)
    | none => do
      let rest ← expect ',' cs
      let (key, v, rest) ← readField fuel rest
      let (fields, rest) ← readFields fuel rest
      return (.cons key v fields, rest)
end

/-- A whole text is one value. -/
def parse (cs : List Char) : Option Value :=
  match readValue (cs.length + 1) cs with
  | some (v, rest) => if skipBlanks rest = [] then some v else none
  | none => none

end Reading

end JsonText
