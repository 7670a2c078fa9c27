namespace TestData
namespace Text

/-!
# JSON texts

The strict grammar of JSON, read into a tree that keeps numbers and strings as they
are written.  What a number or a string stands for is decided only where somebody
needs to know, so a text may hold numbers of any size, and strings that no text can
stand for, in places nobody looks at.
-/

/-- A JSON value, with numbers and strings as written. -/
inductive Json where
  | null
  | boolean (flag : Bool)
  | number (written : List Char)
  | string (written : List Char)
  | array (items : List Json)
  | object (members : List (List Char × Json))
  deriving Repr, Inhabited

namespace Json

/-- What may stand between the parts of a value. -/
def isSpace (c : Char) : Bool :=
  c == ' ' || c == '\t' || c == '\n' || c == '\r'

def skipSpace (input : List Char) : List Char :=
  input.dropWhile isSpace

/-- The value of a hexadecimal digit. -/
def hexDigit? (c : Char) : Option Nat :=
  if '0' ≤ c && c ≤ '9' then some (c.toNat - '0'.toNat)
  else if 'a' ≤ c && c ≤ 'f' then some (c.toNat - 'a'.toNat + 10)
  else if 'A' ≤ c && c ≤ 'F' then some (c.toNat - 'A'.toNat + 10)
  else none

/-- The number four hexadecimal digits stand for. -/
def unit? (a b c d : Char) : Option Nat := do
  return ((← hexDigit? a) * 16 + (← hexDigit? b)) * 256 + (← hexDigit? c) * 16 + (← hexDigit? d)

/-- The character a short escape stands for. -/
def shortEscape? : Char → Option Char
  | '"' => some '"'
  | '\\' => some '\\'
  | '/' => some '/'
  | 'b' => some '\x08'
  | 'f' => some '\x0c'
  | 'n' => some '\n'
  | 'r' => some '\r'
  | 't' => some '\t'
  | _ => none

/-- The characters of a string up to its closing quote, and what follows the quote. -/
def readString : List Char → Option (List Char × List Char)
  | '"' :: rest => some ([], rest)
  | '\\' :: 'u' :: a :: b :: c :: d :: rest =>
      match unit? a b c d with
      | some _ => (readString rest).map fun (written, rest) =>
          ('\\' :: 'u' :: a :: b :: c :: d :: written, rest)
      | none => none
  | '\\' :: c :: rest =>
      match shortEscape? c with
      | some _ => (readString rest).map fun (written, rest) => ('\\' :: c :: written, rest)
      | none => none
  | c :: rest =>
      if c == '\\' || c.toNat < 0x20 then none
      else (readString rest).map fun (written, rest) => (c :: written, rest)
  | [] => none

/-- At least one digit. -/
def readDigits (input : List Char) : Option (List Char × List Char) :=
  match input.takeWhile Char.isDigit with
  | [] => none
  | digits => some (digits, input.dropWhile Char.isDigit)

/-- The digits of an integer: a zero alone, or digits that do not begin with one. -/
def readInteger (input : List Char) : Option (List Char × List Char) :=
  match input with
  | '0' :: c :: rest => if c.isDigit then none else some (['0'], c :: rest)
  | input => readDigits input

/-- The part of a number behind the point, if there is a point. -/
def readFraction (input : List Char) : Option (List Char × List Char) :=
  match input with
  | '.' :: rest => (readDigits rest).map fun (digits, rest) => ('.' :: digits, rest)
  | input => some ([], input)

/-- The exponent of a number, if there is one. -/
def readExponent (input : List Char) : Option (List Char × List Char) :=
  match input with
  | e :: rest =>
      if e == 'e' || e == 'E' then
        match rest with
        | sign :: digits =>
            if sign == '+' || sign == '-' then
              (readDigits digits).map fun (digits, rest) => (e :: sign :: digits, rest)
            else (readDigits rest).map fun (digits, rest) => (e :: digits, rest)
        | [] => none
      else some ([], input)
  | [] => some ([], [])

/-- A number, and what follows it. -/
def readNumber (input : List Char) : Option (List Char × List Char) := do
  let (sign, input) :=
    match input with
    | '-' :: rest => (['-'], rest)
    | input => ([], input)
  let (integer, input) ← readInteger input
  let (fraction, input) ← readFraction input
  let (exponent, input) ← readExponent input
  return (sign ++ integer ++ fraction ++ exponent, input)

mutual

/-- A value, and what follows it. -/
def readValue : Nat → List Char → Option (Json × List Char)
  | 0, _ => none
  | fuel + 1, input =>
      match skipSpace input with
      | 'n' :: 'u' :: 'l' :: 'l' :: rest => some (.null, rest)
      | 't' :: 'r' :: 'u' :: 'e' :: rest => some (.boolean true, rest)
      | 'f' :: 'a' :: 'l' :: 's' :: 'e' :: rest => some (.boolean false, rest)
      | '"' :: rest => (readString rest).map fun (written, rest) => (.string written, rest)
      | '[' :: rest =>
          match skipSpace rest with
          | ']' :: rest => some (.array [], rest)
          | rest => (readItems fuel rest).map fun (items, rest) => (.array items, rest)
      | '{' :: rest =>
          match skipSpace rest with
          | '}' :: rest => some (.object [], rest)
          | rest => (readMembers fuel rest).map fun (members, rest) => (.object members, rest)
      | input => (readNumber input).map fun (written, rest) => (.number written, rest)

/-- The items of an array up to its closing bracket. -/
def readItems : Nat → List Char → Option (List Json × List Char)
  | 0, _ => none
  | fuel + 1, input => do
      let (item, rest) ← readValue fuel input
      match skipSpace rest with
      | ',' :: rest =>
          let (items, rest) ← readItems fuel rest
          return (item :: items, rest)
      | ']' :: rest => return ([item], rest)
      | _ => none

/-- The members of an object up to its closing brace. -/
def readMembers : Nat → List Char → Option (List (List Char × Json) × List Char)
  | 0, _ => none
  | fuel + 1, input => do
      match skipSpace input with
      | '"' :: rest =>
          let (name, rest) ← readString rest
          match skipSpace rest with
          | ':' :: rest =>
              let (value, rest) ← readValue fuel rest
              match skipSpace rest with
              | ',' :: rest =>
                  let (members, rest) ← readMembers fuel rest
                  return ((name, value) :: members, rest)
              | '}' :: rest => return ([(name, value)], rest)
              | _ => none
          | _ => none
      | _ => none

end

/-- The value of a JSON text; nothing but space may follow the value. -/
def ofString? (text : String) : Option Json :=
  let input := text.toList
  match readValue (2 * input.length + 2) input with
  | some (value, rest) => if (skipSpace rest).isEmpty then some value else none
  | none => none

/-- The character of a code point, if it is one. -/
def character? (code : Nat) : Option Char :=
  if valid : code.isValidChar then some (Char.ofNatAux code valid) else none

/--
The text a written string stands for.  Characters beyond the first plane are written
as two units, a high one and a low one; neither of the two stands for anything alone.
-/
def decode? : List Char → Option (List Char)
  | [] => some []
  | '\\' :: 'u' :: a :: b :: c :: d :: rest => do
      let high ← unit? a b c d
      if 0xD800 ≤ high && high < 0xDC00 then
        match rest with
        | '\\' :: 'u' :: a :: b :: c :: d :: rest =>
            let low ← unit? a b c d
            if 0xDC00 ≤ low && low < 0xE000 then
              let first ← character? (0x10000 + (high - 0xD800) * 0x400 + (low - 0xDC00))
              return first :: (← decode? rest)
            else none
        | _ => none
      else
        let first ← character? high
        return first :: (← decode? rest)
  | '\\' :: c :: rest => do
      let first ← shortEscape? c
      return first :: (← decode? rest)
  | c :: rest => do return c :: (← decode? rest)

/-- The number a written number stands for, if it is a plain natural number. -/
def natural? (written : List Char) : Option Nat :=
  if written.all Char.isDigit then
    some (written.foldl (fun value digit => value * 10 + (digit.toNat - '0'.toNat)) 0)
  else none

end Json
end Text
end TestData
