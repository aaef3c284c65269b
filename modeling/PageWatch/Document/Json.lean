import PageWatch.Decimal.Integer
import PageWatch.Document

/-! JSON: documents as text, read and written. -/
namespace PageWatch.Json

def isSpace (c : Char) : Bool := c = ' ' || c = '\n' || c = '\t' || c = '\r'

def skipSpace (cs : List Char) : List Char := cs.dropWhile isSpace

/-- Takes decimal digits into a significand while it stays below `2 ^ 64`. Gives the significand,
how many digits were taken, and what follows them. -/
def takeDigits (significand : Nat) : List Char → Nat × Nat × List Char
  | [] => (significand, 0, [])
  | c :: cs =>
    let next := 10 * significand + (c.toNat - '0'.toNat)
    if c.isDigit && next < UInt64.size then
      let (s, count, rest) := takeDigits next cs
      (s, count + 1, rest)
    else (significand, 0, c :: cs)

/-- The digits at the start that found no room in a significand, and what follows them. -/
def excess (cs : List Char) : Nat × List Char :=
  ((cs.takeWhile Char.isDigit).length, cs.dropWhile Char.isDigit)

/-- An exponent, after its letter: an optional sign and at least one digit. -/
def exponent? (cs : List Char) : Option (Int × List Char) :=
  let (negative, rest) := Decimal.splitSign cs
  let digits := rest.takeWhile Char.isDigit
  if digits.isEmpty then none
  else some (Decimal.signed negative (Decimal.magnitude digits), rest.drop digits.length)

/-- A number without a point or an exponent whose digits all fit. It is an integer in 64 bits,
signed or unsigned; minus zero and what is too small are floating point numbers. -/
def whole (negative : Bool) (significand : Nat) : Option Document :=
  if negative then
    if significand = 0 ∨ Int64.minValue.toInt.natAbs < significand then
      (Decimal.Double.ofScaled? true (.ofNat significand) 0).map .float
    else some (.int (-significand))
  else some (.int significand)

/-- What an exponent adds to a floating point number. -/
def scaled (negative : Bool) (significand : Nat) (exponent : Int) (cs : List Char) :
    Option (Document × List Char) := do
  let (more, rest) ← match cs with
    | 'e' :: rest | 'E' :: rest => exponent? rest
    | rest => some (0, rest)
  let x ← Decimal.Double.ofScaled? negative (.ofNat significand) (exponent + more)
  return (.float x, rest)

/-- A number, after its sign. Digits that find no room in 64 bits count by their number only, and
those of a fraction not at all. -/
def unsigned (negative : Bool) (cs : List Char) : Option (Document × List Char) := do
  let (significand, count, rest) := takeDigits 0 cs
  if count = 0 then none
  if cs.head? = some '0' ∧ (cs.drop 1).head?.any Char.isDigit then none
  let (dropped, rest) := excess rest
  match rest with
  | '.' :: fraction =>
    if !fraction.head?.any Char.isDigit then none
    let (significand, places, rest) := takeDigits significand fraction
    scaled negative significand (dropped - places) (excess rest).2
  | 'e' :: _ | 'E' :: _ => scaled negative significand dropped rest
  | _ =>
    if dropped = 0 then (whole negative significand).map (·, rest)
    else scaled negative significand dropped rest

def number? : List Char → Option (Document × List Char)
  | '-' :: cs => unsigned true cs
  | cs => unsigned false cs

/-- A code unit, written as four hexadecimal digits. -/
def unit? : List Char → Option (Nat × List Char)
  | a :: b :: c :: d :: rest => do
    let unit ← Text.hexValue? [a, b, c, d]
    return (unit, rest)
  | _ => none

/-- The character of one code unit, or of a leading and a trailing one. -/
def unicodeEscape? (cs : List Char) : Option (Char × List Char) := do
  let (unit, rest) ← unit? cs
  if 0xd800 ≤ unit ∧ unit < 0xdc00 then
    match rest with
    | '\\' :: 'u' :: rest => do
      let (trail, rest) ← unit? rest
      if 0xdc00 ≤ trail ∧ trail < 0xe000 then
        return (Char.ofNat (0x10000 + 0x400 * (unit - 0xd800) + (trail - 0xdc00)), rest)
      else none
    | _ => none
  else if unit.isValidChar then return (Char.ofNat unit, rest)
  else none

/-- The character of an escape, after its backslash. -/
def escape? : List Char → Option (Char × List Char)
  | '"' :: cs => some ('"', cs)
  | '\\' :: cs => some ('\\', cs)
  | '/' :: cs => some ('/', cs)
  | 'b' :: cs => some ('\x08', cs)
  | 'f' :: cs => some ('\x0c', cs)
  | 'n' :: cs => some ('\n', cs)
  | 'r' :: cs => some ('\r', cs)
  | 't' :: cs => some ('\t', cs)
  | 'u' :: cs => unicodeEscape? cs
  | _ => none

/-- The rest of a string, after the characters `read` so far in reverse, up to its closing quote. -/
def stringRest (read : List Char) : Nat → List Char → Option (String × List Char)
  | 0, _ => none
  | _, [] => none
  | _, '"' :: cs => some (String.ofList read.reverse, cs)
  | fuel + 1, '\\' :: cs =>
    match escape? cs with
    | some (c, rest) => stringRest (c :: read) fuel rest
    | none => none
  | fuel + 1, c :: cs => if c < ' ' then none else stringRest (c :: read) fuel cs

/-- A string of at most `fuel` characters, after its opening quote. -/
def string? (fuel : Nat) (cs : List Char) : Option (String × List Char) := stringRest [] fuel cs

mutual

/-- A value and what follows it. -/
def value : Nat → List Char → Option (Document × List Char)
  | 0, _ => none
  | fuel + 1, cs =>
    match cs with
    | 'n' :: 'u' :: 'l' :: 'l' :: rest => some (.null, rest)
    | 't' :: 'r' :: 'u' :: 'e' :: rest => some (.bool true, rest)
    | 'f' :: 'a' :: 'l' :: 's' :: 'e' :: rest => some (.bool false, rest)
    | '"' :: rest => (string? fuel rest).map fun (s, rest) => (.text s, rest)
    | '[' :: rest =>
      match skipSpace rest with
      | ']' :: rest => some (.list [], rest)
      | rest => (items fuel rest).map fun (ds, rest) => (.list ds, rest)
    | '\x7b' :: rest =>
      match skipSpace rest with
      | '\x7d' :: rest => some (.table [], rest)
      | rest => (members fuel rest).map fun (ms, rest) => (.ofMembers ms, rest)
    | _ => number? cs

/-- The items of a list that is not empty, up to its closing bracket. -/
def items : Nat → List Char → Option (List Document × List Char)
  | 0, _ => none
  | fuel + 1, cs => do
    let (d, rest) ← value fuel cs
    match skipSpace rest with
    | ',' :: rest => do
      let (ds, rest) ← items fuel (skipSpace rest)
      return (d :: ds, rest)
    | ']' :: rest => return ([d], rest)
    | _ => none

/-- The members of a table that is not empty, up to its closing brace. -/
def members : Nat → List Char → Option (List (String × Document) × List Char)
  | 0, _ => none
  | fuel + 1, cs =>
    match cs with
    | '"' :: rest => do
      let (name, rest) ← string? fuel rest
      match skipSpace rest with
      | ':' :: rest => do
        let (d, rest) ← value fuel (skipSpace rest)
        match skipSpace rest with
        | ',' :: rest => do
          let (ms, rest) ← members fuel (skipSpace rest)
          return ((name, d) :: ms, rest)
        | '\x7d' :: rest => return ([(name, d)], rest)
        | _ => none
      | _ => none
    | _ => none

end

/-- The document that a text is, as a whole. No character is looked at by more than two steps, so
the fuel lasts. -/
def parse? (s : String) : Option Document := do
  let cs := skipSpace s.toList
  let (d, rest) ← value (2 * cs.length + 1) cs
  if (skipSpace rest).isEmpty then some d else none

/-- A character within quotes. -/
def encodeChar (c : Char) : List Char :=
  match c with
  | '"' => ['\\', '"']
  | '\\' => ['\\', '\\']
  | c =>
    if c < ' ' then
      ['\\', 'u', '0', '0', Nat.digitChar (c.toNat / 16), Nat.digitChar (c.toNat % 16)]
    else [c]

def quote (s : String) : String :=
  String.ofList ('"' :: (s.toList.flatMap encodeChar ++ ['"']))

mutual

/-- The text of a document. -/
def render : Document → String
  | .null => "null"
  | .bool b => toString b
  | .int n => toString n
  | .float x => x.text
  | .text s => quote s
  | .list ds => "[" ++ ",".intercalate (renderItems ds) ++ "]"
  | .table ms => "\x7b" ++ ",".intercalate (renderMembers ms) ++ "\x7d"

def renderItems : List Document → List String
  | [] => []
  | d :: ds => render d :: renderItems ds

def renderMembers : List (String × Document) → List String
  | [] => []
  | (name, d) :: ms => (quote name ++ ":" ++ render d) :: renderMembers ms

end

end PageWatch.Json
