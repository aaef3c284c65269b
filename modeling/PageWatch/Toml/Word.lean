import PageWatch.Decimal.Integer
import PageWatch.Document
import PageWatch.Toml.Text

/-! Values of TOML that are single words: truth values, numbers, and moments in time. No setting
holds a number or a moment, so these are recognized and kept as they are written. -/
namespace PageWatch.Toml

/-- The pieces between underscores. -/
def pieces : List Char → List (List Char)
  | [] => [[]]
  | c :: cs =>
    match c, pieces cs with
    | '_', ps => [] :: ps
    | c, p :: ps => (c :: p) :: ps
    | c, [] => [[c]]

/-- Whether underscores stand singly, within the word, and between digits. -/
def separatesDigits (isDigit : Char → Bool) (cs : List Char) : Bool :=
  match pieces cs with
  | [_] => true
  | ps =>
    ps.all (fun p => !p.isEmpty) && ps.tail.all (fun p => p.head?.any isDigit)
      && ps.dropLast.all fun p => p.getLast?.any isDigit

def isBinaryDigit (c : Char) : Bool := c = '0' || c = '1'

def isOctalDigit (c : Char) : Bool := '0' ≤ c && c ≤ '7'

/-- The digits of an integer after its radix. There may be none. -/
def isRadixBody (isDigit : Char → Bool) (cs : List Char) : Bool :=
  cs.all (fun c => isDigit c || c = '_') && separatesDigits Text.isHexDigit cs

/-- Whether a word is an integer in decimal digits. After the first underscore all but a space and
the marks of a fraction or an exponent may stand, as long as every underscore is between two
hexadecimal digits. -/
def isDecimalInteger (cs : List Char) : Bool :=
  let body := (Decimal.splitSign cs).2
  let rest := body.dropWhile Char.isDigit
  if rest.isEmpty then body = ['0'] || (!body.isEmpty && body.head? ≠ some '0')
  else rest.head? = some '_' && body.head? ≠ some '0'
    && !rest.any (fun c => c = ' ' || c = '.' || c = 'e' || c = 'E')
    && separatesDigits Text.isHexDigit cs

def isInteger : List Char → Bool
  | '0' :: 'x' :: cs => isRadixBody Text.isHexDigit cs
  | '0' :: 'o' :: cs => isRadixBody isOctalDigit cs
  | '0' :: 'b' :: cs => isRadixBody isBinaryDigit cs
  | cs => isDecimalInteger cs

/-- What follows a run of digits and underscores that holds a digit. Where leading zeros are not
admitted, a run of several digits must not begin with one. -/
def afterDigits? (leadingZeros : Bool) (cs : List Char) : Option (List Char) :=
  let run := cs.takeWhile fun c => c.isDigit || c = '_'
  let count := (run.filter Char.isDigit).length
  if count = 0 || (!leadingZeros && 1 < count && run.head? = some '0') then none
  else some (cs.drop run.length)

def afterFraction? : List Char → Option (List Char)
  | '.' :: cs => afterDigits? true cs
  | cs => some cs

def afterExponent? : List Char → Option (List Char)
  | 'e' :: cs | 'E' :: cs => afterDigits? true (Decimal.splitSign cs).2
  | cs => some cs

/-- Whether a word is a number with a fraction, an exponent or both. -/
def isFloat (cs : List Char) : Bool :=
  cs.any (fun c => c = '.' || c = 'e' || c = 'E') && separatesDigits Char.isDigit cs
    && (((afterDigits? false (Decimal.splitSign cs).2).bind afterFraction?).bind afterExponent?).any
      List.isEmpty

/-- Infinity and what is no number, with an optional sign. -/
def isSpecialFloat (cs : List Char) : Bool :=
  let rest := (Decimal.splitSign cs).2
  rest = ['i', 'n', 'f'] || rest = ['n', 'a', 'n']

/-- A number of exactly two digits. -/
def pairOf? (a b : Char) : Option Nat :=
  if a.isDigit && b.isDigit then some (Decimal.magnitude [a, b]) else none

def daysIn (year month : Nat) : Nat :=
  if month = 2 then
    if year % 4 = 0 && (year % 100 ≠ 0 || year % 400 = 0) then 29 else 28
  else if month = 4 || month = 6 || month = 9 || month = 11 then 30 else 31

/-- A date, and what follows it. -/
def date? : List Char → Option (List Char)
  | y₁ :: y₂ :: y₃ :: y₄ :: '-' :: m₁ :: m₂ :: '-' :: d₁ :: d₂ :: rest => do
    let century ← pairOf? y₁ y₂
    let year ← pairOf? y₃ y₄
    let month ← pairOf? m₁ m₂
    let day ← pairOf? d₁ d₂
    if 1 ≤ month && month ≤ 12 && 1 ≤ day && day ≤ daysIn (100 * century + year) month then
      some rest
    else none
  | _ => none

/-- A fraction of a second, if there is one, and what follows it. -/
def fraction? : List Char → Option (List Char)
  | '.' :: cs =>
    let ds := cs.takeWhile Char.isDigit
    if ds.isEmpty then none else some (cs.drop ds.length)
  | cs => some cs

/-- A time of day, with or without seconds, and what follows it. -/
def time? : List Char → Option (List Char)
  | h₁ :: h₂ :: ':' :: m₁ :: m₂ :: rest => do
    let hour ← pairOf? h₁ h₂
    let minute ← pairOf? m₁ m₂
    if 24 ≤ hour || 60 ≤ minute then none
    else
      match rest with
      | ':' :: s₁ :: s₂ :: rest => do
        let second ← pairOf? s₁ s₂
        if 60 < second then none else fraction? rest
      | rest => some rest
  | _ => none

/-- An offset from universal time, to the end of the word. -/
def isOffset : List Char → Bool
  | [] | ['Z'] | ['z'] => true
  | [sign, h₁, h₂, ':', m₁, m₂] =>
    (sign = '+' || sign = '-') && (pairOf? h₁ h₂).any (· < 24) && (pairOf? m₁ m₂).any (· < 60)
  | _ => false

/-- A date, a time of day, or both with an optional offset. -/
def isMoment (cs : List Char) : Bool :=
  match date? cs with
  | some [] => true
  | some (c :: rest) => (c = 'T' || c = 't' || c = ' ') && (time? rest).any isOffset
  | none => time? cs == some []

/-- What ends a word besides a blank: a line end, a comment, or a mark of structure. -/
def wordEnds : List Char := ['=', ',', '[', ']', '\x7b', '\x7d', '#', '\r', '\n']

/-- The characters up to the end of a word, with the blanks among and after them. A quote stands
within a word, but right after a blank it ends the word, since a string begins there. -/
def wordRun (afterBlank : Bool) : List Char → List Char
  | [] => []
  | c :: cs =>
    if isBlank c then c :: wordRun true cs
    else if wordEnds.contains c || (afterBlank && (c = '"' || c = '\'')) then []
    else c :: wordRun false cs

/-- The word at the start. Blanks may stand within it, as between a date and a time of day. -/
def wordOf (cs : List Char) : List Char :=
  ((wordRun false cs).reverse.dropWhile isBlank).reverse

/-- What a word means. A number or a moment is a table with its text as the only member. -/
def meaning? (word : List Char) : Option Document :=
  if word = ['t', 'r', 'u', 'e'] then some (.bool true)
  else if word = ['f', 'a', 'l', 's', 'e'] then some (.bool false)
  else if isInteger word || isFloat word || isSpecialFloat word then
    some (.table [("number", .text (String.ofList word))])
  else if isMoment word then some (.table [("moment", .text (String.ofList word))])
  else none

/-- A value that is a single word, and what follows it. -/
def word? (cs : List Char) : Option (Document × List Char) :=
  let word := wordOf cs
  (meaning? word).map (·, cs.drop word.length)

end PageWatch.Toml
