import PageWatch.Text.Hexadecimal

/-! The lexical part of TOML: blanks, comments, line ends, strings and keys. -/
namespace PageWatch.Toml

def isBlank (c : Char) : Bool := c = ' ' || c = '\t'

def skipBlanks (cs : List Char) : List Char := cs.dropWhile isBlank

/-- Text must not hold control characters other than the tab. -/
def isTextChar (c : Char) : Bool := c = '\t' || (' ' ≤ c && c ≠ '\x7f')

/-- What follows a line end, which is a line feed with or without a carriage return before it. -/
def lineEnd? : List Char → Option (List Char)
  | '\n' :: cs => some cs
  | '\r' :: '\n' :: cs => some cs
  | _ => none

theorem length_of_lineEnd? {cs next : List Char} (h : lineEnd? cs = some next) :
    next.length < cs.length := by
  unfold lineEnd? at h
  split at h
  · cases h
    exact Nat.lt_succ_self _
  · cases h
    exact Nat.lt_succ_of_lt (Nat.lt_succ_self _)
  · cases h

theorem length_skipBlanks (cs : List Char) : (skipBlanks cs).length ≤ cs.length :=
  (List.dropWhile_suffix isBlank).length_le

def skipComment : List Char → List Char
  | '#' :: cs => cs.dropWhile isTextChar
  | cs => cs

theorem length_skipComment (cs : List Char) : (skipComment cs).length ≤ cs.length := by
  unfold skipComment
  split
  · exact Nat.le_succ_of_le (List.dropWhile_suffix isTextChar).length_le
  · exact Nat.le_refl _

/-- What follows the rest of a line on which nothing but a comment may stand. -/
def restOfLine? (cs : List Char) : Option (List Char) :=
  match skipComment (skipBlanks cs) with
  | [] => some []
  | rest => lineEnd? rest

/-- Skips blanks, comments and line ends. -/
def skipSpace (cs : List Char) : List Char :=
  match _h : lineEnd? (skipComment (skipBlanks cs)) with
  | some next => skipSpace next
  | none => skipComment (skipBlanks cs)
termination_by cs.length
decreasing_by
  have := length_of_lineEnd? _h
  have := length_skipComment (skipBlanks cs)
  have := length_skipBlanks cs
  omega

/-- The character whose code point some hexadecimal digits give. -/
def charOfHex? (digits : List Char) : Option Char := do
  let n ← Text.hexValue? digits
  if n.isValidChar then some (Char.ofNat n) else none

def shortEscape? : Char → Option Char
  | 'b' => some '\x08'
  | 't' => some '\t'
  | 'n' => some '\n'
  | 'f' => some '\x0c'
  | 'r' => some '\r'
  | 'e' => some '\x1b'
  | '"' => some '"'
  | '\\' => some '\\'
  | _ => none

/-- The character of an escape, after its backslash, and what follows it. -/
def escape? : List Char → Option (Char × List Char)
  | 'x' :: cs => hex 2 cs
  | 'u' :: cs => hex 4 cs
  | 'U' :: cs => hex 8 cs
  | c :: cs => (shortEscape? c).map (·, cs)
  | [] => none
where
  hex (n : Nat) (cs : List Char) : Option (Char × List Char) :=
    if n ≤ cs.length then (charOfHex? (cs.take n)).map (·, cs.drop n) else none

/-- The body of a string in double quotes on one line, and what follows the closing quote. -/
def basicBody : Nat → List Char → Option (List Char × List Char)
  | 0, _ => none
  | _, [] => none
  | _, '"' :: cs => some ([], cs)
  | fuel + 1, '\\' :: cs => do
    let (c, rest) ← escape? cs
    let (body, rest) ← basicBody fuel rest
    return (c :: body, rest)
  | fuel + 1, c :: cs =>
    if isTextChar c then do
      let (body, rest) ← basicBody fuel cs
      return (c :: body, rest)
    else none

/-- The body of a string in single quotes on one line. -/
def literalBody (cs : List Char) : Option (List Char × List Char) :=
  let body := cs.takeWhile fun c => c != '\'' && isTextChar c
  match cs.drop body.length with
  | '\'' :: rest => some (body, rest)
  | _ => none

/-- The end of a string in triple quotes: up to two more quotes still belong to the body. -/
def closing? (quote : Char) (cs : List Char) : Option (List Char × List Char) :=
  let run := (cs.takeWhile (· == quote)).length
  if 3 ≤ run then some (List.replicate (min run 5 - 3) quote, cs.drop (min run 5)) else none

/-- Skips line ends with the blanks before and after them. -/
def skipLineEnds (cs : List Char) : List Char :=
  match _h : lineEnd? (skipBlanks cs) with
  | some next => skipLineEnds next
  | none => skipBlanks cs
termination_by cs.length
decreasing_by
  have := length_of_lineEnd? _h
  have := length_skipBlanks cs
  omega

/-- What follows a backslash that ends a line, up to the next character that is no space. -/
def continuation? (cs : List Char) : Option (List Char) :=
  (lineEnd? (skipBlanks cs)).map skipLineEnds

/-- The body of a string over several lines. Line ends stay as they are; escapes are read only
between double quotes. -/
def multilineBody (quote : Char) : Nat → List Char → Option (List Char × List Char)
  | 0, _ => none
  | _, [] => none
  | fuel + 1, c :: cs =>
    match closing? quote (c :: cs) with
    | some closed => some closed
    | none =>
      if c = '\\' && quote = '"' then
        match continuation? cs with
        | some rest => multilineBody quote fuel rest
        | none => do
          let (c, rest) ← escape? cs
          let (body, rest) ← multilineBody quote fuel rest
          return (c :: body, rest)
      else if isTextChar c || (lineEnd? (c :: cs)).isSome then do
        let (body, rest) ← multilineBody quote fuel cs
        return (c :: body, rest)
      else none

/-- A line end right after the opening quotes is not part of the string. -/
def multiline (quote : Char) (cs : List Char) : Option (List Char × List Char) :=
  let body := (lineEnd? cs).getD cs
  multilineBody quote (body.length + 1) body

def basic (cs : List Char) : Option (List Char × List Char) := basicBody (cs.length + 1) cs

/-- A string value of any of the four forms. -/
def string? : List Char → Option (String × List Char)
  | '"' :: '"' :: '"' :: cs => (multiline '"' cs).map toText
  | '\'' :: '\'' :: '\'' :: cs => (multiline '\'' cs).map toText
  | '"' :: cs => (basic cs).map toText
  | '\'' :: cs => (literalBody cs).map toText
  | _ => none
where
  toText (r : List Char × List Char) : String × List Char := (String.ofList r.1, r.2)

def isKeyChar (c : Char) : Bool := c.isAlphanum || c = '_' || c = '-'

/-- One part of a key: a quoted string on one line, or a word. -/
def keyPart? : List Char → Option (String × List Char)
  | '"' :: cs => (basic cs).map fun r => (String.ofList r.1, r.2)
  | '\'' :: cs => (literalBody cs).map fun r => (String.ofList r.1, r.2)
  | cs =>
    let word := cs.takeWhile isKeyChar
    if word.isEmpty then none else some (String.ofList word, cs.drop word.length)

/-- A dotted key and what follows it and the blanks after it. -/
def keyParts : Nat → List Char → Option (List String × List Char)
  | 0, _ => none
  | fuel + 1, cs => do
    let (part, rest) ← keyPart? (skipBlanks cs)
    match skipBlanks rest with
    | '.' :: rest => do
      let (parts, rest) ← keyParts fuel rest
      return (part :: parts, rest)
    | rest => return ([part], rest)

/-- How many parts a dotted key may have. -/
def maxKeyParts : Nat := 80

def key? (cs : List Char) : Option (List String × List Char) := do
  let (parts, rest) ← keyParts (cs.length + 1) cs
  if parts.length ≤ maxKeyParts then some (parts, rest) else none

end PageWatch.Toml
