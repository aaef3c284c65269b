import PageWatch.Toml.Table
import PageWatch.Toml.Text
import PageWatch.Toml.Word

/-! TOML: the document that a configuration text stands for. -/
namespace PageWatch.Toml

/-- How deep arrays and tables may be nested in a value. -/
def maxDepth : Nat := 80

mutual

/-- A value and what follows it, at a depth of nesting that is still allowed. -/
def value (depth : Nat) : Nat → List Char → Option (Document × List Char)
  | 0, _ => none
  | fuel + 1, cs =>
    match cs with
    | '[' :: rest =>
      if depth = 0 then none
      else (items (depth - 1) fuel (skipSpace rest)).map fun (ds, rest) => (.list ds, rest)
    | '{' :: rest =>
      if depth = 0 then none
      else (members (depth - 1) fuel [] (skipSpace rest)).map fun (ms, rest) =>
        (.ofMembers (membersToDocuments ms), rest)
    | '"' :: _ | '\'' :: _ => (string? cs).map fun (s, rest) => (.text s, rest)
    | _ => word? cs

/-- The items of an array up to its closing bracket; a comma may follow the last one. -/
def items (depth : Nat) : Nat → List Char → Option (List Document × List Char)
  | 0, _ => none
  | _, ']' :: rest => some ([], rest)
  | fuel + 1, cs => do
    let (d, rest) ← value depth fuel cs
    match skipSpace rest with
    | ',' :: rest => do
      let (ds, rest) ← items depth fuel (skipSpace rest)
      return (d :: ds, rest)
    | ']' :: rest => return ([d], rest)
    | _ => none

/-- The members of a table in braces up to the closing one; a comma may follow the last one. Line
ends and comments may stand on both sides of the equals sign. -/
def members (depth : Nat) : Nat → Members → List Char → Option (Members × List Char)
  | 0, _, _ => none
  | _, ms, '\x7d' :: rest => some (ms, rest)
  | fuel + 1, ms, cs => do
    let (key, rest) ← key? cs
    match skipSpace rest with
    | '=' :: rest => do
      let (d, rest) ← value depth fuel (skipSpace rest)
      let ms ← storeValue d key ms
      match skipSpace rest with
      | ',' :: rest => members depth fuel ms (skipSpace rest)
      | '\x7d' :: rest => return (ms, rest)
      | _ => none
    | _ => none

end

/-- A text that is read line by line: the tables so far, and the header under which keys stand. -/
structure Reading where
  root : Members := []
  header : List String := []

namespace Reading

/-- A key with its value, and what follows the line. -/
def keyLine (r : Reading) (cs : List Char) : Option (Reading × List Char) := do
  let (key, rest) ← key? cs
  match rest with
  | '=' :: rest => do
    let (d, rest) ← value maxDepth (2 * rest.length + 2) (skipBlanks rest)
    let root ← underHeader (storeValue d key) r.header r.root
    let rest ← restOfLine? rest
    return ({ r with root }, rest)
  | _ => none

/-- Makes the table that a header names with `openLast`, and enters it. -/
def enter (r : Reading) (openLast : String → Members → Option Members) (path : List String) :
    Option Reading := do
  let last ← path.getLast?
  let root ← underHeader (openLast last) path.dropLast r.root
  return ⟨root, path⟩

/-- A header line, after its first bracket. -/
def headerLine (r : Reading) : List Char → Option (Reading × List Char)
  | '[' :: cs => do
    let (path, rest) ← key? cs
    match rest with
    | ']' :: ']' :: rest => do
      let r ← r.enter openItem path
      let rest ← restOfLine? rest
      return (r, rest)
    | _ => none
  | cs => do
    let (path, rest) ← key? cs
    match rest with
    | ']' :: rest => do
      let r ← r.enter openTable path
      let rest ← restOfLine? rest
      return (r, rest)
    | _ => none

/-- All lines; each takes at least one character. -/
def lines : Nat → Reading → List Char → Option Reading
  | 0, _, _ => none
  | fuel + 1, r, cs =>
    match skipSpace cs with
    | [] => some r
    | '[' :: rest => do
      let (r, rest) ← r.headerLine rest
      lines fuel r rest
    | rest => do
      let (r, rest) ← r.keyLine rest
      lines fuel r rest

end Reading

/-- The document that a text stands for; a byte order mark before it is skipped. -/
def parse? (s : String) : Option Document :=
  let cs := match s.toList with
    | '\ufeff' :: cs => cs
    | cs => cs
  (Reading.lines (cs.length + 1) {} cs).map fun r => .ofMembers (membersToDocuments r.root)

end PageWatch.Toml
