import PageWatch.Document
import PageWatch.Record

/-! Reading values from documents, and the causes for which a document is refused. -/
namespace PageWatch

/-- Why a document was refused. -/
inductive ReadError where
  | wrongKind (found : Document) (expected : String)
  | outOfRange (found : Int) (expected : String)
  | tooShort (length : Nat) (expected : String)
  | tooLong (length : Nat)
  | unknownMember (name : String) (known : List String)
  | missingMember (name : String)
  | unknownChoice (name : String) (known : List String)
  | manyMembers
  | notScalar

namespace ReadError

/-- The admitted names as messages list them. -/
def oneOf (names : List String) : String :=
  match names.map fun n => "`" ++ n ++ "`" with
  | [a] => a
  | [a, b] => a ++ " or " ++ b
  | all => "one of " ++ ", ".intercalate all

def message : ReadError → String
  | wrongKind found expected => "invalid type: " ++ found.describe ++ ", expected " ++ expected
  | outOfRange n expected => s!"invalid value: integer `{n}`, expected {expected}"
  | tooShort n expected => s!"invalid length {n}, expected {expected}"
  | tooLong n => s!"invalid length {n}, expected fewer elements in array"
  | unknownMember name known => s!"unknown field `{name}`, expected " ++ oneOf known
  | missingMember name => s!"missing field `{name}`"
  | unknownChoice name known => s!"unknown variant `{name}`, expected " ++ oneOf known
  | manyMembers => "invalid value: map, expected map with a single key"
  | notScalar => "data did not match any variant of untagged enum Value"

end ReadError

/-- A way to read an `α` from a document. -/
abbrev Reader (α : Type) := Document → Except ReadError α

namespace Reader

variable {α β : Type}

def text : Reader String
  | .text s => .ok s
  | d => .error (.wrongKind d "a string")

def bool : Reader Bool
  | .bool b => .ok b
  | d => .error (.wrongKind d "a boolean")

/-- An integer between two bounds; `name` is what messages call their range. -/
def integer (name : String) (low high : Int) : Reader Int
  | .int n => if low ≤ n ∧ n ≤ high then .ok n else .error (.outOfRange n name)
  | d => .error (.wrongKind d name)

def uint64 : Reader UInt64 := fun d =>
  (integer "u64" 0 (UInt64.size - 1) d).map fun n => UInt64.ofNat n.toNat

def uint32 : Reader UInt32 := fun d =>
  (integer "u32" 0 (UInt32.size - 1) d).map fun n => UInt32.ofNat n.toNat

def int64 : Reader Int64 := fun d =>
  (integer "i64" Int64.minValue.toInt Int64.maxValue.toInt d).map Int64.ofInt

def int32 : Reader Int32 := fun d =>
  (integer "i32" Int32.minValue.toInt Int32.maxValue.toInt d).map Int32.ofInt

/-- Null reads as nothing. -/
def option (read : Reader α) : Reader (Option α)
  | .null => .ok none
  | d => (read d).map some

/-- The first item that is refused refuses the list. -/
def list (read : Reader α) : Reader (List α)
  | .list ds => ds.mapM read
  | d => .error (.wrongKind d "a sequence")

/-- A list of exactly two items. -/
def pair (first : Reader α) (second : Reader β) : Reader (α × β)
  | .list [] => .error (.tooShort 0 "a tuple of size 2")
  | .list [a] => do
    let _ ← first a
    .error (.tooShort 1 "a tuple of size 2")
  | .list (a :: b :: rest) => do
    let x ← first a
    let y ← second b
    if rest.isEmpty then .ok (x, y) else .error (.tooLong (rest.length + 2))
  | d => .error (.wrongKind d "a tuple of size 2")

/-- The value that a name stands for. -/
def named (choices : List (String × α)) (name : String) : Except ReadError α :=
  match choices.lookup name with
  | some a => .ok a
  | none => .error (.unknownChoice name (choices.map (·.1)))

/-- One of finitely many names, given as text or as the only member of a table, with null as its
value. The name is looked at before the value. -/
def choice (choices : List (String × α)) : Reader α
  | .text name => named choices name
  | .table [(name, value)] => do
    let a ← named choices name
    match value with
    | .null => .ok a
    | d => .error (.wrongKind d "unit")
  | .table _ => .error .manyMembers
  | d => .error (.wrongKind d "string or map")

/-- Any document. -/
def any : Reader Document := .ok

/-- Null, an integer of 64 bits, or text. -/
def scalar : Reader Scalar
  | .null => .ok .null
  | .int n =>
    match Scalar.int64? n with
    | some i => .ok (.int i)
    | none => .error .notScalar
  | .text s => .ok (.text s)
  | _ => .error .notScalar

/-- A table of scalars. -/
def record : Reader Record
  | .table members => Record.ofList <$> members.mapM fun (k, d) => (k, ·) <$> scalar d
  | d => .error (.wrongKind d "a map")

end Reader

def Scalar.toDocument : Scalar → Document
  | .null => .null
  | .int n => .int n.toInt
  | .text s => .text s

def Record.toDocument (r : Record) : Document :=
  .table (r.entries.map fun e => (e.1, e.2.toDocument))

end PageWatch
