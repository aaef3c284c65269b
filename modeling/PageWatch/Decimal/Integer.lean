import PageWatch.Text.Blank

/-! Decimal integers in text: one tolerant reading and one strict one. -/
namespace PageWatch.Decimal

/-- The number that a run of ASCII digits writes. -/
def magnitude (digits : List Char) : Nat :=
  digits.foldl (fun n d => 10 * n + (d.toNat - '0'.toNat)) 0

/-- An optional sign, and what follows it; `true` is minus. -/
def splitSign : List Char → Bool × List Char
  | '-' :: cs => (true, cs)
  | '+' :: cs => (false, cs)
  | cs => (false, cs)

def signed (negative : Bool) (n : Nat) : Int := if negative then -n else n

/-- The integer a text starts with after its leading white space: an optional sign and the longest
run of ASCII digits. Whatever follows the run is ignored; without a digit there is no integer. -/
def leadingInt? (cs : List Char) : Option Int :=
  let (negative, rest) := splitSign (Text.trimStart cs)
  match rest.takeWhile Char.isDigit with
  | [] => none
  | digits => some (signed negative (magnitude digits))

/-- The integer that a text between white space is, as a whole. -/
def wholeInt? (cs : List Char) : Option Int :=
  let (negative, rest) := splitSign (Text.trim cs)
  if !rest.isEmpty && rest.all Char.isDigit then some (signed negative (magnitude rest)) else none

end PageWatch.Decimal
