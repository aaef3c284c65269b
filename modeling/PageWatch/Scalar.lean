import PageWatch.Decimal.Integer

/-! Scalars: the cells of rows, the members of raw cursors and the loosely typed request values. -/
namespace PageWatch

/-- A cell of a result row, or a raw value given by a caller. -/
inductive Scalar where
  | null
  | int (n : Int64)
  | text (s : String)
  deriving DecidableEq

namespace Scalar

instance : Inhabited Scalar := ⟨null⟩

def ofInt32 (n : Int32) : Scalar := int n.toInt64

def ofUInt32 (n : UInt32) : Scalar := int (Int64.ofNat n.toNat)

/-- A missing value is null. -/
def ofOption : Option Scalar → Scalar
  | some v => v
  | none => null

/-- The tolerant integer view: text counts as the integer it starts with, and a number outside
the 64 bit range is clamped into it. -/
def coerceInt : Scalar → Option Int64
  | null => none
  | int n => some n
  | text s => (Decimal.leadingInt? s.toList).map Int64.ofIntClamp

/-- An integer of the 64 bit range, or nothing. -/
def int64? (n : Int) : Option Int64 :=
  if Int64.minValue.toInt ≤ n ∧ n ≤ Int64.maxValue.toInt then some (Int64.ofInt n) else none

/-- The strict integer view: text counts when all of it is one integer of the 64 bit range. -/
def exactInt : Scalar → Option Int64
  | null => none
  | int n => some n
  | text s => (Decimal.wholeInt? s.toList).bind int64?

/-- The text of a scalar, which null does not have. -/
def render : Scalar → Option String
  | null => none
  | int n => some (toString n.toInt)
  | text s => some s

/-- The text by which messages show a scalar. -/
def display (v : Scalar) : String := v.render.getD "NULL"

/-- Null comes before integers and integers before text; text is ordered by code points. -/
def le : Scalar → Scalar → Bool
  | null, _ => true
  | int _, null => false
  | int m, int n => m ≤ n
  | int _, text _ => true
  | text _, null => false
  | text _, int _ => false
  | text s, text t => s ≤ t

theorem render_eq_none_iff {v : Scalar} : v.render = none ↔ v = null := by
  cases v <;> simp [render]

theorem coerceInt_int (n : Int64) : (int n).coerceInt = some n := rfl

theorem exactInt_int (n : Int64) : (int n).exactInt = some n := rfl

theorem le_total (v w : Scalar) : v.le w || w.le v := by
  cases v <;> cases w <;> simp [le, Int64.le_total, String.le_total]

theorem le_trans {u v w : Scalar} (huv : u.le v) (hvw : v.le w) : u.le w := by
  cases u <;> cases v <;> cases w <;> simp_all [le]
  · exact Int64.le_trans huv hvw
  · exact String.le_trans huv hvw

end Scalar

end PageWatch
