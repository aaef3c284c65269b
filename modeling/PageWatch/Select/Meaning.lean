import PageWatch.Select.Watchlist

/-! The meaning of selects: which rows satisfy a condition, and what a table answers. -/
namespace PageWatch

/-- The truth of a condition on a row. A comparison with null is unknown. -/
inductive Truth where
  | fails
  | unknown
  | holds
  deriving DecidableEq

namespace Truth

def ofBool : Bool → Truth
  | true => holds
  | false => fails

def not : Truth → Truth
  | fails => holds
  | unknown => unknown
  | holds => fails

def and : Truth → Truth → Truth
  | fails, _ => fails
  | holds, t => t
  | unknown, fails => fails
  | unknown, _ => unknown

def or : Truth → Truth → Truth
  | holds, _ => holds
  | fails, t => t
  | unknown, holds => holds
  | unknown, _ => unknown

variable {t u : Truth}

theorem ofBool_eq_holds_iff {b : Bool} : ofBool b = holds ↔ b = true := by
  cases b <;> simp [ofBool]

theorem not_eq_holds_iff : t.not = holds ↔ t = fails := by cases t <;> simp [not]

theorem and_eq_holds_iff : t.and u = holds ↔ t = holds ∧ u = holds := by
  cases t <;> cases u <;> simp [and]

theorem or_eq_holds_iff : t.or u = holds ↔ t = holds ∨ u = holds := by
  cases t <;> cases u <;> simp [or]

end Truth

/-- The value of a column in a row; a column that the row lacks is null. -/
def Record.cell (r : Row) (column : String) : Scalar := .ofOption (r.get? column)

/-- The bits of an integer that a mask covers. -/
def Scalar.masked (mask : UInt32) : Scalar → Scalar
  | int n => int (n &&& Int64.ofNat mask.toNat)
  | _ => null

/-- Whether two values compare as an operator says, in the order of scalars. -/
def Comparison.test : Comparison → Scalar → Scalar → Bool
  | eq, v, w => v = w
  | ne, v, w => v ≠ w
  | lt, v, w => !w.le v
  | le, v, w => v.le w
  | gt, v, w => !v.le w
  | ge, v, w => w.le v

def Comparison.truth (op : Comparison) : Scalar → Scalar → Truth
  | .null, _ => .unknown
  | _, .null => .unknown
  | v, w => .ofBool (op.test v w)

/-- What the texts of a host mean: which stored value a timestamp becomes, and where the text of a
condition holds. -/
structure Meaning where
  stored : String → Scalar
  truth : String → Row → Truth

section

variable (m : Meaning) (r : Row)

def Operand.value : Operand → Scalar
  | column name => r.cell name
  | masked name mask => (r.cell name).masked mask
  | number n => .int (Int64.ofInt n)
  | quoted s => .text s
  | moment t => m.stored t

def Fragment.truth : Fragment → Truth
  | compare left op right => op.truth (left.value m r) (right.value m r)
  | same left right => Comparison.eq.truth (left.value m r) (right.value m r)
  | isNull column => .ofBool (r.cell column = .null)
  | isNotNull column => .ofBool (r.cell column ≠ .null)
  | both first second => first.truth.and second.truth
  | either first second => first.truth.or second.truth
  | alternative first second => first.truth.or second.truth
  | host text => m.truth text r

/-- A column is one of several values if it equals one of them. -/
def oneOfTruth (column : String) (values : List Scalar) : Truth :=
  values.foldr (fun v t => (Comparison.eq.truth (r.cell column) v).or t) .fails

/-- What a condition says before it is rendered. -/
def Term.truth : Term → Truth
  | equals column value => Comparison.eq.truth (r.cell column) value
  | oneOf column values => oneOfTruth r column values
  | fragment f => f.truth m r
  | contributed w negate => if negate then (m.truth w.condition r).not else m.truth w.condition r

/-- What a condition says as the executor gets it. -/
def Condition.truth : Condition → Truth
  | equals column value => Comparison.eq.truth (r.cell column) value
  | oneOf column values => oneOfTruth r column values
  | expr text => m.truth text r

end

/-- The condition that a term becomes. -/
def Term.condition (x : Executor) : Term → Condition
  | equals column value => .equals column value
  | oneOf column values => .oneOf column values
  | fragment f => .expr (f.render x)
  | contributed w negate => .expr (w.text negate)

/-- An executor renders a term faithfully if the rendered condition says what the term says. -/
def Meaning.Reads (m : Meaning) (x : Executor) (t : Term) : Prop :=
  ∀ r, (t.condition x).truth m r = t.truth m r

/-- Whether one row may stand before another. The first column in which they differ decides. -/
def OrderTerm.le : List OrderTerm → Row → Row → Bool
  | [], _, _ => true
  | t :: ts, r, s =>
    if r.cell t.column = s.cell t.column then le ts r s
    else match t.order with
      | .ascending => (r.cell t.column).le (s.cell t.column)
      | .descending => (s.cell t.column).le (r.cell t.column)

namespace SelectQuery

variable (q : SelectQuery)

/-- A row is accepted if every condition holds; unknown is not enough. -/
def accepts (m : Meaning) (r : Row) : Bool := q.conditions.all fun c => c.truth m r = .holds

def cut (rows : List Row) : List Row :=
  match q.limit with
  | some limit => rows.take limit.toNat
  | none => rows

/-- The accepted rows of a table, sorted and cut to the limit. -/
def answer (m : Meaning) (table : List Row) : List Row :=
  q.cut ((table.filter (q.accepts m)).mergeSort (OrderTerm.le q.orderBy))

theorem accepts_eq_true_iff {m : Meaning} {r : Row} :
    q.accepts m r = true ↔ ∀ c ∈ q.conditions, c.truth m r = .holds := by
  simp [accepts]

end SelectQuery

/-- The executor answers every select from one table, by the meaning of its conditions. -/
def Executor.Answers (x : Executor) (m : Meaning) (table : List Row) : Prop :=
  ∀ q, x.select q = .ok (q.answer m table)

end PageWatch
