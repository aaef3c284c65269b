import PageWatch.Host

/-! Fragments: conditions as terms, before an executor renders them in its dialect. -/
namespace PageWatch

/-- What a comparison compares. A literal is `quoted`, and a caller's timestamp is a `moment`,
converted into the stored format before it is quoted. -/
inductive Operand where
  | column (name : String)
  | masked (column : String) (mask : UInt32)
  | number (n : Int)
  | quoted (s : String)
  | moment (t : String)
  deriving DecidableEq

inductive Comparison where
  | eq
  | ne
  | lt
  | le
  | gt
  | ge
  deriving DecidableEq

/-- A condition on one row. `same` is an equality that is written without blanks, `either` and
`both` are lists that the executor joins, `alternative` is a disjunction in plain text, and `host`
is text that a collaborator supplied. -/
inductive Fragment where
  | compare (left : Operand) (op : Comparison) (right : Operand)
  | same (left right : Operand)
  | isNull (column : String)
  | isNotNull (column : String)
  | both (first second : Fragment)
  | either (first second : Fragment)
  | alternative (first second : Fragment)
  | host (text : String)
  deriving DecidableEq

/-- A condition of a select before rendering; `contributed` brings the tables and joins it needs. -/
inductive Term where
  | equals (column : String) (value : Scalar)
  | oneOf (column : String) (values : List Scalar)
  | fragment (f : Fragment)
  | contributed (w : WhereContribution) (negate : Bool)

variable (x : Executor)

def Operand.render : Operand → String
  | column name => name
  | masked name mask => x.bitAnd name mask
  | number n => toString n
  | quoted s => x.quote s
  | moment t => x.quote (x.timestamp t)

def Comparison.symbol : Comparison → String
  | eq => "="
  | ne => "!="
  | lt => "<"
  | le => "<="
  | gt => ">"
  | ge => ">="

def Fragment.render : Fragment → String
  | compare left op right => left.render x ++ " " ++ op.symbol ++ " " ++ right.render x
  | same left right => left.render x ++ "=" ++ right.render x
  | isNull column => column ++ " IS NULL"
  | isNotNull column => column ++ " IS NOT NULL"
  | both first second => x.makeList [first.render, second.render] .and
  | either first second => x.makeList [first.render, second.render] .or
  | alternative first second => first.render ++ " OR " ++ second.render
  | host text => text

/-- The push by which a term enters a select. -/
def Term.push : Term → Push
  | equals column value => .condition (.equals column value)
  | oneOf column values => .condition (.oneOf column values)
  | fragment f => .condition (.expr (f.render x))
  | contributed w negate => .restriction w negate

end PageWatch
