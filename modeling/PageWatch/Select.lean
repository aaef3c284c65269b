import PageWatch.Direction

/-! Selects: the one value that is compiled for a call, rewritten by extensions and executed. -/
namespace PageWatch

/-- A table, and the alias that is the key by which the select addresses it. -/
structure TableRef where
  key : String
  name : String
  deriving DecidableEq

/-- A table addressed by its own name. -/
def TableRef.named (name : String) : TableRef := ⟨name, name⟩

/-- An output column, with the expression it is read through unless that is its own name. -/
structure SelectField where
  name : String
  expr : Option String
  deriving DecidableEq

/-- A column read under its own name. -/
def SelectField.column (name : String) : SelectField := ⟨name, none⟩

inductive JoinKind where
  | inner
  | left
  deriving DecidableEq

def JoinKind.name : JoinKind → String
  | inner => "JOIN"
  | left => "LEFT JOIN"

/-- The join of one aliased table; all fragments of `on` must hold. -/
structure JoinClause where
  table : String
  kind : JoinKind
  on : List String
  deriving DecidableEq

/-- A condition on the rows of a select. Structured ones leave literals to the executor. -/
inductive Condition where
  | equals (column : String) (value : Scalar)
  | oneOf (column : String) (values : List Scalar)
  | expr (fragment : String)
  deriving DecidableEq

structure OrderTerm where
  column : String
  order : SortOrder
  deriving DecidableEq

/-- A compiled select. A row must satisfy every condition; `extra` holds flags that extensions add
and nothing here reads. -/
structure SelectQuery where
  caller : String
  tables : List TableRef := []
  fields : List SelectField := []
  conditions : List Condition := []
  orderBy : List OrderTerm := []
  limit : Option UInt32 := none
  extra : List String := []
  joins : List JoinClause := []
  deriving DecidableEq

/-- The tables, fields and joins by which a collaborator exposes one logical column. -/
structure JoinContribution where
  tables : List TableRef := []
  fields : List SelectField := []
  joins : List JoinClause := []
  deriving DecidableEq

/-- The field that a contribution offers under an output name. -/
def JoinContribution.field? (c : JoinContribution) (name : String) : Option SelectField :=
  c.fields.find? fun f => f.name == name

/-- A condition with the tables and joins that it depends on. -/
structure WhereContribution where
  tables : List TableRef := []
  condition : String := ""
  joins : List JoinClause := []
  deriving DecidableEq

/-- The text of the condition, or of its negation. -/
def WhereContribution.text (w : WhereContribution) (negate : Bool) : String :=
  if negate then "NOT(" ++ w.condition ++ ")" else w.condition

namespace SelectQuery

variable (q : SelectQuery)

def hasTable (key : String) : Bool := q.tables.any fun t => t.key == key

def hasField (name : String) : Bool := q.fields.any fun f => f.name == name

/-- Whether a table is joined, by the alias that its clause names. -/
def hasJoin (table : String) : Bool := q.joins.any fun j => j.table == table

def fieldNames : List String := q.fields.map (·.name)

/-- Adds a table unless its alias is taken. -/
def pushTable (t : TableRef) : SelectQuery :=
  if q.hasTable t.key then q else { q with tables := q.tables ++ [t] }

/-- Adds a field unless its output name is taken. -/
def pushField (f : SelectField) : SelectQuery :=
  if q.hasField f.name then q else { q with fields := q.fields ++ [f] }

/-- Adds a join unless its table is joined already. -/
def pushJoin (j : JoinClause) : SelectQuery :=
  if q.hasJoin j.table then q else { q with joins := q.joins ++ [j] }

def pushCondition (c : Condition) : SelectQuery := { q with conditions := q.conditions ++ [c] }

/-- Adds a collaborator's tables and joins; which of its fields are read is decided elsewhere. -/
def mergeJoin (c : JoinContribution) : SelectQuery :=
  c.joins.foldl pushJoin (c.tables.foldl pushTable q)

/-- Adds a collaborator's condition, negated or not, after what it depends on. -/
def mergeWhere (w : WhereContribution) (negate : Bool) : SelectQuery :=
  (w.joins.foldl pushJoin (w.tables.foldl pushTable q)).pushCondition (.expr (w.text negate))

end SelectQuery

/-- One step by which a select grows. Nothing that was pushed before is removed or changed. -/
inductive Push where
  | table (t : TableRef)
  | field (f : SelectField)
  | join (j : JoinClause)
  | condition (c : Condition)
  | contribution (c : JoinContribution)
  | restriction (w : WhereContribution) (negate : Bool)

namespace SelectQuery

def push (q : SelectQuery) : Push → SelectQuery
  | .table t => q.pushTable t
  | .field f => q.pushField f
  | .join j => q.pushJoin j
  | .condition c => q.pushCondition c
  | .contribution c => q.mergeJoin c
  | .restriction w negate => q.mergeWhere w negate

/-- A select grown by pushes, in their order. -/
def pushAll (q : SelectQuery) (ps : List Push) : SelectQuery := ps.foldl push q

theorem pushAll_append (q : SelectQuery) (ps qs : List Push) :
    q.pushAll (ps ++ qs) = (q.pushAll ps).pushAll qs := List.foldl_append

end SelectQuery

end PageWatch
