import PageWatch.Select

/-! Edits: single changes to a select, as scripts of extensions list them. -/
namespace PageWatch

/-- A change to a select: a push, or one that only extensions make. -/
inductive SelectEdit where
  | push (p : Push)
  | limit (n : Option UInt32)
  | order (t : OrderTerm)
  | extra (flag : String)
  | caller (label : String)
  | clearConditions

def SelectQuery.edit (q : SelectQuery) : SelectEdit → SelectQuery
  | .push p => q.push p
  | .limit n => { q with limit := n }
  | .order t => { q with orderBy := q.orderBy ++ [t] }
  | .extra flag => { q with extra := q.extra ++ [flag] }
  | .caller label => { q with caller := label }
  | .clearConditions => { q with conditions := [] }

/-- A question about a select. -/
inductive SelectProbe where
  | hasTable (key : String)
  | hasField (name : String)
  | fieldNames

/-- What a probe finds. -/
inductive ProbeResult where
  | flag (b : Bool)
  | names (ns : List String)

def SelectQuery.probe (q : SelectQuery) : SelectProbe → ProbeResult
  | .hasTable key => .flag (q.hasTable key)
  | .hasField name => .flag (q.hasField name)
  | .fieldNames => .names q.fieldNames

end PageWatch
