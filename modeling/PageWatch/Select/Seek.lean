import PageWatch.Cursor
import PageWatch.Select.Fragment

/-! Seeks: the rows at or past a position that two columns give, in a sort order. -/
namespace PageWatch

namespace SortOrder

/-- Past a value, in this order. -/
def past : SortOrder → Comparison
  | ascending => .gt
  | descending => .lt

/-- At a value or past it, in this order. -/
def atOrPast : SortOrder → Comparison
  | ascending => .ge
  | descending => .le

def reversed : SortOrder → SortOrder
  | ascending => descending
  | descending => ascending

end SortOrder

/-- A position in an ordering by two columns. -/
structure Position where
  primary : String
  primaryValue : Operand
  secondary : String
  secondaryValue : Operand

/-- Past the position in the first column, or level with it there and at it or past it in the
second one. -/
def Position.seek (p : Position) (order : SortOrder) : Fragment :=
  .either (.compare (.column p.primary) order.past p.primaryValue)
    (.both (.compare (.column p.primary) .eq p.primaryValue)
      (.compare (.column p.secondary) order.atOrPast p.secondaryValue))

/-- Where a cursor points in the change feed. -/
def Cursor.position (c : Cursor) : Position :=
  ⟨"rc_timestamp", .moment c.timestamp, "rc_id", .number c.changeId.toInt⟩

/-- Where a target stands in a watchlist. -/
def Target.position (t : Target) : Position :=
  ⟨"wl_namespace", .number t.namespaceId.toInt, "wl_title", .quoted t.title⟩

end PageWatch
