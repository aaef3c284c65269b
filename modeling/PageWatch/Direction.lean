import PageWatch.Document.Reader

/-! The two directions of an ordering, and the two ways to walk through the change feed. -/
namespace PageWatch

/-- The direction in which one column is sorted. -/
inductive SortOrder where
  | ascending
  | descending
  deriving DecidableEq

namespace SortOrder

instance : Inhabited SortOrder := ⟨ascending⟩

def name : SortOrder → String
  | ascending => "ASC"
  | descending => "DESC"

def names : List (String × SortOrder) := [("ASC", ascending), ("DESC", descending)]

def ofName? (s : String) : Option SortOrder := names.lookup s

def read : Reader SortOrder := Reader.choice names

def toDocument (o : SortOrder) : Document := .text o.name

theorem ofName?_eq_some_iff {s : String} {o : SortOrder} : ofName? s = some o ↔ s = o.name := by
  cases o <;> simp only [ofName?, names, name, List.lookup_cons, List.lookup_nil] <;> grind

end SortOrder

/-- The direction in time of a walk through the change feed: `older` goes from the newest change
to the oldest. -/
inductive Walk where
  | older
  | newer
  deriving DecidableEq

namespace Walk

def name : Walk → String
  | older => "older"
  | newer => "newer"

def names : List (String × Walk) := [("older", older), ("newer", newer)]

def ofName? (s : String) : Option Walk := names.lookup s

def read : Reader Walk := Reader.choice names

def toDocument (w : Walk) : Document := .text w.name

/-- The order of every column the feed is sorted by. -/
def sortOrder : Walk → SortOrder
  | older => .descending
  | newer => .ascending

theorem ofName?_eq_some_iff {s : String} {w : Walk} : ofName? s = some w ↔ s = w.name := by
  cases w <;> simp only [ofName?, names, name, List.lookup_cons, List.lookup_nil] <;> grind

end Walk

end PageWatch
