import PageWatch.Select.Feed

/-! The select of the plain watchlist listing. -/
namespace PageWatch.WatchlistOptions

variable (o : WatchlistOptions)

def namespaceTerms : List Term :=
  if o.namespaces.isEmpty then []
  else [.oneOf "wl_namespace" (o.namespaces.toList.map Scalar.ofInt32)]

def filterTerms : List Term :=
  match o.filter with
  | some .changed => [.fragment (.isNotNull "wl_notificationtimestamp")]
  | some .unchanged => [.fragment (.isNull "wl_notificationtimestamp")]
  | none => []

/-- The listing begins at the first and the third target and ends at the second one. Without a
sort order targets have no meaning and no effect. -/
def seekTerms : List Term :=
  match o.sort with
  | some sort =>
    let seek (order : SortOrder) (t : Target) : Term := .fragment (t.position.seek order)
    (o.fromTarget.map (seek sort)).toList ++ (o.untilTarget.map (seek sort.reversed)).toList
      ++ (o.startFrom.map (seek sort)).toList
  | none => []

/-- All conditions, in the order in which they enter the select. -/
def terms (owner : Int64) : List Term :=
  .equals "wl_user" (.int owner) :: o.namespaceTerms ++ o.filterTerms ++ o.seekTerms

/-- Both columns of a position are sorted the same way. -/
def orderBy : List OrderTerm :=
  match o.sort with
  | some sort => [⟨"wl_namespace", sort⟩, ⟨"wl_title", sort⟩]
  | none => []

def columns : List String := ["wl_namespace", "wl_title", "wl_notificationtimestamp"]

/-- The select of an owner's watchlist; only the owner's id can stand in its way. -/
def select (x : Executor) (config : SelectConfig) (ownerId : UInt64) :
    Except ContractError SelectQuery := do
  let owner ← storedOwner ownerId
  let start : SelectQuery := { caller := config.caller, orderBy := o.orderBy, limit := o.limit }
  return start.pushAll (.table (.named "watchlist")
    :: columns.map (fun name => .field (.column name)) ++ (o.terms owner).map (Term.push x))

/-- Compiles the select and notes its size. -/
def compile (x : Executor) (config : SelectConfig) (ownerId : UInt64) :
    Outcome ContractError SelectQuery := do
  let q ← .ofExcept (o.select x config ownerId)
  .emit .render
  .log (.watchlistCompiled q.conditions.length q.limit)
  return q

end PageWatch.WatchlistOptions
