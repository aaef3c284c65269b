import PageWatch.Change
import PageWatch.Cursor
import PageWatch.Direction
import PageWatch.Watch

/-! Options: requests after validation, in types that admit no malformed member. -/
namespace PageWatch

/-- Bounds in time, both inclusive, in the direction of the walk: it begins at `start`. -/
structure Window where
  start : Option String := none
  stop : Option String := none
  deriving DecidableEq

def Window.isUnbounded (w : Window) : Bool := w.start.isNone && w.stop.isNone

/-- Whose changes to show. -/
inductive AuthorRule where
  | onlyBy (userName : String)
  | notBy (userName : String)
  deriving DecidableEq

namespace AuthorRule

def userName : AuthorRule → String
  | onlyBy name | notBy name => name

def isNegated : AuthorRule → Bool
  | onlyBy _ => false
  | notBy _ => true

end AuthorRule

/-- Whose watchlist to read: the acting user's own, or another one claimed with its token. -/
inductive Scope where
  | own (user : User)
  | claimed (owner : User) (token : String)
  deriving DecidableEq

def Scope.owner : Scope → User
  | own user => user
  | claimed owner _ => owner

/-- Options of the change feed. -/
structure FeedOptions where
  groups : SortedSet FieldGroup := ∅
  namespaces : SortedSet Int32 := ∅
  kinds : SortedSet ChangeKind := ∅
  walk : Option Walk := none
  window : Window := {}
  limit : Option UInt32 := none
  filters : SortedSet ChangeFilter := ∅
  author : Option AuthorRule := none
  scope : Scope
  allRevisions : Bool := false
  forGenerator : Bool := false
  startFrom : Option Cursor := none

/-- Which watched pages to list by their visits. -/
inductive ChangedFilter where
  | changed
  | unchanged
  deriving DecidableEq

namespace ChangedFilter

def name : ChangedFilter → String
  | changed => "changed"
  | unchanged => "!changed"

def names : List (String × ChangedFilter) := [("changed", changed), ("!changed", unchanged)]

def ofName? (s : String) : Option ChangedFilter := names.lookup s

end ChangedFilter

/-- Options of the plain watchlist listing. -/
structure WatchlistOptions where
  namespaces : SortedSet Int32 := ∅
  sort : Option SortOrder := none
  filter : Option ChangedFilter := none
  fromTarget : Option Target := none
  untilTarget : Option Target := none
  startFrom : Option Target := none
  limit : Option UInt32 := none

end PageWatch
