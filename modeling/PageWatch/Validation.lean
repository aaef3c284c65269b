import PageWatch.Failure
import PageWatch.Options
import PageWatch.Request

/-! Validation: a request becomes options, or the first of its faults is reported. -/
namespace PageWatch

/-- A limit on rows: the integer a scalar starts with, clamped into the range of limits; zero when
there is none. -/
def Scalar.toLimit (v : Scalar) : UInt32 := UInt32.ofNatClamp (v.coerceInt.getD 0).toInt.toNat

/-- A namespace number, when it is in range. -/
def namespaceId? (n : Int64) : Option Int32 :=
  if Int32.minValue.toInt ≤ n.toInt ∧ n.toInt ≤ Int32.maxValue.toInt then some n.toInt32 else none

/-- The namespace that a scalar stands for. -/
def Scalar.toNamespace? (v : Scalar) : Option Int32 := v.coerceInt.bind namespaceId?

/-- The namespaces among raw values; what is no namespace number is dropped. -/
def readNamespaces (raw : List Scalar) : SortedSet Int32 :=
  .ofList (raw.filterMap Scalar.toNamespace?)

/-- The kind of changes whose code a scalar is. -/
def Scalar.toKind? (v : Scalar) : Option ChangeKind := v.exactInt.bind ChangeKind.ofCode?

namespace FeedRequest

variable (r : FeedRequest)

def readKind (v : Scalar) : Except ValidationError ChangeKind :=
  match v.toKind? with
  | some k => .ok k
  | none => .error (.unknownKind v)

def readKinds : Except ValidationError (SortedSet ChangeKind) :=
  match r.kinds with
  | some raw => (raw.mapM readKind).map .ofList
  | none => .ok ∅

def readWalk : Except ValidationError (Option Walk) :=
  match r.walk with
  | some s =>
    match Walk.ofName? s with
    | some w => .ok (some w)
    | none => .error .unknownWalk
  | none => .ok none

/-- Bounds and cursors mean something only along a walk. -/
def isPositioned (cursor : Option (List Scalar)) : Bool :=
  r.start.isSome || r.stop.isSome || cursor.isSome

def readCursor : Option (List Scalar) → Except ValidationError (Option Cursor)
  | some raw => ((Cursor.ofRaw raw).map some).mapError .badCursor
  | none => .ok none

/-- An owner and a token belong together; without both, the acting user's own list is read. -/
def readScope (actingUser : User) : Except ValidationError Scope :=
  match r.owner, r.ownerToken with
  | none, none => .ok (.own actingUser)
  | some _, none => .error .ownerWithoutToken
  | none, some _ => .error .tokenWithoutOwner
  | some owner, some token =>
    ((User.read owner).map fun u => Scope.claimed u token).mapError .unreadableOwner

/-- The first filter, in declaration order, whose counterpart is asked for as well. -/
def contradiction? (filters : SortedSet ChangeFilter) : Option ChangeFilter :=
  filters.toList.find? fun f => filters.contains f.counterpart

def readFilters : Except ValidationError (SortedSet ChangeFilter) :=
  let filters := SortedSet.ofList r.filters
  match contradiction? filters with
  | some f => .error (.contradiction f)
  | none => .ok filters

def readAuthor : Except ValidationError (Option AuthorRule) :=
  match r.onlyBy, r.notBy with
  | some _, some _ => .error .twoAuthors
  | some name, none => .ok (some (.onlyBy name))
  | none, some name => .ok (some (.notBy name))
  | none, none => .ok none

/-- Checks a request and the raw cursor that came with it, in a fixed order. -/
def validate (actingUser : User) (cursor : Option (List Scalar)) :
    Except ValidationError FeedOptions := do
  let kinds ← r.readKinds
  let walk ← r.readWalk
  if r.isPositioned cursor && walk.isNone then throw .missingWalk
  let startFrom ← readCursor cursor
  let scope ← r.readScope actingUser
  let filters ← r.readFilters
  let author ← r.readAuthor
  return {
    groups := .ofList r.groups
    namespaces := readNamespaces r.namespaces
    kinds, walk
    window := ⟨r.start, r.stop⟩
    limit := r.limit.map Scalar.toLimit
    filters, author, scope
    allRevisions := r.allRevisions
    forGenerator := r.forGenerator
    startFrom }

end FeedRequest

namespace WatchlistRequest

variable (r : WatchlistRequest)

def readSort : Except ValidationError (Option SortOrder) :=
  match r.sort with
  | some s =>
    match SortOrder.ofName? s with
    | some o => .ok (some o)
    | none => .error .unknownSort
  | none => .ok none

def readFilter : Except ValidationError (Option ChangedFilter) :=
  match r.filter with
  | some s =>
    match ChangedFilter.ofName? s with
    | some f => .ok (some f)
    | none => .error .unknownFilter
  | none => .ok none

/-- Targets bound a listing only in a sort order. -/
def seeks : Bool := r.fromTarget.isSome || r.untilTarget.isSome || r.startFrom.isSome

/-- Checks a request in a fixed order. -/
def validate : Except ValidationError WatchlistOptions := do
  let sort ← r.readSort
  let filter ← r.readFilter
  if r.seeks && sort.isNone then throw .missingSort
  return {
    namespaces := readNamespaces r.namespaces
    sort, filter
    fromTarget := r.fromTarget
    untilTarget := r.untilTarget
    startFrom := r.startFrom
    limit := r.limit.map Scalar.toLimit }

end WatchlistRequest

end PageWatch
