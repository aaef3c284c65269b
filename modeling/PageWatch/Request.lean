import PageWatch.Change
import PageWatch.Direction
import PageWatch.Watch

/-! Requests: what callers ask for, as received and before any check. -/
namespace PageWatch

/-- A request for changes. Loosely typed members are read tolerantly when it is validated. -/
structure FeedRequest where
  groups : List FieldGroup := []
  namespaces : List Scalar := []
  kinds : Option (List Scalar) := none
  walk : Option String := none
  start : Option String := none
  stop : Option String := none
  limit : Option Scalar := none
  filters : List ChangeFilter := []
  onlyBy : Option String := none
  notBy : Option String := none
  owner : Option Document := none
  ownerToken : Option String := none
  allRevisions : Bool := false
  forGenerator : Bool := false

namespace FeedRequest

instance : Inhabited FeedRequest := ⟨{}⟩

open Reader in
/-- Every member may be missing, none may be unknown. -/
def shape : Shape FeedRequest where
  label := "ChangeFeedRequest"
  members := [
    .optional "includeFields" (list FieldGroup.read) fun r groups => { r with groups },
    .optional "namespaceIds" (list scalar) fun r namespaces => { r with namespaces },
    .optional "rcTypes" (option (list scalar)) fun r kinds => { r with kinds },
    .optional "dir" (option text) fun r walk => { r with walk },
    .optional "start" (option text) fun r start => { r with start },
    .optional "end" (option text) fun r stop => { r with stop },
    .optional "limit" (option scalar) fun r limit => { r with limit },
    .optional "filters" (list ChangeFilter.read) fun r filters => { r with filters },
    .optional "onlyByUser" (option text) fun r onlyBy => { r with onlyBy },
    .optional "notByUser" (option text) fun r notBy => { r with notBy },
    .optional "watchlistOwner" (option any) fun r owner => { r with owner },
    .optional "watchlistOwnerToken" (option text) fun r ownerToken => { r with ownerToken },
    .optional "allRevisions" bool fun r allRevisions => { r with allRevisions },
    .optional "usedInGenerator" bool fun r forGenerator => { r with forGenerator }]
  blank := {}
  closed := true
  padded := true

def read : Reader FeedRequest := shape.read

def toDocument (r : FeedRequest) : Document :=
  .table [
    ("allRevisions", .bool r.allRevisions),
    ("dir", .ofOption .text r.walk),
    ("end", .ofOption .text r.stop),
    ("filters", .ofList ChangeFilter.toDocument r.filters),
    ("includeFields", .ofList FieldGroup.toDocument r.groups),
    ("limit", .ofOption Scalar.toDocument r.limit),
    ("namespaceIds", .ofList Scalar.toDocument r.namespaces),
    ("notByUser", .ofOption .text r.notBy),
    ("onlyByUser", .ofOption .text r.onlyBy),
    ("rcTypes", .ofOption (.ofList Scalar.toDocument) r.kinds),
    ("start", .ofOption .text r.start),
    ("usedInGenerator", .bool r.forGenerator),
    ("watchlistOwner", r.owner.getD .null),
    ("watchlistOwnerToken", .ofOption .text r.ownerToken)]

/-- One thing that a caller asks for while putting a request together. -/
inductive Setting where
  | group (g : FieldGroup)
  | namespaces (values : List Scalar)
  | kinds (values : List Scalar)
  | walk (w : Walk)
  | start (timestamp : String)
  | stop (timestamp : String)
  | limit (value : Scalar)
  | filter (f : ChangeFilter)
  | onlyBy (userName : String)
  | notBy (userName : String)
  | owner (user : User) (token : String)
  | allRevisions
  | forGenerator

/-- Groups and filters accumulate; any other setting replaces the one before it. -/
def set (r : FeedRequest) : Setting → FeedRequest
  | .group g => { r with groups := r.groups ++ [g] }
  | .namespaces values => { r with namespaces := values }
  | .kinds values => { r with kinds := some values }
  | .walk w => { r with walk := some w.name }
  | .start t => { r with start := some t }
  | .stop t => { r with stop := some t }
  | .limit value => { r with limit := some value }
  | .filter f => { r with filters := r.filters ++ [f] }
  | .onlyBy name => { r with onlyBy := some name }
  | .notBy name => { r with notBy := some name }
  | .owner user token => { r with owner := some user.toDocument, ownerToken := some token }
  | .allRevisions => { r with allRevisions := true }
  | .forGenerator => { r with forGenerator := true }

/-- The request that a sequence of settings puts together. -/
def ofSettings (settings : List Setting) : FeedRequest := settings.foldl set {}

end FeedRequest

/-- A request for the plain listing of a watchlist. -/
structure WatchlistRequest where
  namespaces : List Scalar := []
  sort : Option String := none
  filter : Option String := none
  fromTarget : Option Target := none
  untilTarget : Option Target := none
  startFrom : Option Target := none
  limit : Option Scalar := none
  deriving DecidableEq

namespace WatchlistRequest

instance : Inhabited WatchlistRequest := ⟨{}⟩

open Reader in
/-- Every member may be missing, none may be unknown. -/
def shape : Shape WatchlistRequest where
  label := "WatchlistRequest"
  members := [
    .optional "namespaceIds" (list scalar) fun r namespaces => { r with namespaces },
    .optional "sort" (option text) fun r sort => { r with sort },
    .optional "filter" (option text) fun r filter => { r with filter },
    .optional "from" (option Target.read) fun r fromTarget => { r with fromTarget },
    .optional "until" (option Target.read) fun r untilTarget => { r with untilTarget },
    .optional "startFrom" (option Target.read) fun r startFrom => { r with startFrom },
    .optional "limit" (option scalar) fun r limit => { r with limit }]
  blank := {}
  closed := true
  padded := true

def read : Reader WatchlistRequest := shape.read

def toDocument (r : WatchlistRequest) : Document :=
  .table [
    ("filter", .ofOption .text r.filter),
    ("from", .ofOption Target.toDocument r.fromTarget),
    ("limit", .ofOption Scalar.toDocument r.limit),
    ("namespaceIds", .ofList Scalar.toDocument r.namespaces),
    ("sort", .ofOption .text r.sort),
    ("startFrom", .ofOption Target.toDocument r.startFrom),
    ("until", .ofOption Target.toDocument r.untilTarget)]

/-- One thing that a caller asks for while putting a request together. -/
inductive Setting where
  | namespaces (values : List Scalar)
  | sort (order : SortOrder)
  | filter (name : String)
  | fromTarget (t : Target)
  | untilTarget (t : Target)
  | startFrom (t : Target)
  | limit (value : Scalar)

/-- A setting replaces the one of its kind before it. -/
def set (r : WatchlistRequest) : Setting → WatchlistRequest
  | .namespaces values => { r with namespaces := values }
  | .sort order => { r with sort := some order.name }
  | .filter name => { r with filter := some name }
  | .fromTarget t => { r with fromTarget := some t }
  | .untilTarget t => { r with untilTarget := some t }
  | .startFrom t => { r with startFrom := some t }
  | .limit value => { r with limit := some value }

/-- The request that a sequence of settings puts together. -/
def ofSettings (settings : List Setting) : WatchlistRequest := settings.foldl set {}

end WatchlistRequest

end PageWatch
