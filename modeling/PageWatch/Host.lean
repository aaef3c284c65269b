import PageWatch.Select
import PageWatch.Watch

/-! What a host supplies: an executor for selects, stores, permissions and preferences. -/
namespace PageWatch

/-- The family of a database; only hints depend on it. -/
inductive Backend where
  | mysql
  | postgres
  | sqlite
  | other
  deriving DecidableEq

namespace Backend

def name : Backend → String
  | mysql => "mysql"
  | postgres => "postgres"
  | sqlite => "sqlite"
  | other => "other"

def all : List Backend := [mysql, postgres, sqlite, other]

end Backend

/-- How a list of fragments is joined. -/
inductive ListJoin where
  | and
  | or
  deriving DecidableEq

def ListJoin.name : ListJoin → String
  | and => "AND"
  | or => "OR"

/-- A right that the feed asks for; who holds it is the host's decision. -/
inductive Right where
  | deletedHistory
  | suppressRevision
  | viewSuppressed
  deriving DecidableEq

namespace Right

def name : Right → String
  | deletedHistory => "deletedhistory"
  | suppressRevision => "suppressrevision"
  | viewSuppressed => "viewsuppressed"

def all : List Right := [deletedHistory, suppressRevision, viewSuppressed]

end Right

/-- A failure that the executor or its connection reports, perhaps with a cause of its own. -/
structure ExecutorError where
  detail : String
  cause : Option String := none
  deriving DecidableEq

def ExecutorError.message (e : ExecutorError) : String := "query execution failed: " ++ e.detail

/-- A read replica: it renders fragments in its dialect and runs selects. -/
structure Executor where
  backend : Backend
  /-- A string literal. -/
  quote : String → String
  /-- A caller's timestamp in the stored format. -/
  timestamp : String → String
  makeList : List String → ListJoin → String
  bitAnd : String → UInt32 → String
  select : SelectQuery → Except ExecutorError (List Row)

/-- Where the texts of change comments come from. -/
structure CommentStore where
  join : String → JoinContribution
  fields : String → List SelectField := fun field => (join field).fields

/-- Maps logical user columns onto the stored actors. -/
structure ActorStore where
  join : String → JoinContribution
  whereUser : (field userName : String) → WhereContribution
  isAnonymous : String → String
  isNotAnonymous : String → String

structure Permissions where
  isAllowed : User → Right → Bool
  isAllowedAny : User → List Right → Bool := fun user rights => rights.any (isAllowed user)
  usesChangePatrol : User → Bool
  usesPagePatrol : User → Bool

/-- Everything but the database that a host supplies. `watchlistToken` is the secret by which others
may read a user's watchlist, `latestNotification` reconciles a stored notification timestamp with
pending watch state, and `tagSummary` is a scalar subquery over the rows of a table. -/
structure Collaborators where
  comments : CommentStore
  actors : ActorStore
  tagSummary : (table : String) → String
  permissions : Permissions
  watchlistToken : User → Option String
  latestNotification : Option String → User → Target → Option String

/-- A host. Asking for a replica may fail; a replica serves one call. -/
structure Host where
  collaborators : Collaborators
  replica : Except ExecutorError Executor

end PageWatch
