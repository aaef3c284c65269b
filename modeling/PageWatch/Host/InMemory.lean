import PageWatch.Host.Scripted

/-! A host in memory: fixed rows, one actor table, and switches for rights and patrolling. -/
namespace PageWatch

/-- A host that answers every select with the same rows. Of several tokens of one user the last
counts. -/
structure InMemory where
  backend : Backend := .mysql
  rows : List Row := []
  denied : List Right := []
  noPatrol : Bool := false
  tokens : List (UInt64 × String) := []

namespace InMemory

variable (m : InMemory)

/-- The user that acts unless another one is named. -/
def actingUser : User := ⟨1, "MockUser"⟩

/-- A second user. -/
def otherUser : User := ⟨2, "Other User"⟩

/-- A change row with every column that the basic feed selects. -/
def changeRow (id : Int64) (namespaceId : Int32) (title timestamp : String) : Row :=
  .ofList [
    ("rc_id", .int id),
    ("rc_namespace", .ofInt32 namespaceId),
    ("rc_title", .text title),
    ("rc_timestamp", .text timestamp),
    ("rc_type", .int 0),
    ("rc_deleted", .int 0),
    ("rc_cur_id", .int id),
    ("rc_this_oldid", .int id),
    ("rc_last_oldid", .int (id - 1)),
    ("wl_notificationtimestamp", .null)]

/-- A literal between quotes, whatever it holds. -/
def quote (text : String) : String := "'" ++ text ++ "'"

def executor : Executor where
  backend := m.backend
  quote := quote
  timestamp := id
  makeList := Script.makeList
  bitAnd := Script.bitAnd
  select _ := .ok m.rows

/-- The alias of the only actor table. -/
def actorAlias : String := "actor_rc_user"

def actorTables : List TableRef := [⟨actorAlias, "actor"⟩]

def actorJoins : List JoinClause :=
  [⟨actorAlias, .inner, [actorAlias ++ ".actor_id = rc_actor"]⟩]

def actors : ActorStore where
  join field := {
    tables := actorTables
    fields := [
      ⟨field, some (actorAlias ++ ".actor_user")⟩,
      ⟨field ++ "_text", some (actorAlias ++ ".actor_name")⟩,
      .column "rc_actor"]
    joins := actorJoins }
  whereUser _ userName := {
    tables := actorTables
    condition := actorAlias ++ ".actor_name = " ++ quote userName
    joins := actorJoins }
  isAnonymous _ := actorAlias ++ ".actor_user IS NULL"
  isNotAnonymous _ := actorAlias ++ ".actor_user IS NOT NULL"

/-- Comments have their id as a third field. -/
def commentJoin (field : String) : JoinContribution :=
  let join := Script.defaultCommentJoin field
  { join with
    fields := join.fields ++ [⟨field ++ "_cid", some ("comment_" ++ field ++ ".comment_id")⟩] }

def collaborators : Collaborators where
  comments := { join := commentJoin }
  actors := actors
  tagSummary table :=
    "(SELECT GROUP_CONCAT(ct_tag) FROM change_tag WHERE ct_rc_id = " ++ table ++ ".rc_id)"
  permissions := {
    isAllowed := fun _ right => !m.denied.contains right
    usesChangePatrol := fun _ => !m.noPatrol
    usesPagePatrol := fun _ => !m.noPatrol }
  watchlistToken user := m.tokens.reverse.lookup user.id
  latestNotification stored _ _ := stored

def host : Host where
  collaborators := m.collaborators
  replica := .ok m.executor

end InMemory

end PageWatch
