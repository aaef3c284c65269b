import PageWatch.Access
import PageWatch.Config
import PageWatch.Select.Seek

/-! The select of the change feed: its sources, its fields and its conditions. -/
namespace PageWatch

/-- The code under which log entries are stored among the changes. -/
def logCode : Int := ChangeKind.log.code.toInt

/-- The id of a watchlist owner as it is stored, in 63 bits. -/
def storedOwner (owner : UInt64) : Except ContractError Int64 :=
  if owner.toNat < 0x8000000000000000 then .ok (Int64.ofNat owner.toNat)
  else .error (.ownerOutOfRange owner)

namespace FeedOptions

variable (o : FeedOptions) (c : Collaborators)

/-- Author details, author rules and filters on anonymity read the actor tables. -/
def needsActor : Bool :=
  o.groups.contains .user || o.groups.contains .userId || o.filters.contains .anon
    || o.filters.contains .notAnon || o.author.isSome

/-- Changes are joined to the watchlist, and to their pages unless all revisions are wanted. -/
def sources : List Push :=
  [.table (.named "recentchanges"), .table (.named "watchlist"),
    .join ⟨"watchlist", .inner, ["wl_namespace=rc_namespace", "wl_title=rc_title"]⟩]
  ++ (if o.allRevisions then []
    else [.table (.named "page"), .join ⟨"page", .left, ["rc_cur_id=page_id"]⟩])
  ++ (if o.groups.contains .comment then [.contribution (c.comments.join "rc_comment")] else [])
  ++ (if o.needsActor then [.contribution (c.actors.join "rc_user")] else [])

def baseColumns : List String :=
  ["rc_id", "rc_namespace", "rc_title", "rc_timestamp", "rc_type", "rc_deleted",
    "wl_notificationtimestamp"]

/-- A generator needs just the ids of what it generates. -/
def idColumns : List String :=
  if o.forGenerator then if o.allRevisions then ["rc_this_oldid"] else ["rc_cur_id"]
  else ["rc_cur_id", "rc_this_oldid", "rc_last_oldid"]

/-- A field that the actor store must offer. -/
def actorField (name : String) : Except ContractError SelectField :=
  match (c.actors.join "rc_user").field? name with
  | some f => .ok f
  | none => .error (.missingActorField name)

def groupFields : FieldGroup → Except ContractError (List SelectField)
  | .flags => .ok (["rc_type", "rc_minor", "rc_bot"].map .column)
  | .user => (actorField c "rc_user_text").map fun f => [f]
  | .userId => (actorField c "rc_user").map fun f => [f]
  | .comment => .ok (c.comments.fields "rc_comment")
  | .patrol => .ok (["rc_patrolled", "rc_log_type"].map .column)
  | .sizes => .ok (["rc_old_len", "rc_new_len"].map .column)
  | .logInfo => .ok (["rc_logid", "rc_log_type", "rc_log_action", "rc_params"].map .column)
  | .tags => .ok [⟨"rc_tags", some (c.tagSummary "recentchanges")⟩]

/-- The fields to select, group by group in the order of the groups. A name may come twice; the
first field of a name is the one that counts. -/
def fields : Except ContractError (List SelectField) := do
  let groups ← o.groups.toList.mapM (groupFields c)
  return (baseColumns ++ o.idColumns).map .column ++ groups.flatten

def filterTerm : ChangeFilter → Term
  | .minor => .fragment (.compare (.column "rc_minor") .ne (.number 0))
  | .notMinor => .fragment (.compare (.column "rc_minor") .eq (.number 0))
  | .bot => .fragment (.compare (.column "rc_bot") .ne (.number 0))
  | .notBot => .fragment (.compare (.column "rc_bot") .eq (.number 0))
  | .anon => .fragment (.host (c.actors.isAnonymous "rc_user"))
  | .notAnon => .fragment (.host (c.actors.isNotAnonymous "rc_user"))
  | .patrolled => .fragment (.compare (.column "rc_patrolled") .ne (.number 0))
  | .notPatrolled => .equals "rc_patrolled" (.int 0)
  | .unread =>
    .fragment (.compare (.column "rc_timestamp") .ge (.column "wl_notificationtimestamp"))
  | .notUnread =>
    .fragment (.alternative (.isNull "wl_notificationtimestamp")
      (.compare (.column "rc_timestamp") .lt (.column "wl_notificationtimestamp")))

/-- Without all revisions, a change counts while it is the latest of its page or a log entry. -/
def latestTerms : List Term :=
  if o.allRevisions then []
  else [.fragment (.either (.same (.column "rc_this_oldid") (.column "page_latest"))
    (.same (.column "rc_type") (.number logCode)))]

def namespaceTerms : List Term :=
  if o.namespaces.isEmpty then []
  else [.oneOf "wl_namespace" (o.namespaces.toList.map Scalar.ofInt32)]

def kindTerms : List Term :=
  if o.kinds.isEmpty then [] else [.oneOf "rc_type" (o.kinds.toList.map fun k => .int k.code)]

/-- The bounds of the window; without a walk they have no meaning and no effect. -/
def windowTerms : List Term :=
  match o.walk with
  | some walk =>
    let bound (op : Comparison) (t : String) : Term :=
      .fragment (.compare (.column "rc_timestamp") op (.moment t))
    (o.window.start.map (bound walk.sortOrder.atOrPast)).toList
      ++ (o.window.stop.map (bound walk.sortOrder.reversed.atOrPast)).toList
  | none => []

/-- A lower bound that every timestamp passes. -/
def hintTerms (config : SelectConfig) (backend : Backend) : List Term :=
  if config.mysqlTimestampHint && o.window.isUnbounded && backend == .mysql then
    [.fragment (.compare (.column "rc_timestamp") .gt (.quoted ""))]
  else []

/-- Not all bits of a mask are set among the deletion bits of a change. -/
def notHidden (mask : UInt32) : Fragment :=
  .compare (.masked "rc_deleted" mask) .ne (.number mask.toNat)

/-- Who asks for an author must not find changes whose author is hidden from them. -/
def authorTerms (v : Visibility) : List Term :=
  match o.author with
  | some rule =>
    .contributed (c.actors.whereUser "rc_user" rule.userName) rule.isNegated
      :: v.authorMask.toList.map fun mask => .fragment (notHidden mask)
  | none => []

/-- Log entries whose action is hidden from the user are left out. -/
def logTerms (v : Visibility) : List Term :=
  v.logActionMask.toList.map fun mask =>
    .fragment (.either (.compare (.column "rc_type") .ne (.number logCode)) (notHidden mask))

/-- The walk goes on at the cursor. -/
def cursorTerms : List Term :=
  match o.startFrom, o.walk with
  | some cursor, some walk => [.fragment (cursor.position.seek walk.sortOrder)]
  | _, _ => []

/-- All conditions, in the order in which they enter the select. -/
def terms (config : SelectConfig) (backend : Backend) (g : Grant) (owner : Int64) : List Term :=
  .equals "wl_user" (.int owner)
    :: o.latestTerms
    ++ o.namespaceTerms
    ++ o.kindTerms
    ++ g.filters.toList.map (filterTerm c)
    ++ o.windowTerms
    ++ o.hintTerms config backend
    ++ o.authorTerms c g.visibility
    ++ logTerms g.visibility
    ++ o.cursorTerms

/-- Both columns of a position are sorted the same way. -/
def orderBy : List OrderTerm :=
  match o.walk with
  | some walk => [⟨"rc_timestamp", walk.sortOrder⟩, ⟨"rc_id", walk.sortOrder⟩]
  | none => []

/-- The number of rows to fetch: one more than the limit, to know whether more follow. The largest
limit stays as it is. -/
def rowCap : Option UInt32 := o.limit.map fun limit => UInt32.ofNatClamp (limit.toNat + 1)

/-- The select of the change feed. Collaborators can break their contract by not offering an actor
field that is asked for; the owner's id can be too large. -/
def select (x : Executor) (config : SelectConfig) (g : Grant) :
    Except ContractError SelectQuery := do
  let fields ← o.fields c
  let owner ← storedOwner g.ownerId
  let start : SelectQuery := { caller := config.caller, orderBy := o.orderBy, limit := o.rowCap }
  return start.pushAll (o.sources c ++ fields.map .field
    ++ (o.terms c config x.backend g owner).map (Term.push x))

/-- Compiles the select and notes its size. -/
def compile (x : Executor) (config : SelectConfig) (g : Grant) :
    Outcome ContractError SelectQuery := do
  let q ← .ofExcept (o.select c x config g)
  .emit .render
  .log (.feedCompiled q.tables.length q.fields.length q.conditions.length q.joins.length q.limit)
  return q

end FeedOptions

end PageWatch
