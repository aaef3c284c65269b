import PageWatch.Extension
import PageWatch.Select.Edit

/-! A scripted host: collaborators and extensions that answer from a description. -/
namespace PageWatch

/-- What the scripted store makes of notification timestamps. -/
inductive Reconciliation where
  | keep
  | clear
  | describe
  deriving DecidableEq

/-- A description of a host. What is missing is answered as a host with separate tables for actors
and comments would answer it. `batches` are the rows of one answered select after the other. -/
structure Script where
  backend : Backend := .mysql
  doubleQuotes : Bool := false
  digitsOnly : Bool := false
  rows : List Row := []
  batches : Option (List (List Row)) := none
  honorLimit : Bool := false
  replicaError : Option String := none
  selectError : Option String := none
  actorJoin : Option JoinContribution := none
  actorWhere : Option WhereContribution := none
  commentJoin : Option JoinContribution := none
  commentFields : Option (List SelectField) := none
  tags : Option String := none
  denied : List Right := []
  changePatrol : Bool := true
  pagePatrol : Bool := true
  tokens : List (String × String) := []
  store : Reconciliation := .keep

namespace Script

variable (s : Script)

/-- A string literal; a quote inside it may be written twice. -/
def quote (text : String) : String :=
  let inner := if s.doubleQuotes then
      text.toList.flatMap fun ch => if ch = '\'' then ['\'', '\''] else [ch]
    else text.toList
  String.ofList ('\'' :: inner ++ ['\''])

def timestamp (text : String) : String :=
  if s.digitsOnly then String.ofList (text.toList.filter Char.isDigit) else text

/-- Each part in parentheses, with the connective between them. -/
def makeList (parts : List String) (j : ListJoin) : String :=
  (" " ++ j.name ++ " ").intercalate (parts.map fun p => "(" ++ p ++ ")")

def bitAnd (column : String) (mask : UInt32) : String := s!"({column} & {mask.toNat})"

/-- The rows that the next select answers after `answered` others. -/
def rowsAfter (answered : Nat) : List Row :=
  match s.batches with
  | some batches => (batches[answered]?).getD []
  | none => s.rows

def select (answered : Nat) (q : SelectQuery) : Except ExecutorError (List Row) :=
  match s.selectError with
  | some detail => .error { detail }
  | none =>
    let rows := s.rowsAfter answered
    match q.limit with
    | some limit => .ok (if s.honorLimit then rows.take limit.toNat else rows)
    | none => .ok rows

def executor (answered : Nat) : Executor where
  backend := s.backend
  quote := s.quote
  timestamp := s.timestamp
  makeList := makeList
  bitAnd := bitAnd
  select := s.select answered

def actorAlias (field : String) : String := "actor_" ++ field

def actorTables (field : String) : List TableRef := [⟨actorAlias field, "actor"⟩]

def actorJoins (field : String) : List JoinClause :=
  [⟨actorAlias field, .inner, [actorAlias field ++ ".actor_id = rc_actor"]⟩]

def defaultActorJoin (field : String) : JoinContribution where
  tables := actorTables field
  fields := [
    ⟨field, some (actorAlias field ++ ".actor_user")⟩,
    ⟨field ++ "_text", some (actorAlias field ++ ".actor_name")⟩,
    .column "rc_actor"]
  joins := actorJoins field

def defaultActorWhere (field : String) : WhereContribution where
  tables := actorTables field
  condition := actorAlias field ++ ".actor_name = <user>"
  joins := actorJoins field

/-- The condition on a user, whose quoted name stands wherever the script says `<user>`. -/
def whereUser (field userName : String) : WhereContribution :=
  let w := s.actorWhere.getD (defaultActorWhere field)
  { w with condition := w.condition.replace "<user>" (s.quote userName) }

def defaultCommentJoin (field : String) : JoinContribution :=
  let name := "comment_" ++ field
  { tables := [⟨name, "comment"⟩]
    fields := [
      ⟨field ++ "_text", some (name ++ ".comment_text")⟩,
      ⟨field ++ "_data", some (name ++ ".comment_data")⟩]
    joins := [⟨name, .inner, [name ++ ".comment_id = " ++ field ++ "_id"]⟩] }

def comments : CommentStore :=
  let join field := s.commentJoin.getD (defaultCommentJoin field)
  { join, fields := fun field => s.commentFields.getD (join field).fields }

def actors : ActorStore where
  join field := s.actorJoin.getD (defaultActorJoin field)
  whereUser := s.whereUser
  isAnonymous field := actorAlias field ++ ".actor_user IS NULL"
  isNotAnonymous field := actorAlias field ++ ".actor_user IS NOT NULL"

def permissions : Permissions where
  isAllowed _ right := !s.denied.contains right
  usesChangePatrol _ := s.changePatrol
  usesPagePatrol _ := s.pagePatrol

def latestNotification (stored : Option String) (user : User) (target : Target) : Option String :=
  match s.store with
  | .keep => stored
  | .clear => none
  | .describe => some (stored.getD "none" ++ " " ++ user.display ++ " " ++ target.display)

def collaborators : Collaborators where
  comments := s.comments
  actors := s.actors
  tagSummary table := s.tags.getD ("(tags of " ++ table ++ ".rc_id)")
  permissions := s.permissions
  watchlistToken user := s.tokens.lookup (toString user.id.toNat)
  latestNotification := s.latestNotification

/-- The host that the script describes, once `answered` selects have been answered. -/
def host (answered : Nat) : Host where
  collaborators := s.collaborators
  replica :=
    match s.replicaError with
    | some detail => .error { detail }
    | none => .ok (s.executor answered)

end Script

/-- A step of a scripted hook before the select. `context` adds a condition that shows what the
hook can see, and `fail` ends the hook. -/
inductive BeforeStep where
  | edit (e : SelectEdit)
  | probe (p : SelectProbe)
  | context
  | fail (cause : String)

/-- A step of a scripted hook after the select. `observe` adds a detail that shows what the hook
can see, and `fail` ends the hook. -/
inductive AfterStep where
  | insert (field : String) (value : Scalar)
  | setCursor (cursor : Option Cursor)
  | reverse
  | observe
  | fail (cause : String)

/-- The acting user, the owner of the list, the limit and the backend in one line. -/
def HookContext.summary (ctx : HookContext) : String :=
  ctx.user.display ++ " reads " ++ ctx.options.scope.owner.display ++ " with limit "
    ++ LogEvent.limitText ctx.options.limit ++ " on " ++ ctx.executor.backend.name

/-- Probing leaves a select as it is. -/
def BeforeStep.run (ctx : HookContext) (q : SelectQuery) : BeforeStep → Except String SelectQuery
  | edit e => .ok (q.edit e)
  | probe _ => .ok q
  | context => .ok (q.pushCondition (.expr (ctx.executor.quote ctx.summary)))
  | fail cause => .error cause

/-- A page with one more detail in every item. -/
def ChangePage.insertAll (p : ChangePage) (field : String) (value : Scalar) : ChangePage :=
  { p with items := p.items.map fun i => (i.1, i.2.insert field value) }

def AfterStep.run (rows : List Row) (p : ChangePage) : AfterStep → Except String ChangePage
  | insert field value => .ok (p.insertAll field value)
  | setCursor cursor => .ok { p with cursor }
  | reverse => .ok { p with items := p.items.reverse }
  | observe =>
    let seen := s!"{rows.length} rows, cursor {p.cursor.isSome}"
    .ok (p.insertAll "observed" (.text seen))
  | fail cause => .error cause

/-- An extension whose hooks run scripted steps; a hook without a script passes on what it gets. -/
structure ScriptedExtension where
  name : String
  before : List BeforeStep := []
  after : List AfterStep := []

def ScriptedExtension.extension (e : ScriptedExtension) : Extension where
  name := e.name
  beforeQuery ctx q := e.before.foldlM (BeforeStep.run ctx) q
  afterQuery _ p rows := e.after.foldlM (AfterStep.run rows) p

end PageWatch
