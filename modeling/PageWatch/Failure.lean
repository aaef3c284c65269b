import PageWatch.Change
import PageWatch.Cursor
import PageWatch.Host

/-! Why a call can fail, by cause; the wording of every cause is in its `message`. -/
namespace PageWatch

/-- Why a request was refused. -/
inductive ValidationError where
  | unknownKind (value : Scalar)
  | unknownWalk
  | missingWalk
  | badCursor (cause : CursorError)
  | ownerWithoutToken
  | tokenWithoutOwner
  | unreadableOwner (cause : ReadError)
  | contradiction (filter : ChangeFilter)
  | twoAuthors
  | unknownSort
  | unknownFilter
  | missingSort

namespace ValidationError

/-- The option to blame, by the name under which it is requested. -/
def option : ValidationError → String
  | unknownKind _ => "rcTypes"
  | unknownWalk | missingWalk => "dir"
  | badCursor _ => "cursor"
  | ownerWithoutToken => "watchlistOwnerToken"
  | tokenWithoutOwner | unreadableOwner _ => "watchlistOwner"
  | contradiction _ => "filters"
  | twoAuthors => "notByUser"
  | unknownSort | missingSort => "sort"
  | unknownFilter => "filter"

/-- The kinds of changes with their codes, as messages list them. -/
def knownKinds : String :=
  ", ".intercalate (ChangeKind.all.map fun k => k.name ++ s!"({k.code.toInt})")

def reason : ValidationError → String
  | unknownKind value =>
    "'" ++ value.display ++ "' is not a change type; expected one of " ++ knownKinds
  | unknownWalk => "must be 'older' or 'newer'"
  | missingWalk => "must be provided when 'start', 'end' or a cursor is given"
  | badCursor cause => cause.message
  | ownerWithoutToken => "must be provided when 'watchlistOwner' is given"
  | tokenWithoutOwner => "must be provided when 'watchlistOwnerToken' is given"
  | unreadableOwner cause => "must be a user identity: " ++ cause.message
  | contradiction filter =>
    "'" ++ filter.tag ++ "' and '" ++ filter.counterpart.tag ++ "' are mutually exclusive"
  | twoAuthors => "cannot be combined with 'onlyByUser'"
  | unknownSort => "must be 'ASC' or 'DESC'"
  | unknownFilter => "must be 'changed' or '!changed'"
  | missingSort => "must be provided when 'from', 'until' or 'startFrom' is given"

def message (e : ValidationError) : String :=
  "bad value for option '" ++ e.option ++ "': " ++ e.reason

end ValidationError

/-- Why a watchlist must not be read. -/
inductive AuthorizationError where
  | incorrectToken (owner : UInt64)
  deriving DecidableEq

def AuthorizationError.message : AuthorizationError → String
  | incorrectToken _ => "Incorrect watchlist token provided"

/-- The part of a call in which a collaborator's contract turned out to be broken. -/
inductive Stage where
  | compiler
  | mapper
  deriving DecidableEq

def Stage.name : Stage → String
  | compiler => "compiler"
  | mapper => "mapper"

/-- How a collaborator broke its contract. `reported` carries the words of whoever noticed. -/
inductive ContractError where
  | missingActorField (name : String)
  | ownerOutOfRange (owner : UInt64)
  | invalidCell (column : String)
  | missingCell (column : String)
  | missingPosition (column : String)
  | reported (stage : Stage) (words : String)
  deriving DecidableEq

namespace ContractError

def stage : ContractError → Stage
  | missingActorField _ | ownerOutOfRange _ => .compiler
  | invalidCell _ | missingCell _ | missingPosition _ => .mapper
  | reported stage _ => stage

def message : ContractError → String
  | missingActorField name => "actor resolver did not provide field '" ++ name ++ "'"
  | ownerOutOfRange owner => s!"owner id {owner.toNat} exceeds the stored id range"
  | invalidCell column => "row has no valid " ++ column
  | missingCell column => "row has no " ++ column
  | missingPosition column => "change row is missing " ++ column
  | reported _ words => words

end ContractError

/-- Why a call failed. -/
inductive CallError where
  | validation (e : ValidationError)
  | authorization (e : AuthorizationError)
  | execution (e : ExecutorError)
  | extension (name cause : String)
  | contract (e : ContractError)

namespace CallError

def message : CallError → String
  | validation e => e.message
  | authorization e => e.message
  | execution e => e.message
  | extension name cause => "extension '" ++ name ++ "' failed: " ++ cause
  | contract e => e.message

/-- The texts of the causes below a failure, the nearest first. -/
def causes : CallError → List String
  | validation e => [e.message]
  | authorization e => [e.message]
  | execution e => e.message :: e.cause.toList
  | extension _ cause => [cause]
  | contract e => [e.message]

end CallError

end PageWatch
