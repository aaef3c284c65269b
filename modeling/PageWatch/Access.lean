import PageWatch.Failure
import PageWatch.Options
import PageWatch.Outcome
import PageWatch.Sha256

/-! Access: whose watchlist may be read, what deleted content stays hidden, which filters stand. -/
namespace PageWatch

/-- How much deleted content a user may see. -/
inductive Visibility where
  | base
  | deleted
  | suppressed
  deriving DecidableEq

/-- The deletion bit that hides what a log entry did. -/
def deletedAction : UInt32 := 1

/-- The deletion bit that hides who made a change. -/
def deletedUser : UInt32 := 4

/-- The deletion bit that hides content even from those who may see deleted history. -/
def deletedRestricted : UInt32 := 8

namespace Visibility

def name : Visibility → String
  | base => "base"
  | deleted => "view-deleted"
  | suppressed => "view-suppressed"

def all : List Visibility := [base, deleted, suppressed]

/-- The bits that together hide the author of a change. -/
def authorMask : Visibility → Option UInt32
  | base => some deletedUser
  | deleted => some (deletedUser ||| deletedRestricted)
  | suppressed => none

/-- The bits that together hide the action of a log entry. -/
def logActionMask : Visibility → Option UInt32
  | base => some deletedAction
  | deleted => some (deletedAction ||| deletedRestricted)
  | suppressed => none

end Visibility

/-- What a call was granted: whose watchlist it reads, what it sees, and by what it may filter. -/
structure Grant where
  ownerId : UInt64
  visibility : Visibility
  filters : SortedSet ChangeFilter

namespace Access

variable (c : Collaborators)

/-- Secrets are compared by their digests; an empty or missing one admits nobody. -/
def tokenMatches (stored : Option String) (token : String) : Bool :=
  match stored with
  | some s => s != "" && Sha256.ofString s == Sha256.ofString token
  | none => false

/-- The owner of the list to read, once a claim on another user's list has been checked. -/
def verifyScope : Scope → Outcome AuthorizationError UInt64
  | .own user => pure user.id
  | .claimed owner token => do
    if tokenMatches (c.watchlistToken owner) token then
      return owner.id
    else
      .log (.tokenRejected owner.id)
      .ofExcept (.error (.incorrectToken owner.id))

def visibility (user : User) : Visibility :=
  if !c.permissions.isAllowed user .deletedHistory then .base
  else if !c.permissions.isAllowedAny user [.suppressRevision, .viewSuppressed] then .deleted
  else .suppressed

def canPatrol (user : User) : Bool :=
  c.permissions.usesChangePatrol user || c.permissions.usesPagePatrol user

/-- Patrol filters stand only for users who can patrol. -/
def honors (user : User) (f : ChangeFilter) : Bool := canPatrol c user || !f.isPatrol

/-- The filters that stand; each dropped one is noted. -/
def honoredFilters (user : User) (filters : SortedSet ChangeFilter) :
    Outcome AuthorizationError (SortedSet ChangeFilter) :=
  let dropped := filters.toList.filter fun f => !honors c user f
  ⟨dropped.map fun f => .log (.filterDropped f), .ok (filters.filter (honors c user))⟩

/-- What an acting user is granted for validated options. -/
def decide (user : User) (o : FeedOptions) : Outcome AuthorizationError Grant := do
  let ownerId ← verifyScope c o.scope
  let filters ← honoredFilters c user o.filters
  return ⟨ownerId, visibility c user, filters⟩

end Access

end PageWatch
