import PageWatch.Extension
import PageWatch.Select.Watchlist
import PageWatch.Validation

/-! The service: changes to watched pages, and the plain listing of a watchlist. -/
namespace PageWatch

/-- A host with a configuration and the extensions in their order of registration. Nothing is kept
from one call to the next. -/
structure Service where
  host : Host
  config : SelectConfig := {}
  extensions : List Extension := []

/-- Runs a select. -/
def Executor.run (x : Executor) (q : SelectQuery) : Outcome CallError (List Row) :=
  .perform (.select q) ((x.select q).mapError .execution)

namespace Service

variable (s : Service)

/-- The service with one more extension. -/
def register (e : Extension) : Service := { s with extensions := s.extensions ++ [e] }

def replica : Outcome CallError Executor :=
  .perform .replica (s.host.replica.mapError .execution)

/-- The page of fetched rows; that more rows follow is noted. -/
def page (user : User) (cap : Option UInt32) (rows : List Row) : Outcome CallError ChangePage := do
  let p ← .ofExcept ((ChangePage.ofRows s.host.collaborators user cap rows).mapError .contract)
  match p.cursor with
  | some cursor => .log (.feedContinues cursor)
  | none => pure ()
  return p

/-- A page of the changes to the pages on a watchlist. The raw cursor is the one that the page
before it gave. -/
def changes (user : User) (request : FeedRequest) (cursor : Option (List Scalar)) :
    Outcome CallError ChangePage := do
  let c := s.host.collaborators
  let options ← .ofExcept ((request.validate user cursor).mapError .validation)
  let grant ← (Access.decide c user options).mapError .authorization
  let executor ← s.replica
  let compiled ← (options.compile c executor s.config grant).mapError .contract
  let ctx : HookContext := ⟨user, options, executor⟩
  let query ← Extension.beforeAll ctx s.extensions compiled
  let rows ← executor.run query
  .log (.rowsFetched rows.length)
  let page ← s.page user options.rowCap rows
  Extension.afterAll ctx rows s.extensions page

/-- The pages on a user's watchlist; a visitor without an account has none. -/
def watchedPages (user : User) (request : WatchlistRequest) :
    Outcome CallError (List WatchedItem) := do
  if user.isRegistered then
    let options ← .ofExcept (request.validate.mapError .validation)
    let executor ← s.replica
    let query ← (options.compile executor s.config user.id).mapError .contract
    let rows ← executor.run query
    .ofExcept ((WatchedItem.ofRows s.host.collaborators user rows).mapError .contract)
  else
    .log .noWatchlist
    return []

end Service

end PageWatch
