import PageWatch.Host.Scripted
import PageWatch.Service

/-! Sessions: several calls of one service over a scripted host, which may follow page cursors. -/
namespace PageWatch

/-- The cursor of a call: given raw, or the one that the last page of the session carried. -/
inductive CursorChoice where
  | raw (cursor : Option (List Scalar))
  | previous

/-- A call within a session. -/
inductive SessionCall where
  | changes (user : User) (request : FeedRequest) (cursor : CursorChoice)
  | watchedPages (user : User) (request : WatchlistRequest)

/-- What a call within a session came to. -/
inductive SessionAnswer where
  | page (o : Outcome CallError ChangePage)
  | listing (o : Outcome CallError (List WatchedItem))

/-- What a session carries from call to call: how many selects its host has answered, and the raw
cursor of the last page. -/
structure Session where
  answered : Nat := 0
  cursor : Option (List Scalar) := none

namespace Session

def cursorOf (state : Session) : CursorChoice → Option (List Scalar)
  | .raw cursor => cursor
  | .previous => state.cursor

/-- A failed select uses up no rows. -/
def answeredBy (script : Script) (selects : List SelectQuery) : Nat :=
  if script.selectError.isSome then 0 else selects.length

/-- One call. Only a page, not a failure and not a listing, replaces the cursor. -/
def step (script : Script) (config : SelectConfig) (extensions : List Extension) (state : Session) :
    SessionCall → SessionAnswer × Session
  | .changes user request cursor =>
    let service : Service := ⟨script.host state.answered, config, extensions⟩
    let o := service.changes user request (state.cursorOf cursor)
    let answered := state.answered + answeredBy script o.selects
    match o.result with
    | .ok page => (.page o, ⟨answered, page.cursor.map Cursor.toRaw⟩)
    | .error _ => (.page o, ⟨answered, state.cursor⟩)
  | .watchedPages user request =>
    let service : Service := ⟨script.host state.answered, config, extensions⟩
    let o := service.watchedPages user request
    (.listing o, ⟨state.answered + answeredBy script o.selects, state.cursor⟩)

end Session

end PageWatch
