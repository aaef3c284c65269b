import PageWatch.Options
import PageWatch.Outcome
import PageWatch.Page

/-! Extensions: hooks of others before and after the select of the change feed. -/
namespace PageWatch

/-- What a hook may look at. -/
structure HookContext where
  user : User
  options : FeedOptions
  executor : Executor

/-- An extension. Its hooks may fail with a text; one that it does not implement passes its input
through. The hook after the select sees all rows, also those that are on no page. -/
structure Extension where
  name : String
  beforeQuery : HookContext → SelectQuery → Except String SelectQuery := fun _ q => .ok q
  afterQuery : HookContext → ChangePage → List Row → Except String ChangePage := fun _ p _ => .ok p

namespace Extension

variable (ctx : HookContext)

/-- Calls the hook of one extension; a failure is put down to the extension by name. -/
def runBefore (q : SelectQuery) (e : Extension) : Outcome CallError SelectQuery :=
  .perform (.beforeHook e.name) ((e.beforeQuery ctx q).mapError (.extension e.name))

def runAfter (rows : List Row) (p : ChangePage) (e : Extension) : Outcome CallError ChangePage :=
  .perform (.afterHook e.name) ((e.afterQuery ctx p rows).mapError (.extension e.name))

/-- Hands a select from hook to hook, in the order of registration. -/
def beforeAll (es : List Extension) (q : SelectQuery) : Outcome CallError SelectQuery :=
  es.foldlM (runBefore ctx) q

/-- Hands a page from hook to hook, in the order of registration. -/
def afterAll (rows : List Row) (es : List Extension) (p : ChangePage) :
    Outcome CallError ChangePage := es.foldlM (runAfter ctx rows) p

/-- The names of registered extensions as diagnostics show them. -/
def showNames (names : List String) : String := Text.quotedList names

end Extension

end PageWatch
