import PageWatch.Document.Shape

/-! Cursors: where the next page of the change feed begins. -/
namespace PageWatch

/-- The timestamp and the id of the first change of the next page. -/
structure Cursor where
  timestamp : String
  changeId : Int64
  deriving DecidableEq

/-- Why a raw cursor was refused. -/
inductive CursorError where
  | arity (found : Nat)
  | nullTimestamp
  deriving DecidableEq

def CursorError.message : CursorError → String
  | arity found => s!"must be a two-element array, found {found} element(s)"
  | nullTimestamp => "timestamp must not be null"

namespace Cursor

instance : Inhabited Cursor := ⟨⟨"", 0⟩⟩

/-- Reads a raw pair. The id is read tolerantly; without any digit it is zero. -/
def ofRaw : List Scalar → Except CursorError Cursor
  | [timestamp, changeId] =>
    match timestamp.render with
    | some t => .ok ⟨t, changeId.coerceInt.getD 0⟩
    | none => .error .nullTimestamp
  | raw => .error (.arity raw.length)

/-- The raw pair, in the order in which it is read. -/
def toRaw (c : Cursor) : List Scalar := [.text c.timestamp, .int c.changeId]

theorem ofRaw_toRaw (c : Cursor) : ofRaw c.toRaw = .ok c := rfl

def shape : Shape Cursor where
  label := "ChangeCursor"
  members := [
    .required "timestamp" Reader.text fun c timestamp => { c with timestamp },
    .required "change_id" Reader.int64 fun c changeId => { c with changeId }]
  blank := default
  closed := false
  padded := false

def read : Reader Cursor := shape.read

def toDocument (c : Cursor) : Document :=
  .table [("change_id", .int c.changeId.toInt), ("timestamp", .text c.timestamp)]

end Cursor

end PageWatch
