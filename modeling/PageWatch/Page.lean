import PageWatch.Failure

/-! Pages of the change feed, and how fetched rows become pages and listings. -/
namespace PageWatch

/-- One page: watched items with the details of their changes, and where the next page begins if
more changes follow. -/
structure ChangePage where
  items : List (WatchedItem × ChangeInfo) := []
  cursor : Option Cursor := none
  deriving DecidableEq

namespace ChangePage

instance : Inhabited ChangePage := ⟨{}⟩

def shape : Shape ChangePage where
  label := "ChangePage"
  members := [
    .required "items" (Reader.list (Reader.pair WatchedItem.read Reader.record))
      fun p items => { p with items },
    .optional "cursor" (Reader.option Cursor.read) fun p cursor => { p with cursor }]
  blank := {}
  closed := false
  padded := false

def read : Reader ChangePage := shape.read

def toDocument (p : ChangePage) : Document :=
  .table [
    ("cursor", .ofOption Cursor.toDocument p.cursor),
    ("items", .ofList (fun i => .list [i.1.toDocument, i.2.toDocument]) p.items)]

end ChangePage

namespace Row

variable (r : Row)

/-- A namespace number in the range of namespaces, read tolerantly. -/
def namespaceId (column : String) : Except ContractError Int32 :=
  match (r.get? column).bind Scalar.coerceInt with
  | some n =>
    if Int32.minValue.toInt ≤ n.toInt ∧ n.toInt ≤ Int32.maxValue.toInt then .ok n.toInt32
    else .error (.invalidCell column)
  | none => .error (.invalidCell column)

/-- The text of a cell, which null does not have. -/
def textOf (column : String) : Except ContractError String :=
  match (r.get? column).bind Scalar.render with
  | some s => .ok s
  | none => .error (.missingCell column)

def target (namespaceColumn titleColumn : String) : Except ContractError Target := do
  let namespaceId ← r.namespaceId namespaceColumn
  let title ← r.textOf titleColumn
  return ⟨namespaceId, title⟩

/-- The position of a change row. -/
def cursor : Except ContractError Cursor :=
  match (r.get? "rc_timestamp").bind Scalar.render, (r.get? "rc_id").bind Scalar.coerceInt with
  | some timestamp, some changeId => .ok ⟨timestamp, changeId⟩
  | some _, none => .error (.missingPosition "rc_id")
  | none, _ => .error (.missingPosition "rc_timestamp")

/-- The watch on a target that a row stands for, with its notification timestamp reconciled. -/
def watchedItem (c : Collaborators) (user : User) (target : Target) : WatchedItem :=
  let stored := (r.get? "wl_notificationtimestamp").bind Scalar.render
  ⟨user, target, c.latestNotification stored user target⟩

/-- The columns of the change itself; what serves joins and paging is dropped. -/
def changeInfo : ChangeInfo := r.filterKeys fun k => k.startsWith "rc_"

def changeItem (c : Collaborators) (user : User) :
    Except ContractError (WatchedItem × ChangeInfo) := do
  let target ← r.target "rc_namespace" "rc_title"
  return (r.watchedItem c user target, r.changeInfo)

def listedItem (c : Collaborators) (user : User) : Except ContractError WatchedItem := do
  let target ← r.target "wl_namespace" "wl_title"
  return r.watchedItem c user target

end Row

/-- How many rows of a fetch that was capped belong to the page. -/
def keptRows (cap : Option UInt32) : Option Nat := cap.map fun n => n.toNat - 1

/-- The page that fetched rows make. The first row past those that are kept is not returned but
becomes the cursor; rows after it play no part. -/
def ChangePage.ofRows (c : Collaborators) (user : User) (cap : Option UInt32) (rows : List Row) :
    Except ContractError ChangePage :=
  match keptRows cap with
  | some kept => do
    let items ← (rows.take kept).mapM fun r => r.changeItem c user
    match rows[kept]? with
    | some next => return ⟨items, some (← next.cursor)⟩
    | none => return ⟨items, none⟩
  | none => do
    let items ← rows.mapM fun r => r.changeItem c user
    return ⟨items, none⟩

/-- The listing that fetched rows make. -/
def WatchedItem.ofRows (c : Collaborators) (user : User) (rows : List Row) :
    Except ContractError (List WatchedItem) := rows.mapM fun r => r.listedItem c user

end PageWatch
