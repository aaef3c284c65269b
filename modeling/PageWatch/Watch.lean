import PageWatch.Document.Shape

/-! Users, page targets, and the watch that ties a user to a target. -/
namespace PageWatch

/-- An account; a visitor without one has the id zero. -/
structure User where
  id : UInt64
  name : String
  deriving DecidableEq

namespace User

instance : Inhabited User := ⟨⟨0, ""⟩⟩

/-- A visitor without an account. -/
def anonymous (name : String) : User := ⟨0, name⟩

def isRegistered (u : User) : Bool := u.id != 0

def display (u : User) : String := s!"{u.name} (#{u.id})"

def shape : Shape User where
  label := "UserIdentity"
  members := [
    .required "id" Reader.uint64 fun u id => { u with id },
    .required "name" Reader.text fun u name => { u with name }]
  blank := default
  closed := true
  padded := false

def read : Reader User := shape.read

def toDocument (u : User) : Document := .table [("id", .int u.id.toNat), ("name", .text u.name)]

end User

/-- A page as watchlists store it: the number of its namespace and the key of its title. -/
structure Target where
  namespaceId : Int32
  title : String
  deriving DecidableEq

namespace Target

instance : Inhabited Target := ⟨⟨0, ""⟩⟩

def display (t : Target) : String := s!"{t.namespaceId.toInt}:{t.title}"

/-- By namespace, then by title. -/
def le (t u : Target) : Bool :=
  t.namespaceId < u.namespaceId || (t.namespaceId == u.namespaceId && t.title ≤ u.title)

def shape : Shape Target where
  label := "PageTarget"
  members := [
    .required "namespace" Reader.int32 fun t namespaceId => { t with namespaceId },
    .required "title" Reader.text fun t title => { t with title }]
  blank := default
  closed := true
  padded := false

def read : Reader Target := shape.read

def toDocument (t : Target) : Document :=
  .table [("namespace", .int t.namespaceId.toInt), ("title", .text t.title)]

end Target

/-- A user's watch on a page. The timestamp is set while there are changes not yet visited. -/
structure WatchedItem where
  user : User
  target : Target
  notificationTimestamp : Option String
  deriving DecidableEq

namespace WatchedItem

instance : Inhabited WatchedItem := ⟨⟨default, default, none⟩⟩

def shape : Shape WatchedItem where
  label := "WatchedItem"
  members := [
    .required "user" User.read fun i user => { i with user },
    .required "target" Target.read fun i target => { i with target },
    .optional "notification_timestamp" (Reader.option Reader.text)
      fun i notificationTimestamp => { i with notificationTimestamp }]
  blank := default
  closed := false
  padded := false

def read : Reader WatchedItem := shape.read

def toDocument (i : WatchedItem) : Document :=
  .table [
    ("notification_timestamp", .ofOption .text i.notificationTimestamp),
    ("target", i.target.toDocument),
    ("user", i.user.toDocument)]

end WatchedItem

end PageWatch
