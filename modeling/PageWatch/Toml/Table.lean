import PageWatch.Document

/-! Tables of TOML while a text is read: how they came about decides how they may grow. -/
namespace PageWatch.Toml

/-- How a table came about: by a header of its own, on the way to another header, by a dotted key,
or as a value, in which case it is complete. -/
inductive Making where
  | header
  | implied
  | dotted
  deriving DecidableEq

/-- A node under construction. -/
inductive Node where
  | value (d : Document)
  | table (made : Making) (members : List (String × Node))
  | tables (done : List Document) (members : List (String × Node))

abbrev Members := List (String × Node)

def Members.get? (ms : Members) (k : String) : Option Node := ms.lookup k

/-- Sets a member in its place, or adds it at the end. -/
def Members.set (k : String) (n : Node) : Members → Members
  | [] => [(k, n)]
  | (k', n') :: ms => if k = k' then (k, n) :: ms else (k', n') :: Members.set k n ms

mutual

/-- The finished form of a node. -/
def Node.toDocument : Node → Document
  | .value d => d
  | .table _ ms => .ofMembers (membersToDocuments ms)
  | .tables done ms => .list (done ++ [.ofMembers (membersToDocuments ms)])

def membersToDocuments : List (String × Node) → List (String × Document)
  | [] => []
  | (k, n) :: ms => (k, n.toDocument) :: membersToDocuments ms

end

/-- Stores a value under a dotted key. The tables on the way are made or extended by dotted keys
only, and no key may be given twice. -/
def storeValue (d : Document) : List String → Members → Option Members
  | [], _ => none
  | [k], ms => if (ms.get? k).isSome then none else some (ms.set k (.value d))
  | k :: ks, ms =>
    match ms.get? k with
    | none => (storeValue d ks []).map fun inner => ms.set k (.table .dotted inner)
    | some (.table .header _) => none
    | some (.table made inner) =>
      (storeValue d ks inner).map fun inner => ms.set k (.table made inner)
    | some _ => none

/-- Changes the table that a header leads to. Tables on the way are made where they are missing,
and an array of tables is entered at its last one. -/
def underHeader (change : Members → Option Members) : List String → Members → Option Members
  | [], ms => change ms
  | k :: ks, ms =>
    match ms.get? k with
    | none => (underHeader change ks []).map fun inner => ms.set k (.table .implied inner)
    | some (.table made inner) =>
      (underHeader change ks inner).map fun inner => ms.set k (.table made inner)
    | some (.tables done inner) =>
      (underHeader change ks inner).map fun inner => ms.set k (.tables done inner)
    | some (.value _) => none

/-- Opens the table that a header names: a new one, or one that was only implied so far. -/
def openTable (k : String) (ms : Members) : Option Members :=
  match ms.get? k with
  | none => some (ms.set k (.table .header []))
  | some (.table .implied inner) => some (ms.set k (.table .header inner))
  | some _ => none

/-- Opens one more table of an array of tables. -/
def openItem (k : String) (ms : Members) : Option Members :=
  match ms.get? k with
  | none => some (ms.set k (.tables [] []))
  | some (.tables done inner) =>
    some (ms.set k (.tables (done ++ [.ofMembers (membersToDocuments inner)]) []))
  | some _ => none

end PageWatch.Toml
