import PageWatch.Document.Reader

/-! Shapes: how a structure is read member by member, from a table or from a list. -/
namespace PageWatch

/-- A member of a structure: its name, whether it must be given, and how it is stored. -/
structure Member (σ : Type) where
  name : String
  isRequired : Bool
  store : Document → σ → Except ReadError σ

namespace Member

variable {σ β : Type}

def required (name : String) (read : Reader β) (put : σ → β → σ) : Member σ :=
  ⟨name, true, fun d x => (read d).map (put x)⟩

def optional (name : String) (read : Reader β) (put : σ → β → σ) : Member σ :=
  ⟨name, false, fun d x => (read d).map (put x)⟩

end Member

/-- How a structure is read. A `closed` shape refuses unknown members of a table, a `padded` one
completes a list that is too short; both start from the `blank` structure. -/
structure Shape (σ : Type) where
  label : String
  members : List (Member σ)
  blank : σ
  closed : Bool
  padded : Bool

namespace Shape

variable {σ : Type} (s : Shape σ)

/-- Stores one member of a table. -/
def storeNamed (x : σ) (e : String × Document) : Except ReadError σ :=
  match s.members.find? (·.name == e.1) with
  | some m => m.store e.2 x
  | none =>
    if s.closed then .error (.unknownMember e.1 (s.members.map (·.name))) else .ok x

/-- The first required member, in declaration order, that a table does not hold. -/
def missing? (members : List (String × Document)) : Option String :=
  (s.members.find? fun m => m.isRequired && !members.any (·.1 == m.name)).map (·.name)

/-- Members are stored in the order of the table; after that none may be missing. -/
def readTable (members : List (String × Document)) : Except ReadError σ := do
  let x ← members.foldlM s.storeNamed s.blank
  match s.missing? members with
  | some name => .error (.missingMember name)
  | none => .ok x

/-- What messages call the expected list. -/
def listLabel : String := s!"struct {s.label} with {s.members.length} elements"

/-- Stores the items of a list in declaration order. -/
def storeItems : List (Member σ) → List Document → σ → Except ReadError σ
  | m :: ms, d :: ds, x => do storeItems ms ds (← m.store d x)
  | m :: ms, [], x =>
    if s.padded then .ok x else .error (.tooShort (s.members.length - (m :: ms).length) s.listLabel)
  | [], _, x => .ok x

/-- Items are stored before their number is checked. -/
def readList (items : List Document) : Except ReadError σ := do
  let x ← s.storeItems s.members items s.blank
  if items.length ≤ s.members.length then .ok x else .error (.tooLong items.length)

def read : Reader σ
  | .table members => s.readTable members
  | .list items => s.readList items
  | d => .error (.wrongKind d ("struct " ++ s.label))

end Shape

end PageWatch
