import PageWatch.Decimal.Double
import PageWatch.Text.Quoted

/-! Documents: the tree that structured text (requests, users, rows, configuration) is read into. -/
namespace PageWatch

/-- A node of structured text. The members of a table stand in ascending order of their names, and
no name stands twice. -/
inductive Document where
  | null
  | bool (b : Bool)
  | int (n : Int)
  | float (x : Decimal.Double)
  | text (s : String)
  | list (items : List Document)
  | table (members : List (String × Document))

namespace Document

instance : Inhabited Document := ⟨null⟩

/-- Sets a member in its place among members in ascending order. -/
def setMember (k : String) (d : Document) : List (String × Document) → List (String × Document)
  | [] => [(k, d)]
  | (k', d') :: ms =>
    if k < k' then (k, d) :: (k', d') :: ms
    else if k = k' then (k, d) :: ms
    else (k', d') :: setMember k d ms

/-- The table of some members in any order; of several with one name the last stays. -/
def ofMembers (ms : List (String × Document)) : Document :=
  table (ms.foldl (fun sorted m => setMember m.1 m.2 sorted) [])

/-- How messages name what was found. -/
def describe : Document → String
  | null => "null"
  | bool b => s!"boolean `{b}`"
  | int n => s!"integer `{n}`"
  | float x => "floating point `" ++ x.text ++ "`"
  | text s => "string " ++ Text.quoted s
  | list _ => "sequence"
  | table _ => "map"

/-- A missing value is null. -/
def ofOption {α : Type} (write : α → Document) : Option α → Document
  | some a => write a
  | none => null

/-- A list, item by item. -/
def ofList {α : Type} (write : α → Document) (as : List α) : Document := list (as.map write)

end Document

end PageWatch
