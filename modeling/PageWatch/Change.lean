import PageWatch.Document.Reader
import PageWatch.SortedSet

/-! Kinds of changes, the groups of details a caller can ask for, and the filters on changes. -/
namespace PageWatch

/-- What a change did. -/
inductive ChangeKind where
  | edit
  | new
  | log
  | external
  | categorize
  deriving DecidableEq

namespace ChangeKind

def all : List ChangeKind := [edit, new, log, external, categorize]

/-- The code that is stored for a kind. -/
def code : ChangeKind → Int64
  | edit => 0
  | new => 1
  | log => 3
  | external => 5
  | categorize => 6

def name : ChangeKind → String
  | edit => "edit"
  | new => "new"
  | log => "log"
  | external => "external"
  | categorize => "categorize"

def ofCode? (n : Int64) : Option ChangeKind := all.find? fun k => k.code == n

theorem ofCode?_code (k : ChangeKind) : ofCode? k.code = some k := by cases k <;> decide

theorem code_of_ofCode? {n : Int64} {k : ChangeKind} (h : ofCode? n = some k) : k.code = n := by
  simpa using List.find?_some h

instance : Rank ChangeKind where
  rank k := k.code.toInt
  rank_injective h :=
    Option.some.inj ((ofCode?_code _).symm.trans
      ((congrArg ofCode? (Int64.toInt_inj.mp h)).trans (ofCode?_code _)))

end ChangeKind

/-- A group of details that a caller can ask for on top of the basic ones. -/
inductive FieldGroup where
  | flags
  | user
  | userId
  | comment
  | patrol
  | sizes
  | logInfo
  | tags
  deriving DecidableEq

namespace FieldGroup

def name : FieldGroup → String
  | flags => "flags"
  | user => "user"
  | userId => "userid"
  | comment => "comment"
  | patrol => "patrol"
  | sizes => "sizes"
  | logInfo => "loginfo"
  | tags => "tags"

def all : List FieldGroup := [flags, user, userId, comment, patrol, sizes, logInfo, tags]

def read : Reader FieldGroup := Reader.choice (all.map fun g => (g.name, g))

def toDocument (g : FieldGroup) : Document := .text g.name

/-- The place in `all`, which is the order of a set of groups. -/
def index : FieldGroup → Int
  | flags => 0
  | user => 1
  | userId => 2
  | comment => 3
  | patrol => 4
  | sizes => 5
  | logInfo => 6
  | tags => 7

theorem getElem?_index (g : FieldGroup) : all[g.index.toNat]? = some g := by cases g <;> rfl

instance : Rank FieldGroup where
  rank := index
  rank_injective {g h} e := by
    have := getElem?_index g
    rw [e, getElem?_index h] at this
    exact (Option.some.inj this).symm

end FieldGroup

/-- A condition on changes that a caller can ask for; each has a counterpart that asks for the
opposite. -/
inductive ChangeFilter where
  | minor
  | notMinor
  | bot
  | notBot
  | anon
  | notAnon
  | patrolled
  | notPatrolled
  | unread
  | notUnread
  deriving DecidableEq

namespace ChangeFilter

def counterpart : ChangeFilter → ChangeFilter
  | minor => notMinor
  | notMinor => minor
  | bot => notBot
  | notBot => bot
  | anon => notAnon
  | notAnon => anon
  | patrolled => notPatrolled
  | notPatrolled => patrolled
  | unread => notUnread
  | notUnread => unread

def tag : ChangeFilter → String
  | minor => "minor"
  | notMinor => "!minor"
  | bot => "bot"
  | notBot => "!bot"
  | anon => "anon"
  | notAnon => "!anon"
  | patrolled => "patrolled"
  | notPatrolled => "!patrolled"
  | unread => "unread"
  | notUnread => "!unread"

/-- Whether the filter asks about patrolling. -/
def isPatrol : ChangeFilter → Bool
  | patrolled | notPatrolled => true
  | _ => false

def all : List ChangeFilter :=
  [minor, notMinor, bot, notBot, anon, notAnon, patrolled, notPatrolled, unread, notUnread]

def read : Reader ChangeFilter := Reader.choice (all.map fun f => (f.tag, f))

def toDocument (f : ChangeFilter) : Document := .text f.tag

/-- The place in `all`, which is the order of a set of filters. -/
def index : ChangeFilter → Int
  | minor => 0
  | notMinor => 1
  | bot => 2
  | notBot => 3
  | anon => 4
  | notAnon => 5
  | patrolled => 6
  | notPatrolled => 7
  | unread => 8
  | notUnread => 9

theorem getElem?_index (f : ChangeFilter) : all[f.index.toNat]? = some f := by cases f <;> rfl

instance : Rank ChangeFilter where
  rank := index
  rank_injective {f g} e := by
    have := getElem?_index f
    rw [e, getElem?_index g] at this
    exact (Option.some.inj this).symm

theorem counterpart_counterpart (f : ChangeFilter) : f.counterpart.counterpart = f := by
  cases f <;> rfl

theorem counterpart_ne (f : ChangeFilter) : f.counterpart ≠ f := by cases f <;> decide

end ChangeFilter

end PageWatch
