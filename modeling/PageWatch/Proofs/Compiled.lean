import PageWatch.Proofs.Growth
import PageWatch.Select.Meaning

/-! Compiled selects: which conditions they carry, how they sort and where they are cut. -/
namespace PageWatch

theorem Term.conditions_of_pushes (x : Executor) (ts : List Term) :
    (ts.map (Term.push x)).flatMap Push.conditions = ts.map (Term.condition x) := by
  have hterm (t : Term) : (t.push x).conditions = [t.condition x] := by cases t <;> rfl
  rw [List.flatMap_map, List.map_eq_flatMap]
  simp only [hterm]

/-- Whether a collaborator worded a part of a fragment. -/
def Fragment.isSupplied : Fragment → Bool
  | host _ => true
  | both a b | either a b | alternative a b => a.isSupplied || b.isSupplied
  | _ => false

def Operand.column? : Operand → Option String
  | column name | masked name _ => some name
  | _ => none

/-- The columns that a fragment reads, as far as it names them. -/
def Fragment.columns : Fragment → List String
  | compare left _ right | same left right => left.column?.toList ++ right.column?.toList
  | isNull column | isNotNull column => [column]
  | both a b | either a b | alternative a b => a.columns ++ b.columns
  | host _ => []

/-- A stored owner is the same number as the owner's id. -/
theorem storedOwner_eq_ok_iff {id : UInt64} {n : Int64} :
    storedOwner id = .ok n ↔ n.toInt = id.toNat := by
  unfold storedOwner
  split
  next hlt =>
    have hid : (Int64.ofNat id.toNat).toInt = id.toNat := Int64.toInt_ofNat_of_lt hlt
    rw [← hid, Int64.toInt_inj, Except.ok.injEq, eq_comm]
  next hge =>
    have := n.toInt_lt
    simp only [reduceCtorEq, false_iff]
    omega

namespace FeedOptions

variable {o : FeedOptions} {c : Collaborators} {x : Executor} {config : SelectConfig} {g : Grant}
  {q : SelectQuery}

/-- The select before anything is pushed. -/
def frame (o : FeedOptions) (config : SelectConfig) : SelectQuery :=
  { caller := config.caller, orderBy := o.orderBy, limit := o.rowCap }

theorem select_eq_ok_iff :
    o.select c x config g = .ok q ↔ ∃ fields owner, o.fields c = .ok fields ∧
      storedOwner g.ownerId = .ok owner ∧
      q = (o.frame config).pushAll (o.sources c ++ fields.map .field
        ++ (o.terms c config x.backend g owner).map (Term.push x)) := by
  unfold select
  cases hf : o.fields c with
  | error e => simp [bind, Except.bind]
  | ok fields =>
    cases ho : storedOwner g.ownerId with
    | error e => simp [bind, Except.bind]
    | ok owner => simp [bind, Except.bind, pure, Except.pure, frame, eq_comm]

theorem conditions_sources (o : FeedOptions) (c : Collaborators) :
    (o.sources c).flatMap Push.conditions = [] := by
  unfold sources
  split <;> split <;> split <;> rfl

/-- The conditions of a compiled select are its terms, in their order and as rendered. -/
theorem conditions_of_select (h : o.select c x config g = .ok q) :
    ∃ owner, storedOwner g.ownerId = .ok owner ∧
      q.conditions = (o.terms c config x.backend g owner).map (Term.condition x) := by
  obtain ⟨fields, owner, _, ho, rfl⟩ := select_eq_ok_iff.mp h
  refine ⟨owner, ho, ?_⟩
  have hfields : (fields.map Push.field).flatMap Push.conditions = [] := by
    simp [List.flatMap_map, Push.conditions]
  rw [SelectQuery.conditions_pushAll, List.flatMap_append, List.flatMap_append, conditions_sources,
    hfields, Term.conditions_of_pushes]
  rfl

theorem orderBy_of_select (h : o.select c x config g = .ok q) : q.orderBy = o.orderBy := by
  obtain ⟨fields, owner, _, _, rfl⟩ := select_eq_ok_iff.mp h
  rw [SelectQuery.pushAll_eq]
  rfl

theorem limit_of_select (h : o.select c x config g = .ok q) : q.limit = o.rowCap := by
  obtain ⟨fields, owner, _, _, rfl⟩ := select_eq_ok_iff.mp h
  rw [SelectQuery.pushAll_eq]
  rfl

/-- How many changes a page may hold. One row more is fetched, so the largest limit holds one
change less than it says. -/
def pageSize? (o : FeedOptions) : Option Nat :=
  o.limit.map fun limit => min limit.toNat (UInt32.size - 2)

/-- One row more is fetched than a page may hold. -/
theorem map_toNat_rowCap (o : FeedOptions) :
    o.rowCap.map UInt32.toNat = o.pageSize?.map (· + 1) := by
  have hclamp (n : UInt32) :
      (UInt32.ofNatClamp (n.toNat + 1)).toNat = min n.toNat (UInt32.size - 2) + 1 := by
    have hlt := n.toNat_lt
    have hsize : UInt32.size = 4294967296 := rfl
    unfold UInt32.ofNatClamp
    split <;> rw [UInt32.toNat_ofNatLT] <;> omega
  unfold rowCap pageSize?
  rw [Option.map_map, Option.map_map]
  exact congrArg (o.limit.map ·) (funext hclamp)

theorem cut_of_select {n : Nat} {rows : List Row} (h : o.select c x config g = .ok q)
    (hsize : o.pageSize? = some n) : q.cut rows = rows.take (n + 1) := by
  have hcap := o.map_toNat_rowCap
  rw [hsize, Option.map_some, Option.map_eq_some_iff] at hcap
  obtain ⟨cap, hcap, hn⟩ := hcap
  simp only [SelectQuery.cut, limit_of_select h, hcap, hn]

theorem cut_of_select_unlimited {rows : List Row} (h : o.select c x config g = .ok q)
    (hsize : o.pageSize? = none) : q.cut rows = rows := by
  have hcap := o.map_toNat_rowCap
  rw [hsize, Option.map_none, Option.map_eq_none_iff] at hcap
  simp only [SelectQuery.cut, limit_of_select h, hcap]

/-- The change is the latest of its page, or a log entry. -/
def latestTerm : Term :=
  .fragment (.either (.same (.column "rc_this_oldid") (.column "page_latest"))
    (.same (.column "rc_type") (.number logCode)))

/-- Where a term after the first comes from. Only filters on anonymity and the rule for an author
are in the words of a collaborator, and only the term of the latest changes reads a page. -/
inductive Origin (o : FeedOptions) (c : Collaborators) (g : Grant) : Term → Prop
  | latest (hall : o.allRevisions = false) : Origin o c g latestTerm
  | anon (hf : .anon ∈ g.filters) :
    Origin o c g (.fragment (.host (c.actors.isAnonymous "rc_user")))
  | notAnon (hf : .notAnon ∈ g.filters) :
    Origin o c g (.fragment (.host (c.actors.isNotAnonymous "rc_user")))
  | author {rule : AuthorRule} (hrule : o.author = some rule) :
    Origin o c g (.contributed (c.actors.whereUser "rc_user" rule.userName) rule.isNegated)
  | equals {column : String} {value : Scalar} (hc : column ≠ "wl_user") :
    Origin o c g (.equals column value)
  | oneOf {column : String} {values : List Scalar} (hc : column ≠ "wl_user") :
    Origin o c g (.oneOf column values)
  | own {f : Fragment} (hf : f.isSupplied = false) (hpage : "page_latest" ∉ f.columns) :
    Origin o c g (.fragment f)

theorem origin_of_mem_terms_tail {backend : Backend} {owner : Int64} {t : Term}
    (h : t ∈ (o.terms c config backend g owner).tail) : o.Origin c g t := by
  simp only [terms, List.cons_append, List.tail_cons, List.mem_append, or_assoc] at h
  rcases h with h | h | h | h | h | h | h | h | h
  · unfold latestTerms at h
    split at h
    next => simp at h
    next hall => exact List.mem_singleton.mp h ▸ .latest (by simpa using hall)
  · unfold namespaceTerms at h
    split at h
    next => simp at h
    next => exact List.mem_singleton.mp h ▸ .oneOf (by decide)
  · unfold kindTerms at h
    split at h
    next => simp at h
    next => exact List.mem_singleton.mp h ▸ .oneOf (by decide)
  · obtain ⟨f, hf, rfl⟩ := List.mem_map.mp h
    cases f with
    | anon => exact .anon (SortedSet.mem_toList.mp hf)
    | notAnon => exact .notAnon (SortedSet.mem_toList.mp hf)
    | notPatrolled => exact .equals (by decide)
    | _ => exact .own rfl (by decide)
  · unfold windowTerms at h
    split at h
    · simp only [List.mem_append, Option.mem_toList, Option.map_eq_some_iff] at h
      rcases h with ⟨bound, _, rfl⟩ | ⟨bound, _, rfl⟩
      all_goals exact .own rfl (by simp [Fragment.columns, Operand.column?])
    · simp at h
  · unfold hintTerms at h
    split at h
    next => exact List.mem_singleton.mp h ▸ .own rfl (by decide)
    next => simp at h
  · unfold authorTerms at h
    split at h
    next rule hrule =>
      rcases List.mem_cons.mp h with rfl | h
      · exact .author hrule
      · obtain ⟨mask, _, rfl⟩ := List.mem_map.mp h
        exact .own rfl (by simp [notHidden, Fragment.columns, Operand.column?])
    next => simp at h
  · obtain ⟨mask, _, rfl⟩ := List.mem_map.mp h
    exact .own rfl (by simp [notHidden, Fragment.columns, Operand.column?])
  · unfold cursorTerms at h
    split at h
    next cursor walk _ _ =>
      obtain rfl := List.mem_singleton.mp h
      exact .own rfl
        (by simp [Position.seek, Cursor.position, Fragment.columns, Operand.column?])
    next => simp at h

theorem origin_of_mem_terms {backend : Backend} {owner : Int64} {t : Term}
    (h : t ∈ o.terms c config backend g owner) :
    t = .equals "wl_user" (.int owner) ∨ o.Origin c g t := by
  rcases List.mem_cons.mp h with h | h
  · exact .inl h
  · have htail : t ∈ (o.terms c config backend g owner).tail := h
    exact .inr (origin_of_mem_terms_tail htail)

/-- Where the select is cut and where it goes on have no part in whether it compiles. -/
theorem exists_select_of_select (h : o.select c x config g = .ok q) (limit : Option UInt32)
    (startFrom : Option Cursor) :
    ∃ q', ({ o with limit, startFrom } : FeedOptions).select c x config g = .ok q' := by
  obtain ⟨fields, owner, hf, ho, rfl⟩ := select_eq_ok_iff.mp h
  exact ⟨_, select_eq_ok_iff.mpr ⟨fields, owner, hf, ho, rfl⟩⟩

/-- The term of a cursor comes last, after all that hold without it. -/
theorem terms_eq_append_cursorTerms (o : FeedOptions) (c : Collaborators) (config : SelectConfig)
    (backend : Backend) (g : Grant) (owner : Int64) (limit : Option UInt32) :
    o.terms c config backend g owner
      = ({ o with limit, startFrom := none } : FeedOptions).terms c config backend g owner
        ++ o.cursorTerms := by
  simp only [terms, List.append_assoc]
  simp [cursorTerms, latestTerms, namespaceTerms, kindTerms, windowTerms, hintTerms, authorTerms]

/-- A cursor adds its condition at the end of those of the select from the beginning. -/
theorem conditions_of_select_resumed {limit : Option UInt32} {q₀ : SelectQuery}
    (h : o.select c x config g = .ok q)
    (h₀ : ({ o with limit, startFrom := none } : FeedOptions).select c x config g = .ok q₀) :
    q.conditions = q₀.conditions ++ o.cursorTerms.map (Term.condition x) := by
  obtain ⟨owner, ho, hq⟩ := conditions_of_select h
  obtain ⟨owner₀, ho₀, hq₀⟩ := conditions_of_select h₀
  obtain rfl : owner = owner₀ := Except.ok.inj (ho.symm.trans ho₀)
  rw [hq, hq₀, o.terms_eq_append_cursorTerms c config x.backend g owner limit, List.map_append]

end FeedOptions

namespace WatchlistOptions

variable {o : WatchlistOptions} {x : Executor} {config : SelectConfig} {ownerId : UInt64}
  {q : SelectQuery}

/-- The select before anything is pushed. -/
def frame (o : WatchlistOptions) (config : SelectConfig) : SelectQuery :=
  { caller := config.caller, orderBy := o.orderBy, limit := o.limit }

theorem select_eq_ok_iff : o.select x config ownerId = .ok q ↔
    ∃ owner, storedOwner ownerId = .ok owner ∧ q = (o.frame config).pushAll
      (.table (.named "watchlist") :: columns.map (fun name => .field (.column name))
        ++ (o.terms owner).map (Term.push x)) := by
  unfold select
  cases ho : storedOwner ownerId with
  | error e => simp [bind, Except.bind]
  | ok owner => simp [bind, Except.bind, pure, Except.pure, frame, eq_comm]

/-- Only the owner's id can stand in the way of a listing. -/
theorem exists_select (o : WatchlistOptions) (x : Executor) (config : SelectConfig)
    (h : ownerId.toNat < 0x8000000000000000) : ∃ q, o.select x config ownerId = .ok q := by
  have howner : storedOwner ownerId = .ok (Int64.ofNat ownerId.toNat) := if_pos h
  exact ⟨_, select_eq_ok_iff.mpr ⟨_, howner, rfl⟩⟩

/-- The conditions of a compiled listing are its terms, in their order and as rendered. -/
theorem conditions_of_select (h : o.select x config ownerId = .ok q) :
    ∃ owner, storedOwner ownerId = .ok owner ∧
      q.conditions = (o.terms owner).map (Term.condition x) := by
  obtain ⟨owner, ho, rfl⟩ := select_eq_ok_iff.mp h
  refine ⟨owner, ho, ?_⟩
  rw [SelectQuery.conditions_pushAll, List.flatMap_append, Term.conditions_of_pushes]
  rfl

theorem orderBy_of_select (h : o.select x config ownerId = .ok q) : q.orderBy = o.orderBy := by
  obtain ⟨owner, _, rfl⟩ := select_eq_ok_iff.mp h
  rw [SelectQuery.pushAll_eq]
  rfl

theorem limit_of_select (h : o.select x config ownerId = .ok q) : q.limit = o.limit := by
  obtain ⟨owner, _, rfl⟩ := select_eq_ok_iff.mp h
  rw [SelectQuery.pushAll_eq]
  rfl

end WatchlistOptions

end PageWatch
