import PageWatch.Proofs.Compiled
import PageWatch.Proofs.Seek

/-! Terms: which rows each group of conditions of the change feed lets through. -/
namespace PageWatch

theorem oneOfTruth_eq_holds_iff {r : Row} {column : String} {values : List Scalar} :
    oneOfTruth r column values = .holds ↔
      ∃ v ∈ values, Comparison.eq.truth (r.cell column) v = .holds := by
  induction values with
  | nil => simp [oneOfTruth]
  | cons v values ih =>
    have hcons : oneOfTruth r column (v :: values)
        = (Comparison.eq.truth (r.cell column) v).or (oneOfTruth r column values) := rfl
    rw [hcons, Truth.or_eq_holds_iff, ih]
    simp

/-- Terms that hold of a row, all of them. -/
def Term.AllHold (m : Meaning) (r : Row) (ts : List Term) : Prop :=
  ∀ t ∈ ts, t.truth m r = .holds

/-- A select accepts a row when all its terms hold of the row, if their texts are understood. -/
theorem Term.accepts_iff_allHold {q : SelectQuery} {ts : List Term} {x : Executor} {m : Meaning}
    {r : Row} (hq : q.conditions = ts.map (condition x))
    (hread : ∀ t ∈ ts, m.UnderstandsTerm x t) : q.accepts m r = true ↔ AllHold m r ts := by
  rw [SelectQuery.accepts_eq_true_iff, hq]
  simp only [List.forall_mem_map]
  exact forall₂_congr fun t ht => by rw [Meaning.reads_of_understands (hread t ht) r]

/-- Without namespaces, every namespace will do. -/
theorem Term.allHold_namespaces {m : Meaning} {r : Row} {ns : SortedSet Int32} :
    AllHold m r (if ns.isEmpty then [] else [.oneOf "wl_namespace" (ns.toList.map Scalar.ofInt32)])
      ↔ ns.toList = [] ∨ ∃ n ∈ ns, r.cell "wl_namespace" = .ofInt32 n := by
  unfold AllHold SortedSet.isEmpty
  by_cases hn : ns.toList = []
  · simp [hn]
  · simp [hn, truth, oneOfTruth_eq_holds_iff, Scalar.ofInt32, Comparison.truth_eq_int,
      SortedSet.mem_toList]

/-- What a filter asks of a change. -/
def ChangeFilter.Holds (c : Collaborators) (m : Meaning) (r : Row) : ChangeFilter → Prop
  | minor => r.cell "rc_minor" ≠ .null ∧ r.cell "rc_minor" ≠ .int 0
  | notMinor => r.cell "rc_minor" = .int 0
  | bot => r.cell "rc_bot" ≠ .null ∧ r.cell "rc_bot" ≠ .int 0
  | notBot => r.cell "rc_bot" = .int 0
  | anon => m.truth (c.actors.isAnonymous "rc_user") r = .holds
  | notAnon => m.truth (c.actors.isNotAnonymous "rc_user") r = .holds
  | patrolled => r.cell "rc_patrolled" ≠ .null ∧ r.cell "rc_patrolled" ≠ .int 0
  | notPatrolled => r.cell "rc_patrolled" = .int 0
  | unread => r.cell "wl_notificationtimestamp" ≠ .null ∧
      r.cell "wl_notificationtimestamp" ≤ r.cell "rc_timestamp"
  | notUnread => r.cell "wl_notificationtimestamp" = .null ∨
      r.cell "rc_timestamp" < r.cell "wl_notificationtimestamp"

/-- The deletion bits of a change are known, and lack some bit of a mask. -/
def Record.Lacks (r : Row) (mask : UInt32) : Prop :=
  ∃ n : Int64, r.cell "rc_deleted" = .int n ∧
    n &&& Int64.ofNat mask.toNat ≠ Int64.ofNat mask.toNat

namespace FeedOptions

variable {o : FeedOptions} {c : Collaborators} {x : Executor} {config : SelectConfig} {g : Grant}
  {q : SelectQuery} {m : Meaning} {r : Row}

/-- A compiled select accepts a row when its terms hold of the row, if their texts are
understood. -/
theorem accepts_eq_true_iff (h : o.select c x config g = .ok q)
    (hread : ∀ owner, ∀ t ∈ o.terms c config x.backend g owner, m.UnderstandsTerm x t) :
    q.accepts m r = true ↔ ∃ owner, storedOwner g.ownerId = .ok owner ∧
      Term.AllHold m r (o.terms c config x.backend g owner) := by
  obtain ⟨owner, howner, hq⟩ := conditions_of_select h
  rw [Term.accepts_iff_allHold hq (hread owner), howner]
  simp

theorem allHold_latestTerms : Term.AllHold m r o.latestTerms ↔ o.allRevisions = true ∨
    (r.cell "rc_this_oldid" ≠ .null ∧ r.cell "rc_this_oldid" = r.cell "page_latest") ∨
      r.cell "rc_type" = .int 3 := by
  have hlog : Operand.value m r (.number logCode) = .int 3 := rfl
  unfold Term.AllHold latestTerms
  cases o.allRevisions with
  | true => simp
  | false =>
    simp only [Bool.false_eq_true, if_false, List.forall_mem_singleton, Term.truth, Fragment.truth,
      Truth.or_eq_holds_iff, hlog, Operand.value_column, Comparison.truth_eq_int, false_or]
    rw [Comparison.truth_eq]

theorem allHold_namespaceTerms : Term.AllHold m r o.namespaceTerms ↔
    o.namespaces.toList = [] ∨ ∃ n ∈ o.namespaces, r.cell "wl_namespace" = .ofInt32 n :=
  Term.allHold_namespaces

theorem allHold_kindTerms : Term.AllHold m r o.kindTerms ↔
    o.kinds.toList = [] ∨ ∃ k ∈ o.kinds, r.cell "rc_type" = .int k.code := by
  unfold Term.AllHold kindTerms SortedSet.isEmpty
  by_cases hk : o.kinds.toList = []
  · simp [hk]
  · simp [hk, Term.truth, oneOfTruth_eq_holds_iff, Comparison.truth_eq_int, SortedSet.mem_toList]

/-- Every timestamp passes the hint. -/
theorem allHold_hintTerms {backend : Backend} {t : String} (ht : r.cell "rc_timestamp" = .text t)
    (hne : t ≠ "") : Term.AllHold m r (o.hintTerms config backend) := by
  have hhint : Comparison.gt.truth (.text t) (.text "") = .holds := by
    rw [Comparison.truth_eq_holds_iff, Comparison.test_gt]
    refine ⟨by simp, by simp, lt_of_not_ge fun hle => hne ?_⟩
    simp only [Scalar.le_iff, Scalar.le, decide_eq_true_eq] at hle
    exact String.le_antisymm hle
      (String.not_lt.mp fun hlt => List.not_lt_nil _ (String.lt_iff.mp hlt))
  unfold Term.AllHold hintTerms
  split
  · simpa [Term.truth, Fragment.truth, Operand.value, ht] using hhint
  · simp

theorem truth_filterTerm (f : ChangeFilter) (ht : r.cell "rc_timestamp" ≠ .null) :
    (filterTerm c f).truth m r = .holds ↔ f.Holds c m r := by
  have hzero : Operand.value m r (.number 0) = .int 0 := rfl
  cases f with
  | unread =>
    simp only [filterTerm, Term.truth, Fragment.truth, Operand.value_column, ChangeFilter.Holds]
    rw [Comparison.truth_eq_holds_iff, Comparison.test_ge]
    simp [ht]
  | notUnread =>
    simp only [filterTerm, Term.truth, Fragment.truth, Operand.value_column, ChangeFilter.Holds,
      Truth.or_eq_holds_iff, Truth.ofBool_eq_holds_iff, decide_eq_true_eq]
    rw [Comparison.truth_eq_holds_iff, Comparison.test_lt]
    by_cases hw : r.cell "wl_notificationtimestamp" = .null
    · simp [hw]
    · simp [hw, ht]
  | _ => simp [filterTerm, Term.truth, Fragment.truth, Operand.value_column, ChangeFilter.Holds,
      hzero, Comparison.truth_eq_int, Comparison.truth_ne_int]

/-- The bounds hold of what lies between them, seen in the direction of the walk. -/
theorem allHold_windowTerms : Term.AllHold m r o.windowTerms ↔ ∀ w ∈ o.walk,
    (∀ t ∈ o.window.start, w.sortOrder.Reaches (r.cell "rc_timestamp") (m.stored t)) ∧
      ∀ t ∈ o.window.stop, w.sortOrder.reversed.Reaches (r.cell "rc_timestamp") (m.stored t) := by
  have hmoment (t : String) : Operand.value m r (.moment t) = m.stored t := rfl
  unfold Term.AllHold windowTerms
  cases o.walk with
  | none => simp
  | some w =>
    cases o.window.start <;> cases o.window.stop <;>
      simp [Term.truth, Fragment.truth, Operand.value_column, hmoment, SortOrder.truth_atOrPast]

theorem truth_notHidden {mask : UInt32} :
    (notHidden mask).truth m r = .holds ↔ r.Lacks mask := by
  have hmask : Operand.value m r (.number mask.toNat) = .int (Int64.ofNat mask.toNat) := by
    rw [Operand.value, Int64.ofInt_eq_ofNat]
  have hcell : Operand.value m r (.masked "rc_deleted" mask)
      = (r.cell "rc_deleted").masked mask := rfl
  simp only [notHidden, Fragment.truth, hmask, hcell, Comparison.truth_ne_int, Record.Lacks]
  cases r.cell "rc_deleted" <;> simp [Scalar.masked]

theorem allHold_authorTerms {v : Visibility} : Term.AllHold m r (o.authorTerms c v) ↔
    ∀ rule ∈ o.author, (m.truth (c.actors.whereUser "rc_user" rule.userName).condition r
        = if rule.isNegated then .fails else .holds) ∧
      ∀ mask ∈ v.authorMask, r.Lacks mask := by
  unfold Term.AllHold authorTerms
  cases o.author with
  | none => simp
  | some rule =>
    cases rule <;>
      simp [Term.truth, truth_notHidden, AuthorRule.isNegated, Truth.not_eq_holds_iff]

theorem allHold_logTerms {v : Visibility} : Term.AllHold m r (logTerms v) ↔
    ∀ mask ∈ v.logActionMask,
      (r.cell "rc_type" ≠ .null ∧ r.cell "rc_type" ≠ .int 3) ∨ r.Lacks mask := by
  have hlog : Operand.value m r (.number logCode) = .int 3 := rfl
  unfold Term.AllHold logTerms
  simp [Term.truth, Fragment.truth, Truth.or_eq_holds_iff, truth_notHidden, hlog,
    Operand.value_column, Comparison.truth_ne_int]

theorem allHold_cursorTerms (ht : r.cell "rc_timestamp" ≠ .null) :
    Term.AllHold m r o.cursorTerms ↔
      ∀ cur ∈ o.startFrom, ∀ w ∈ o.walk, cur.Reached w.sortOrder m r := by
  unfold Term.AllHold cursorTerms
  cases o.startFrom with
  | none => simp
  | some cur =>
    cases o.walk with
    | none => simp
    | some w => simp [Term.truth, Cursor.seek_eq_holds_iff ht]

/-- All the terms of a select hold when those of each group do. -/
theorem allHold_terms {backend : Backend} {owner : Int64} :
    Term.AllHold m r (o.terms c config backend g owner) ↔
      r.cell "wl_user" = .int owner ∧ Term.AllHold m r o.latestTerms ∧
      Term.AllHold m r o.namespaceTerms ∧ Term.AllHold m r o.kindTerms ∧
      (∀ f ∈ g.filters, (filterTerm c f).truth m r = .holds) ∧
      Term.AllHold m r o.windowTerms ∧ Term.AllHold m r (o.hintTerms config backend) ∧
      Term.AllHold m r (o.authorTerms c g.visibility) ∧ Term.AllHold m r (logTerms g.visibility) ∧
      Term.AllHold m r o.cursorTerms := by
  simp only [Term.AllHold, terms, List.cons_append, List.forall_mem_cons, List.forall_mem_append,
    List.forall_mem_map, Term.truth, Comparison.truth_eq_int, SortedSet.mem_toList, and_assoc]

end FeedOptions

end PageWatch
