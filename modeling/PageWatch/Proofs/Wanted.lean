import PageWatch.Host.InMemory
import PageWatch.Proofs.Pages
import PageWatch.Proofs.Stages
import PageWatch.Proofs.Terms
import PageWatch.Proofs.Validated

/-! Wanted changes: a compiled select accepts the rows that its request asks for, and no others. -/
namespace PageWatch

/-- An integer of 32 bits that a raw value is, read tolerantly. -/
def Scalar.IsNamespace (v : Scalar) (n : Int64) : Prop :=
  v.coerceInt = some n ∧ Int32.minValue.toInt ≤ n.toInt ∧ n.toInt ≤ Int32.maxValue.toInt

theorem toInt64_of_namespaceId? {n : Int64} {i : Int32} (h : namespaceId? n = some i) :
    i.toInt64 = n := by
  unfold namespaceId? at h
  split at h
  next hrange =>
    cases h
    rw [Int32.toInt_minValue, Int32.toInt_maxValue] at hrange
    apply Int64.toInt_inj.mp
    rw [Int32.toInt_toInt64, Int64.toInt_toInt32]
    exact Int.bmod_eq_of_le (by omega) (by omega)
  next => cases h

theorem Scalar.isNamespace_iff {v : Scalar} {n : Int64} :
    v.IsNamespace n ↔ ∃ i : Int32, v.toNamespace? = some i ∧ i.toInt64 = n := by
  unfold IsNamespace toNamespace?
  cases v.coerceInt with
  | none => simp
  | some k =>
    simp only [Option.some.injEq, Option.bind_some]
    constructor
    · rintro ⟨rfl, hrange⟩
      have hid : namespaceId? k = some k.toInt32 := if_pos hrange
      exact ⟨_, hid, toInt64_of_namespaceId? hid⟩
    · rintro ⟨i, hi, rfl⟩
      have hk := toInt64_of_namespaceId? hi
      rw [Int32.toInt_toInt64]
      exact ⟨hk.symm, i.minValue_le_toInt, i.toInt_le⟩

theorem Scalar.isNamespace_toInt64_iff {v : Scalar} {i : Int32} :
    v.IsNamespace i.toInt64 ↔ v.toNamespace? = some i := by
  rw [isNamespace_iff]
  constructor
  · rintro ⟨i', hi', hsame⟩
    obtain rfl : i' = i := by
      rw [← Int32.toInt_inj, ← Int32.toInt_toInt64 i', hsame, Int32.toInt_toInt64]
    exact hi'
  · intro hi
    exact ⟨i, hi, rfl⟩

/-- A namespace is read among raw values exactly if one of them is its number. -/
theorem mem_readNamespaces_iff {raw : List Scalar} {i : Int32} :
    i ∈ readNamespaces raw ↔ ∃ v ∈ raw, v.IsNamespace i.toInt64 := by
  simp only [readNamespaces, SortedSet.mem_ofList, List.mem_filterMap,
    Scalar.isNamespace_toInt64_iff]

theorem Scalar.IsNamespace.exists_toInt64 {v : Scalar} {n : Int64} (h : v.IsNamespace n) :
    ∃ i : Int32, i.toInt64 = n := by
  obtain ⟨i, _, hi⟩ := Scalar.isNamespace_iff.mp h
  exact ⟨i, hi⟩

/-- The numbers of the namespaces are those that are read among the raw values. -/
theorem exists_mem_readNamespaces_iff {raw : List Scalar} {w : Scalar} :
    (∃ i ∈ readNamespaces raw, w = .ofInt32 i) ↔
      ∃ v ∈ raw, ∃ n, v.IsNamespace n ∧ w = .int n := by
  simp only [mem_readNamespaces_iff]
  constructor
  · rintro ⟨i, ⟨v, hv, hn⟩, hw⟩
    exact ⟨v, hv, i.toInt64, hn, hw⟩
  · rintro ⟨v, hv, n, hn, hw⟩
    obtain ⟨i, rfl⟩ := hn.exists_toInt64
    exact ⟨i, ⟨v, hv, hn⟩, hw⟩

/-- What is asked of a namespace, in terms of the raw values that it is asked by. -/
theorem readNamespaces_iff {raw : List Scalar} {w : Scalar} :
    (readNamespaces raw).toList = [] ∨ (∃ i ∈ readNamespaces raw, w = .ofInt32 i) ↔
      (∀ v ∈ raw, ∀ n, ¬ v.IsNamespace n) ∨ ∃ v ∈ raw, ∃ n, v.IsNamespace n ∧ w = .int n := by
  refine or_congr ?_ exists_mem_readNamespaces_iff
  rw [List.eq_nil_iff_forall_not_mem]
  simp only [SortedSet.mem_toList, mem_readNamespaces_iff]
  constructor
  · intro hnone v hv n hn
    obtain ⟨i, rfl⟩ := hn.exists_toInt64
    exact hnone i ⟨v, hv, hn⟩
  · rintro hnone i ⟨v, hv, hn⟩
    exact hnone v hv _ hn

theorem Scalar.toKind?_eq_some_iff {v : Scalar} {k : ChangeKind} :
    v.toKind? = some k ↔ v.exactInt = some k.code := by
  unfold toKind?
  rw [Option.bind_eq_some_iff]
  constructor
  · rintro ⟨n, hn, hk⟩
    rw [hn, ChangeKind.code_of_ofCode? hk]
  · intro hv
    exact ⟨k.code, hv, k.ofCode?_code⟩

namespace Access

variable (c : Collaborators) (user : User)

/-- The bits that hide something of a change from a user, where a bit stands for what is hidden.
The restriction counts for those who see deleted history, and nothing is hidden from those who see
what is suppressed as well. -/
def hidingMask (bit : UInt32) : Option UInt32 :=
  if c.permissions.isAllowed user .deletedHistory then
    if c.permissions.isAllowedAny user [.suppressRevision, .viewSuppressed] then none
    else some (bit ||| deletedRestricted)
  else some bit

/-- What a bit of a change stands for is not hidden from a user. -/
def Shows (bit : UInt32) (r : Row) : Prop := ∀ mask ∈ hidingMask c user bit, r.Lacks mask

theorem authorMask_visibility : (visibility c user).authorMask = hidingMask c user deletedUser := by
  unfold visibility hidingMask
  cases c.permissions.isAllowed user .deletedHistory <;>
    cases c.permissions.isAllowedAny user [.suppressRevision, .viewSuppressed] <;> rfl

theorem logActionMask_visibility :
    (visibility c user).logActionMask = hidingMask c user deletedAction := by
  unfold visibility hidingMask
  cases c.permissions.isAllowed user .deletedHistory <;>
    cases c.permissions.isAllowedAny user [.suppressRevision, .viewSuppressed] <;> rfl

end Access

namespace FeedRequest

/-- What a request says along the walk that it names: one thing for the walk to older changes,
another for the one to newer changes. -/
def Along (request : FeedRequest) (older newer : Prop) : Prop :=
  (request.walk = some "older" ∧ older) ∨ (request.walk = some "newer" ∧ newer)

/-- What is asked for along either walk can be asked for apart from it. -/
theorem along_and_iff {request : FeedRequest} {p older newer : Prop} :
    request.Along (p ∧ older) (p ∧ newer) ↔ p ∧ request.Along older newer := by
  unfold Along
  tauto

/-- A row that a request asks for, on behalf of an acting user and from a raw cursor on, in the
watchlist of an owner. A walk to older changes goes back in time from the start to the end, and one
to newer changes goes forward; both go on at the change that a cursor points at, and of the changes
of its time with those further on by number. A filter on patrolling counts for users with one of the
two rights to patrol. -/
structure Wants (request : FeedRequest) (c : Collaborators) (user : User)
    (cursor : Option (List Scalar)) (owner : UInt64) (m : Meaning) (r : Row) : Prop where
  owner : ∃ n : Int64, r.cell "wl_user" = .int n ∧ n.toInt = owner.toNat
  latest : request.allRevisions = true ∨
    (r.cell "rc_this_oldid" ≠ .null ∧ r.cell "rc_this_oldid" = r.cell "page_latest") ∨
      r.cell "rc_type" = .int 3
  namespaces : (∀ v ∈ request.namespaces, ∀ n, ¬ v.IsNamespace n) ∨
    ∃ v ∈ request.namespaces, ∃ n, v.IsNamespace n ∧ r.cell "wl_namespace" = .int n
  kinds : request.kinds.getD [] = [] ∨
    ∃ v ∈ request.kinds.getD [], ∃ n, v.exactInt = some n ∧ r.cell "rc_type" = .int n
  filters : ∀ f ∈ request.filters, (f = .patrolled ∨ f = .notPatrolled →
    c.permissions.usesChangePatrol user = true ∨ c.permissions.usesPagePatrol user = true) →
      f.Holds c m r
  start : ∀ t ∈ request.start, request.Along
    ((r.cell "rc_timestamp").AtMost (m.stored t)) ((m.stored t).AtMost (r.cell "rc_timestamp"))
  stop : ∀ t ∈ request.stop, request.Along
    ((m.stored t).AtMost (r.cell "rc_timestamp")) ((r.cell "rc_timestamp").AtMost (m.stored t))
  onlyBy : ∀ name ∈ request.onlyBy,
    m.truth (c.actors.whereUser "rc_user" name).condition r = .holds
  notBy : ∀ name ∈ request.notBy,
    m.truth (c.actors.whereUser "rc_user" name).condition r = .fails
  author : request.onlyBy.isSome = true ∨ request.notBy.isSome = true →
    Access.Shows c user deletedUser r
  logAction : (r.cell "rc_type" ≠ .null ∧ r.cell "rc_type" ≠ .int 3) ∨
    Access.Shows c user deletedAction r
  reached : ∀ raw ∈ cursor, ∃ (timestamp id : Scalar) (t : String), raw = [timestamp, id] ∧
    timestamp.render = some t ∧ m.stored t ≠ .null ∧ request.Along
      (r.cell "rc_timestamp" < m.stored t ∨ (r.cell "rc_timestamp" = m.stored t ∧
        (r.cell "rc_id").AtMost (.int (id.coerceInt.getD 0))))
      (m.stored t < r.cell "rc_timestamp" ∨ (r.cell "rc_timestamp" = m.stored t ∧
        (Scalar.int (id.coerceInt.getD 0)).AtMost (r.cell "rc_id")))

end FeedRequest

namespace Cursor

variable {c : Cursor} {m : Meaning} {r : Row}

theorem reached_older_iff : c.Reached Walk.older.sortOrder m r ↔ m.stored c.timestamp ≠ .null ∧
    (r.cell "rc_timestamp" < m.stored c.timestamp ∨
      r.cell "rc_timestamp" = m.stored c.timestamp ∧
        (r.cell "rc_id").AtMost (.int c.changeId)) := by
  rw [← SortOrder.reaches_descending_iff]
  rfl

theorem reached_newer_iff : c.Reached Walk.newer.sortOrder m r ↔ m.stored c.timestamp ≠ .null ∧
    (m.stored c.timestamp < r.cell "rc_timestamp" ∨
      r.cell "rc_timestamp" = m.stored c.timestamp ∧
        (Scalar.int c.changeId).AtMost (r.cell "rc_id")) := by
  rw [← SortOrder.reaches_ascending_iff]
  rfl

theorem ofRaw_eq_ok_iff {raw : List Scalar} : ofRaw raw = .ok c ↔
    ∃ (timestamp id : Scalar) (t : String), raw = [timestamp, id] ∧ timestamp.render = some t ∧
      c = ⟨t, id.coerceInt.getD 0⟩ := by
  constructor
  · intro h
    unfold ofRaw at h
    split at h
    next timestamp id =>
      cases ht : timestamp.render with
      | none => simp [ht] at h
      | some t =>
        simp only [ht, Except.ok.injEq] at h
        exact ⟨timestamp, id, t, rfl, ht, h.symm⟩
    next => cases h
  · rintro ⟨timestamp, id, t, rfl, ht, rfl⟩
    simp [ofRaw, ht]

end Cursor

namespace FeedRequest.Validated

variable {request : FeedRequest} {user : User} {cursor : Option (List Scalar)} {o : FeedOptions}
  {c : Collaborators} {m : Meaning} {r : Row}

theorem namespaces_iff (h : request.Validated user cursor o) :
    Term.AllHold m r o.namespaceTerms ↔
      (∀ v ∈ request.namespaces, ∀ n, ¬ v.IsNamespace n) ∨
        ∃ v ∈ request.namespaces, ∃ n, v.IsNamespace n ∧ r.cell "wl_namespace" = .int n := by
  rw [FeedOptions.allHold_namespaceTerms, h.namespaces, readNamespaces_iff]

theorem kinds_read (h : request.Validated user cursor o) :
    ∃ ks, List.Forall₂ (fun (v : Scalar) (k : ChangeKind) => v.exactInt = some k.code)
        (request.kinds.getD []) ks ∧ o.kinds = .ofList ks := by
  have hread := h.kinds
  unfold readKinds at hread
  cases hkinds : request.kinds with
  | none =>
    simp only [hkinds, Except.ok.injEq] at hread
    exact ⟨[], .nil, hread.symm⟩
  | some raw =>
    simp only [hkinds] at hread
    cases hks : raw.mapM readKind with
    | error e => simp [hks, Except.map] at hread
    | ok ks =>
      simp only [hks, Except.map, Except.ok.injEq] at hread
      refine ⟨ks, (mapM_eq_ok_iff.mp hks).imp fun v k hk => ?_, hread.symm⟩
      rw [← Scalar.toKind?_eq_some_iff]
      unfold readKind at hk
      cases hv : v.toKind? <;> simp_all

/-- The kinds are those whose codes are read among the raw values. -/
theorem mem_kinds_iff (h : request.Validated user cursor o) {k : ChangeKind} :
    k ∈ o.kinds ↔ ∃ v ∈ request.kinds.getD [], v.exactInt = some k.code := by
  obtain ⟨ks, hks, hset⟩ := h.kinds_read
  rw [hset, SortedSet.mem_ofList]
  constructor
  · intro hk
    obtain ⟨v, hv, hcode⟩ := exists_of_forall₂ hks.flip k hk
    exact ⟨v, hv, hcode⟩
  · rintro ⟨v, hv, hcode⟩
    obtain ⟨k', hk', hcode'⟩ := exists_of_forall₂ hks v hv
    rw [← Scalar.toKind?_eq_some_iff] at hcode hcode'
    obtain rfl : k = k' := Option.some.inj (hcode.symm.trans hcode')
    exact hk'

/-- The codes of the kinds are those that are read among the raw values. -/
theorem exists_mem_kinds_iff (h : request.Validated user cursor o) {w : Scalar} :
    (∃ k ∈ o.kinds, w = .int k.code) ↔
      ∃ v ∈ request.kinds.getD [], ∃ n, v.exactInt = some n ∧ w = .int n := by
  obtain ⟨ks, hks, hset⟩ := h.kinds_read
  simp only [hset, SortedSet.mem_ofList]
  constructor
  · rintro ⟨k, hk, hw⟩
    obtain ⟨v, hv, hcode⟩ := exists_of_forall₂ hks.flip k hk
    exact ⟨v, hv, k.code, hcode, hw⟩
  · rintro ⟨v, hv, n, hn, hw⟩
    obtain ⟨k, hk, hcode⟩ := exists_of_forall₂ hks v hv
    rw [hn, Option.some.injEq] at hcode
    exact ⟨k, hk, hcode ▸ hw⟩

theorem kinds_iff (h : request.Validated user cursor o) :
    Term.AllHold m r o.kindTerms ↔ request.kinds.getD [] = [] ∨
      ∃ v ∈ request.kinds.getD [], ∃ n, v.exactInt = some n ∧ r.cell "rc_type" = .int n := by
  rw [FeedOptions.allHold_kindTerms]
  refine or_congr ?_ h.exists_mem_kinds_iff
  obtain ⟨ks, hks, hset⟩ := h.kinds_read
  rw [List.eq_nil_iff_forall_not_mem]
  simp only [SortedSet.mem_toList, hset, SortedSet.mem_ofList]
  rw [← List.eq_nil_iff_forall_not_mem]
  constructor
  · rintro rfl
    exact List.forall₂_nil_right_iff.mp hks
  · intro hraw
    rw [hraw] at hks
    exact List.forall₂_nil_left_iff.mp hks

theorem filters_iff (h : request.Validated user cursor o) (ht : r.cell "rc_timestamp" ≠ .null) :
    (∀ f ∈ o.filters.filter (Access.honors c user),
        (FeedOptions.filterTerm c f).truth m r = .holds) ↔
      ∀ f ∈ request.filters, (f = .patrolled ∨ f = .notPatrolled →
        c.permissions.usesChangePatrol user = true ∨ c.permissions.usesPagePatrol user = true) →
          f.Holds c m r := by
  have hhonors (f : ChangeFilter) : Access.honors c user f = true ↔
      (f = .patrolled ∨ f = .notPatrolled →
        c.permissions.usesChangePatrol user = true ∨
          c.permissions.usesPagePatrol user = true) := by
    cases f <;> simp [Access.honors, Access.canPatrol, ChangeFilter.isPatrol]
  simp only [SortedSet.mem_filter, h.filters_eq, SortedSet.mem_ofList, hhonors,
    FeedOptions.truth_filterTerm _ ht, and_imp]

/-- Options that name a walk name the one that their request names. -/
theorem forall_walk_iff_along {p : Walk → Prop} (h : request.Validated user cursor o)
    (hp : request.isPositioned cursor = true) :
    (∀ w ∈ o.walk, p w) ↔ request.Along (p .older) (p .newer) := by
  rw [h.forall_walk_iff hp, Along]
  constructor
  · rintro ⟨w, hw, hpw⟩
    cases w with
    | older => exact .inl ⟨hw, hpw⟩
    | newer => exact .inr ⟨hw, hpw⟩
  · rintro (⟨hw, hpw⟩ | ⟨hw, hpw⟩)
    · exact ⟨.older, hw, hpw⟩
    · exact ⟨.newer, hw, hpw⟩

/-- A start bounds the changes of a walk on the side from which it comes. -/
theorem forall_reaches_iff {v w : Scalar} (h : request.Validated user cursor o)
    (hp : request.isPositioned cursor = true) :
    (∀ walk ∈ o.walk, walk.sortOrder.Reaches v w) ↔
      request.Along (v.AtMost w) (w.AtMost v) := by
  rw [h.forall_walk_iff_along hp, Walk.sortOrder, Walk.sortOrder,
    SortOrder.reaches_descending_iff, SortOrder.reaches_ascending_iff]

/-- An end bounds them on the side to which it goes. -/
theorem forall_reversed_reaches_iff {v w : Scalar} (h : request.Validated user cursor o)
    (hp : request.isPositioned cursor = true) :
    (∀ walk ∈ o.walk, walk.sortOrder.reversed.Reaches v w) ↔
      request.Along (w.AtMost v) (v.AtMost w) := by
  rw [h.forall_walk_iff_along hp, Walk.sortOrder, Walk.sortOrder, SortOrder.reversed,
    SortOrder.reversed, SortOrder.reaches_ascending_iff, SortOrder.reaches_descending_iff]

theorem window_iff (h : request.Validated user cursor o) :
    Term.AllHold m r o.windowTerms ↔
      (∀ t ∈ request.start, request.Along ((r.cell "rc_timestamp").AtMost (m.stored t))
        ((m.stored t).AtMost (r.cell "rc_timestamp"))) ∧
      ∀ t ∈ request.stop, request.Along ((m.stored t).AtMost (r.cell "rc_timestamp"))
        ((r.cell "rc_timestamp").AtMost (m.stored t)) := by
  have hstart {t : String} (ht : t ∈ request.start) : request.isPositioned cursor = true := by
    simp [isPositioned, Option.mem_def.mp ht]
  have hstop {t : String} (ht : t ∈ request.stop) : request.isPositioned cursor = true := by
    simp [isPositioned, Option.mem_def.mp ht]
  rw [FeedOptions.allHold_windowTerms, h.window]
  constructor
  · intro hall
    refine ⟨fun t ht => ?_, fun t ht => ?_⟩
    · exact (h.forall_reaches_iff (hstart ht)).mp fun w hw => (hall w hw).1 t ht
    · exact (h.forall_reversed_reaches_iff (hstop ht)).mp fun w hw => (hall w hw).2 t ht
  · rintro ⟨hfrom, huntil⟩ w hw
    refine ⟨fun t ht => ?_, fun t ht => ?_⟩
    · exact (h.forall_reaches_iff (hstart ht)).mpr (hfrom t ht) w hw
    · exact (h.forall_reversed_reaches_iff (hstop ht)).mpr (huntil t ht) w hw

theorem author_iff (h : request.Validated user cursor o) :
    Term.AllHold m r (o.authorTerms c (Access.visibility c user)) ↔
      (∀ name ∈ request.onlyBy,
        m.truth (c.actors.whereUser "rc_user" name).condition r = .holds) ∧
      (∀ name ∈ request.notBy,
        m.truth (c.actors.whereUser "rc_user" name).condition r = .fails) ∧
      (request.onlyBy.isSome = true ∨ request.notBy.isSome = true →
        Access.Shows c user deletedUser r) := by
  rw [FeedOptions.allHold_authorTerms, Access.authorMask_visibility]
  rcases readAuthor_eq_ok_iff.mp h.author with ⟨honly, hnot, ho⟩ | ⟨_, honly, hnot, ho⟩ |
    ⟨_, honly, hnot, ho⟩ <;>
    simp [honly, hnot, ho, AuthorRule.userName, AuthorRule.isNegated, Access.Shows]

theorem reached_iff (h : request.Validated user cursor o) (ht : r.cell "rc_timestamp" ≠ .null) :
    Term.AllHold m r o.cursorTerms ↔
      ∀ raw ∈ cursor, ∃ (timestamp id : Scalar) (t : String), raw = [timestamp, id] ∧
        timestamp.render = some t ∧ m.stored t ≠ .null ∧ request.Along
          (r.cell "rc_timestamp" < m.stored t ∨ (r.cell "rc_timestamp" = m.stored t ∧
            (r.cell "rc_id").AtMost (.int (id.coerceInt.getD 0))))
          (m.stored t < r.cell "rc_timestamp" ∨ (r.cell "rc_timestamp" = m.stored t ∧
            (Scalar.int (id.coerceInt.getD 0)).AtMost (r.cell "rc_id"))) := by
  rw [FeedOptions.allHold_cursorTerms ht]
  cases cursor with
  | none => simp [h.startFrom_none]
  | some raw =>
    have hp : request.isPositioned (some raw) = true := by simp [isPositioned]
    obtain ⟨_, _, cur, hraw, hfrom⟩ := h.of_resumed
    obtain ⟨timestamp, id, t, rfl, htext, rfl⟩ := Cursor.ofRaw_eq_ok_iff.mp hraw
    simp only [hfrom, Option.mem_some_iff, forall_eq']
    rw [h.forall_walk_iff_along hp, Cursor.reached_older_iff, Cursor.reached_newer_iff,
      along_and_iff]
    constructor
    · intro hreached
      exact ⟨timestamp, id, t, rfl, htext, hreached⟩
    · rintro ⟨timestamp', id', t', hsame, htext', hreached⟩
      cases hsame
      rw [htext, Option.some.injEq] at htext'
      exact htext' ▸ hreached

end FeedRequest.Validated

namespace FeedOptions

variable {request : FeedRequest} {user : User} {cursor : Option (List Scalar)} {o : FeedOptions}
  {c : Collaborators} {x : Executor} {config : SelectConfig} {g : Grant} {q : SelectQuery}
  {m : Meaning} {r : Row}

/-- A compiled select means what its request says: it accepts a row exactly if the request asks
for the row in the list of the owner whose list is read. -/
theorem accepts_iff_wants (hvalid : request.validate user cursor = .ok o)
    (hdecide : (Access.decide c user o).result = .ok g)
    (hselect : o.select c x config g = .ok q)
    (hread : ∀ owner, ∀ t ∈ o.terms c config x.backend g owner, m.UnderstandsTerm x t)
    (htime : ∃ t, r.cell "rc_timestamp" = .text t ∧ t ≠ "") :
    q.accepts m r = true ↔ request.Wants c user cursor g.ownerId m r := by
  obtain ⟨t, ht, hne⟩ := htime
  have hnull : r.cell "rc_timestamp" ≠ .null := by simp [ht]
  have h := FeedRequest.validate_eq_ok_iff.mp hvalid
  obtain ⟨id, _, rfl⟩ := Access.decide_eq_ok_iff.mp hdecide
  have hlog : Term.AllHold m r (logTerms (Access.visibility c user)) ↔
      (r.cell "rc_type" ≠ .null ∧ r.cell "rc_type" ≠ .int 3) ∨
        Access.Shows c user deletedAction r := by
    rw [allHold_logTerms, Access.logActionMask_visibility, Access.Shows]
    cases Access.hidingMask c user deletedAction <;> simp
  rw [accepts_eq_true_iff hselect hread]
  simp only [storedOwner_eq_ok_iff, allHold_terms, allHold_latestTerms, h.allRevisions,
    h.namespaces_iff, h.kinds_iff, h.filters_iff hnull, h.window_iff, allHold_hintTerms ht hne,
    h.author_iff, hlog, h.reached_iff hnull, true_and]
  constructor
  · rintro ⟨n, hid, hn, hlatest, hnamespaces, hkinds, hfilters, ⟨hstart, hstop⟩,
      ⟨honly, hnot, hauthor⟩, hlogs, hreached⟩
    exact ⟨⟨n, hn, hid⟩, hlatest, hnamespaces, hkinds, hfilters, hstart, hstop, honly, hnot,
      hauthor, hlogs, hreached⟩
  · intro hw
    obtain ⟨n, hn, hid⟩ := hw.owner
    exact ⟨n, hid, hn, hw.latest, hw.namespaces, hw.kinds, hw.filters, ⟨hw.start, hw.stop⟩,
      ⟨hw.onlyBy, hw.notBy, hw.author⟩, hw.logAction, hw.reached⟩

/-- A user without rights asks for what another user did, from a cursor on: the filter on patrolled
changes is dropped, and a change whose author is hidden is not wanted. -/
theorem accepts_iff_wants_visible_author :
    let host : InMemory := { denied := Right.all, noPatrol := true }
    let request := FeedRequest.ofSettings [.walk .newer, .start "20240101000000",
      .namespaces [.text "0"], .kinds [.text "0"], .filter .notMinor, .filter .patrolled,
      .onlyBy "Other User"]
    let cursor := some [.text "20240102000000", .int 7]
    let change := Record.ofList [("page_latest", .int 5), ("rc_deleted", .int 0), ("rc_id", .int 8),
      ("rc_minor", .int 0), ("rc_this_oldid", .int 5), ("rc_timestamp", .text "20240102000000"),
      ("rc_type", .int 0), ("wl_namespace", .int 0), ("wl_user", .int 1)]
    ∃ m, request.Wants host.collaborators InMemory.actingUser cursor 1 m change ∧
      ¬ request.Wants host.collaborators InMemory.actingUser cursor 1 m
        (change.insert "rc_deleted" (.int 4)) := by
  intro host request cursor change
  -- Everything that can be run is run once; the options, the grant and the select stay names.
  have hrun : ((request.validate InMemory.actingUser cursor).toOption.bind fun o =>
      (Access.decide host.collaborators InMemory.actingUser o).result.toOption.bind fun g =>
        (o.select host.collaborators host.executor {} g).toOption.map fun q =>
          let ts := o.terms host.collaborators {} host.executor.backend g 1
          let m := Meaning.ofFragments host.executor ⟨.text, fun _ _ => .holds⟩ (Term.partsOf ts)
          (decide ((Term.partsOf ts).map (Fragment.render host.executor)).Nodup,
            ts.all fun t => !t.isNegated, g.ownerId, q.accepts m change,
            q.accepts m (change.insert "rc_deleted" (.int 4))))
      = some (true, true, 1, true, false) := by decide +kernel
  obtain ⟨o, ho, hrun⟩ := Option.bind_eq_some_iff.mp hrun
  obtain ⟨g, hg, hrun⟩ := Option.bind_eq_some_iff.mp hrun
  obtain ⟨q, hq, hrun⟩ := Option.map_eq_some_iff.mp hrun
  simp only [Prod.mk.injEq, decide_eq_true_eq, List.all_eq_true, Bool.not_eq_true'] at hrun
  obtain ⟨htexts, hnegated, howner, hshown, hhidden⟩ := hrun
  let m := Meaning.ofFragments host.executor ⟨.text, fun _ _ => .holds⟩
    (Term.partsOf (o.terms host.collaborators {} host.executor.backend g 1))
  have hread : ∀ owner, ∀ t ∈ o.terms host.collaborators {} host.executor.backend g owner,
      m.UnderstandsTerm host.executor t := by
    intro owner t ht
    rcases List.mem_cons.mp ht with rfl | ht
    · trivial
    · have ht := List.mem_cons_of_mem (.equals "wl_user" (.int 1)) ht
      exact Meaning.understandsTerm_ofFragments htexts ht (hnegated t ht)
  have hwants (r : Row) (htime : r.cell "rc_timestamp" = .text "20240102000000") :
      q.accepts m r = true ↔ request.Wants host.collaborators InMemory.actingUser cursor 1 m r := by
    rw [← howner]
    exact accepts_iff_wants (Outcome.toOption_eq_some_iff.mp ho)
      (Outcome.toOption_eq_some_iff.mp hg) (Outcome.toOption_eq_some_iff.mp hq) hread
      ⟨_, htime, by decide⟩
  refine ⟨m, (hwants change (by decide +kernel)).mp hshown, ?_⟩
  rw [← hwants _ (by decide +kernel), hhidden]
  decide

end FeedOptions

end PageWatch
