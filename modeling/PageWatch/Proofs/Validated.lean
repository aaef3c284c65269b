import PageWatch.Outcome
import PageWatch.Validation

/-! What validated options say about the request that they come from. -/
namespace PageWatch

theorem ChangedFilter.ofName?_eq_some_iff {s : String} {f : ChangedFilter} :
    ofName? s = some f ↔ s = f.name := by
  cases f <;> simp only [ofName?, names, name, List.lookup_cons, List.lookup_nil] <;> grind

/-- Of one value, what holds of all there are holds of some. -/
theorem forall_mem_iff_exists_of_isSome {α : Type} {a? : Option α} {p : α → Prop}
    (h : a?.isSome = true) : (∀ a ∈ a?, p a) ↔ ∃ a, a? = some a ∧ p a := by
  obtain ⟨a, rfl⟩ := Option.isSome_iff_exists.mp h
  simp

namespace FeedRequest

variable {r : FeedRequest} {user : User} {cursor : Option (List Scalar)} {o : FeedOptions}

/-- Options that a request is validated to, member by member. -/
structure Validated (r : FeedRequest) (user : User) (cursor : Option (List Scalar))
    (o : FeedOptions) : Prop where
  groups : o.groups = .ofList r.groups
  namespaces : o.namespaces = readNamespaces r.namespaces
  kinds : r.readKinds = .ok o.kinds
  walk : r.readWalk = .ok o.walk
  positioned : r.isPositioned cursor = true → o.walk.isSome = true
  window : o.window = ⟨r.start, r.stop⟩
  limit : o.limit = r.limit.map Scalar.toLimit
  filters : r.readFilters = .ok o.filters
  author : r.readAuthor = .ok o.author
  scope : r.readScope user = .ok o.scope
  allRevisions : o.allRevisions = r.allRevisions
  forGenerator : o.forGenerator = r.forGenerator
  startFrom : readCursor cursor = .ok o.startFrom

theorem validate_eq_ok_iff : r.validate user cursor = .ok o ↔ r.Validated user cursor o := by
  have hthrow {α β : Type} (e : ValidationError) (f : α → Except ValidationError β) :
      (throw e >>= f) = .error e := rfl
  simp only [validate, Outcome.except_bind_eq_ok_iff]
  constructor
  · rintro ⟨kinds, hk, walk, hw, h⟩
    split at h
    · simp [hthrow] at h
    next hpos =>
      simp only [Outcome.except_bind_eq_ok_iff, pure, Except.pure, Except.ok.injEq] at h
      obtain ⟨startFrom, hc, scope, hs, filters, hf, author, ha, rfl⟩ := h
      refine ⟨rfl, rfl, hk, hw, ?_, rfl, rfl, hf, ha, hs, rfl, rfl, hc⟩
      intro hp
      simpa [hp, Option.isSome_iff_ne_none] using hpos
  · rintro ⟨hg, hn, hk, hw, hp, hwin, hl, hf, ha, hs, har, hfg, hc⟩
    refine ⟨o.kinds, hk, o.walk, hw, ?_⟩
    have hpos : ¬ (r.isPositioned cursor && o.walk.isNone) = true := by
      intro h
      obtain ⟨h, hnone⟩ := Bool.and_eq_true_iff.mp h
      have := hp h
      simp_all
    simp only [if_neg hpos, hc, hs, hf, ha, ← hg, ← hn, ← hwin, ← hl, ← har, ← hfg]
    rfl

theorem readCursor_some_eq_ok_iff {raw : List Scalar} {start : Option Cursor} :
    readCursor (some raw) = .ok start ↔ ∃ c, Cursor.ofRaw raw = .ok c ∧ start = some c := by
  rw [readCursor, Outcome.mapError_eq_ok_iff, Outcome.except_map_eq_ok_iff]
  exact exists_congr fun c => and_congr_right fun _ => eq_comm

theorem readWalk_eq_ok_iff {walk : Option Walk} :
    r.readWalk = .ok walk ↔ r.walk = walk.map Walk.name := by
  unfold readWalk
  cases r.walk with
  | none => cases walk <;> simp
  | some s =>
    cases hs : Walk.ofName? s with
    | none =>
      simp only [hs, reduceCtorEq, false_iff]
      intro h
      obtain ⟨w, _, hw⟩ := Option.map_eq_some_iff.mp h.symm
      rw [Walk.ofName?_eq_some_iff.mpr hw.symm] at hs
      cases hs
    | some w =>
      simp only [hs, Except.ok.injEq]
      constructor
      · rintro rfl
        exact congrArg some (Walk.ofName?_eq_some_iff.mp hs)
      · intro h
        obtain ⟨w', rfl, hw⟩ := Option.map_eq_some_iff.mp h.symm
        rw [Walk.ofName?_eq_some_iff.mpr hw.symm] at hs
        exact hs.symm

theorem readAuthor_eq_ok_iff {rule : Option AuthorRule} : r.readAuthor = .ok rule ↔
    (r.onlyBy = none ∧ r.notBy = none ∧ rule = none) ∨
      (∃ name, r.onlyBy = some name ∧ r.notBy = none ∧ rule = some (.onlyBy name)) ∨
      ∃ name, r.onlyBy = none ∧ r.notBy = some name ∧ rule = some (.notBy name) := by
  unfold readAuthor
  cases r.onlyBy <;> cases r.notBy <;> simp [eq_comm]

namespace Validated

variable {raw : List Scalar} {c : Cursor}

theorem walk_eq_some_iff {w : Walk} (h : r.Validated user cursor o) :
    o.walk = some w ↔ r.walk = some w.name := by
  rw [readWalk_eq_ok_iff.mp h.walk, Option.map_eq_some_iff]
  constructor
  · intro hw
    exact ⟨w, hw, rfl⟩
  · rintro ⟨w', hw, hname⟩
    rw [hw, ← Walk.ofName?_eq_some_iff.mpr hname.symm, Walk.ofName?_eq_some_iff.mpr rfl]

/-- The filters are those that the request asks for. -/
theorem filters_eq (h : r.Validated user cursor o) : o.filters = .ofList r.filters := by
  have hread := h.filters
  unfold readFilters at hread
  cases hc : contradiction? (.ofList r.filters) <;> simp_all

/-- What is asked along the walk is asked along the one walk that the request names. -/
theorem forall_walk_iff {p : Walk → Prop} (h : r.Validated user cursor o)
    (hp : r.isPositioned cursor = true) :
    (∀ w ∈ o.walk, p w) ↔ ∃ w : Walk, r.walk = some w.name ∧ p w := by
  rw [forall_mem_iff_exists_of_isSome (h.positioned hp)]
  simp only [h.walk_eq_some_iff]

/-- The limit plays no part in any check. -/
theorem relimit (h : r.Validated user cursor o) (limit : Option Scalar) :
    ({ r with limit } : FeedRequest).Validated user cursor
      { o with limit := limit.map Scalar.toLimit } :=
  ⟨h.groups, h.namespaces, h.kinds, h.walk, h.positioned, h.window, rfl, h.filters, h.author,
    h.scope, h.allRevisions, h.forGenerator, h.startFrom⟩

/-- No limit and no namespace makes a request invalid. -/
theorem renumber (h : r.Validated user cursor o) (v : Scalar) (namespaces : List Scalar) :
    ({ r with limit := some v, namespaces } : FeedRequest).Validated user cursor
      { o with limit := some v.toLimit, namespaces := readNamespaces namespaces } :=
  ⟨h.groups, rfl, h.kinds, h.walk, h.positioned, h.window, rfl, h.filters, h.author, h.scope,
    h.allRevisions, h.forGenerator, h.startFrom⟩

theorem startFrom_none (h : r.Validated user none o) : o.startFrom = none :=
  (Except.ok.inj h.startFrom).symm

/-- A request that walks somewhere can be resumed at any cursor that is read. -/
theorem resume (h : r.Validated user none o) (hw : o.walk.isSome = true)
    (hc : Cursor.ofRaw raw = .ok c) :
    r.Validated user (some raw) { o with startFrom := some c } :=
  ⟨h.groups, h.namespaces, h.kinds, h.walk, fun _ => hw, h.window, h.limit, h.filters, h.author,
    h.scope, h.allRevisions, h.forGenerator, readCursor_some_eq_ok_iff.mpr ⟨c, hc, rfl⟩⟩

/-- A resumed request is valid without its cursor, and the cursor was read. -/
theorem of_resumed (h : r.Validated user (some raw) o) :
    r.Validated user none { o with startFrom := none } ∧ o.walk.isSome = true ∧
      ∃ c, Cursor.ofRaw raw = .ok c ∧ o.startFrom = some c := by
  have hw : o.walk.isSome = true := h.positioned (by simp [isPositioned])
  exact ⟨⟨h.groups, h.namespaces, h.kinds, h.walk, fun _ => hw, h.window, h.limit, h.filters,
    h.author, h.scope, h.allRevisions, h.forGenerator, rfl⟩, hw,
    readCursor_some_eq_ok_iff.mp h.startFrom⟩

end Validated

end FeedRequest

namespace WatchlistRequest

variable {r : WatchlistRequest} {o : WatchlistOptions}

/-- Options of a listing that a request is validated to, member by member. -/
structure Validated (r : WatchlistRequest) (o : WatchlistOptions) : Prop where
  namespaces : o.namespaces = readNamespaces r.namespaces
  sort : r.readSort = .ok o.sort
  filter : r.readFilter = .ok o.filter
  positioned : r.seeks = true → o.sort.isSome = true
  fromTarget : o.fromTarget = r.fromTarget
  untilTarget : o.untilTarget = r.untilTarget
  startFrom : o.startFrom = r.startFrom
  limit : o.limit = r.limit.map Scalar.toLimit

theorem validate_eq_ok_iff : r.validate = .ok o ↔ r.Validated o := by
  simp only [validate, Outcome.except_bind_eq_ok_iff]
  constructor
  · rintro ⟨sort, hs, filter, hf, h⟩
    split at h
    · cases h
    next hpos =>
      cases h
      refine ⟨rfl, hs, hf, ?_, rfl, rfl, rfl, rfl⟩
      intro hp
      simpa [hp, Option.isSome_iff_ne_none] using hpos
  · rintro ⟨hn, hs, hf, hp, hfrom, huntil, hstart, hl⟩
    refine ⟨o.sort, hs, o.filter, hf, ?_⟩
    have hpos : ¬ (r.seeks && o.sort.isNone) = true := by
      intro h
      obtain ⟨h, hnone⟩ := Bool.and_eq_true_iff.mp h
      have := hp h
      simp_all
    simp only [if_neg hpos, ← hn, ← hfrom, ← huntil, ← hstart, ← hl]
    rfl

namespace Validated

theorem sort_eq_some_iff {sort : SortOrder} (h : r.Validated o) :
    o.sort = some sort ↔ r.sort = some sort.name := by
  have hread := h.sort
  have hsort : o.sort = r.sort.bind SortOrder.ofName? := by
    unfold readSort at hread
    cases hname : r.sort with
    | none =>
      simp only [hname, Except.ok.injEq] at hread
      exact hread.symm
    | some s =>
      cases hs : SortOrder.ofName? s <;> simp_all
  rw [hsort, Option.bind_eq_some_iff]
  simp [SortOrder.ofName?_eq_some_iff]

theorem filter_eq_some_iff {f : ChangedFilter} (h : r.Validated o) :
    o.filter = some f ↔ r.filter = some f.name := by
  have hread := h.filter
  have hfilter : o.filter = r.filter.bind ChangedFilter.ofName? := by
    unfold readFilter at hread
    cases hname : r.filter with
    | none =>
      simp only [hname, Except.ok.injEq] at hread
      exact hread.symm
    | some s =>
      cases hf : ChangedFilter.ofName? s <;> simp_all
  rw [hfilter, Option.bind_eq_some_iff]
  simp [ChangedFilter.ofName?_eq_some_iff]

/-- A sorted request can be given other bounds and another limit. -/
theorem rebound {sort : SortOrder} (h : r.Validated o) (hsort : r.sort = some sort.name)
    (fromTarget untilTarget startFrom : Option Target) (limit : Option Scalar) :
    ({ r with fromTarget, untilTarget, startFrom, limit } : WatchlistRequest).Validated
      { o with fromTarget, untilTarget, startFrom, limit := limit.map Scalar.toLimit } :=
  ⟨h.namespaces, h.sort, h.filter, fun _ => by simp [h.sort_eq_some_iff.mpr hsort], rfl, rfl, rfl,
    rfl⟩

/-- No limit and no namespace makes a request invalid. -/
theorem renumber (h : r.Validated o) (v : Scalar) (namespaces : List Scalar) :
    ({ r with limit := some v, namespaces } : WatchlistRequest).Validated
      { o with limit := some v.toLimit, namespaces := readNamespaces namespaces } :=
  ⟨rfl, h.sort, h.filter, h.positioned, h.fromTarget, h.untilTarget, h.startFrom, rfl⟩

/-- What is asked along the sort order is asked along the one order that the request names. -/
theorem forall_sort_iff {p : SortOrder → Prop} (h : r.Validated o) (hp : r.seeks = true) :
    (∀ sort ∈ o.sort, p sort) ↔ ∃ sort : SortOrder, r.sort = some sort.name ∧ p sort := by
  rw [forall_mem_iff_exists_of_isSome (h.positioned hp)]
  simp only [h.sort_eq_some_iff]

end Validated

end WatchlistRequest

end PageWatch
