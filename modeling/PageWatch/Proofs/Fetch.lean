import PageWatch.Proofs.Compiled
import PageWatch.Proofs.Pages
import PageWatch.Proofs.Stages
import PageWatch.Proofs.Validated

/-! Fetches: what one call answers when the executor answers from a table of changes. -/
namespace PageWatch

/-- Rows with timestamps and numbers, whose timestamps are understood as they are stored. -/
structure Meaning.Dates (m : Meaning) (rows : List Row) : Prop where
  dated : ∀ r ∈ rows, r.Dated
  stored : ∀ r ∈ rows, ∀ t, (r.cell "rc_timestamp").render = some t →
    m.stored t = r.cell "rc_timestamp"

theorem Meaning.Dates.mono {m : Meaning} {rows seen : List Row} (h : m.Dates seen)
    (hsub : rows ⊆ seen) : m.Dates rows :=
  ⟨fun r hr => h.dated r (hsub hr), fun r hr => h.stored r (hsub hr)⟩

theorem Meaning.Dates.place_of_cursor {m : Meaning} {rows : List Row} {r : Row} {cur : Cursor}
    (h : m.Dates rows) (hr : r ∈ rows) (hc : r.cursor = .ok cur) : cur.place m = r.feedPlace :=
  Row.place_of_cursor (h.dated r hr) hc (h.stored r hr _ (Row.cursor_eq_ok_iff.mp hc).1)

theorem Meaning.Dates.stored_ne_null {m : Meaning} {rows : List Row} {r : Row} {cur : Cursor}
    (h : m.Dates rows) (hr : r ∈ rows) (hc : r.cursor = .ok cur) :
    m.stored cur.timestamp ≠ .null := by
  rw [h.stored r hr _ (Row.cursor_eq_ok_iff.mp hc).1]
  exact (h.dated r hr).timed

/-- What is selected along a walk from a table whose rows stand at distinct places is sorted
strictly. -/
theorem Executor.Answers.exists_sorted {x : Executor} {m : Meaning} {table : List Row}
    {q : SelectQuery} {order : SortOrder} (h : x.Answers m table)
    (hdistinct : (table.map Record.feedPlace).Nodup)
    (horder : q.orderBy = order.byPair "rc_timestamp" "rc_id") :
    ∃ rows, x.select q = .ok (q.cut rows) ∧
      rows.Pairwise (fun r t => order.Before r.feedPlace t.feedPlace) ∧
      ∀ r, r ∈ rows ↔ r ∈ table ∧ q.accepts m r = true := by
  refine ⟨(table.filter (q.accepts m)).mergeSort (OrderTerm.le q.orderBy), h q, ?_, ?_⟩
  · rw [horder]
    exact pairwise_before_mergeSort (hdistinct.sublist (List.filter_sublist.map _))
  · intro r
    rw [List.mem_mergeSort, List.mem_filter]

namespace FeedOptions

variable {o : FeedOptions} {w : Walk}

theorem keptRows_rowCap (o : FeedOptions) : keptRows o.rowCap = o.pageSize? := by
  have hkept : keptRows o.rowCap = (o.rowCap.map UInt32.toNat).map (· - 1) := by
    rw [Option.map_map]
    rfl
  rw [hkept, o.map_toNat_rowCap, Option.map_map]
  simp [Function.comp_def]

theorem orderBy_of_walk (h : o.walk = some w) :
    o.orderBy = w.sortOrder.byPair "rc_timestamp" "rc_id" := by
  simp [orderBy, h, SortOrder.byPair]

theorem cursorTerms_of_walk (h : o.walk = some w) :
    o.cursorTerms = o.startFrom.toList.map fun cur =>
      .fragment (cur.position.seek w.sortOrder) := by
  unfold cursorTerms
  rw [h]
  cases o.startFrom <;> rfl

end FeedOptions

namespace Service

variable {s : Service} {user : User} {request : FeedRequest} {o : FeedOptions} {g : Grant}
  {x : Executor} {q : SelectQuery} {start : Option Cursor} {m : Meaning}

/-- A call that compiles from a raw cursor compiles from the beginning, for other options. -/
theorem Compiles.exists_from_start {cursor : Option (List Scalar)}
    (h : s.Compiles user request cursor o g x q) :
    ∃ q₀, s.Compiles user request none { o with startFrom := none } g x q₀ := by
  have hv := FeedRequest.validate_eq_ok_iff.mp h.validated
  cases cursor with
  | none =>
    have ho : ({ o with startFrom := none } : FeedOptions) = o := by rw [← hv.startFrom_none]
    rw [ho]
    exact ⟨q, h⟩
  | some raw =>
    obtain ⟨q₀, hq₀⟩ := FeedOptions.exists_select_of_select h.compiled o.limit none
    exact ⟨q₀, FeedRequest.validate_eq_ok_iff.mpr hv.of_resumed.1, h.decided, h.replica, hq₀⟩

/-- A call from a cursor compiles what the call from the beginning does, for other options. -/
theorem Compiles.from_start
    (h : s.Compiles user request (start.map Cursor.toRaw) o g x q) :
    o.startFrom = start ∧
      ∃ q₀, s.Compiles user request none { o with startFrom := none } g x q₀ := by
  refine ⟨?_, h.exists_from_start⟩
  have hv := FeedRequest.validate_eq_ok_iff.mp h.validated
  cases start with
  | none => exact hv.startFrom_none
  | some cur =>
    obtain ⟨_, _, c, hc, hs⟩ := hv.of_resumed
    rw [Cursor.ofRaw_toRaw, Except.ok.injEq] at hc
    exact hc ▸ hs

/-- A row matches a request if the select of the request, from its beginning, accepts the row. -/
def Matches (s : Service) (m : Meaning) (user : User) (request : FeedRequest) (r : Row) : Prop :=
  ∃ q ∈ (s.changes user request none).selects, q.accepts m r = true

theorem matches_iff (hs : s.extensions = []) (h : s.Compiles user request none o g x q) (r : Row) :
    s.Matches m user request r ↔ q.accepts m r = true := by
  constructor
  · rintro ⟨q', hq', hr⟩
    obtain ⟨o', g', x', q'', h', hbefore⟩ := mem_selects_changes_iff.mp hq'
    rw [hs] at hbefore
    cases hbefore
    obtain ⟨_, _, _, rfl⟩ := h.unique h'
    exact hr
  · intro hr
    exact ⟨q, mem_selects_changes_iff.mpr ⟨o, g, x, q, h, by rw [hs]; rfl⟩, hr⟩

/-- A service without extensions whose executor answers every select from a table of seen changes,
no two of which stand at one place, and understands how to go on at any change that was seen. -/
structure Over (s : Service) (m : Meaning) (seen table : List Row) : Prop where
  extensions : s.extensions = []
  replica : ∃ x, s.host.replica = .ok x ∧ x.Answers m table ∧
    ∀ r ∈ seen, ∀ cur, r.cursor = .ok cur → ∀ order,
      m.Understands x (cur.position.seek order)
  within : table ⊆ seen
  distinct : (table.map Record.feedPlace).Nodup

/-- The rows that are to come at a start, in the order of the walk: those of the table that match
the request and do not stand before the start. -/
structure Pending (s : Service) (m : Meaning) (user : User) (request : FeedRequest) (w : Walk)
    (table : List Row) (start : Option Cursor) (rows : List Row) : Prop where
  sorted : rows.Pairwise fun r t => w.sortOrder.Before r.feedPlace t.feedPlace
  mem_iff : ∀ r, r ∈ rows ↔ r ∈ table ∧ s.Matches m user request r ∧
    ∀ cur ∈ start, ¬ w.sortOrder.Before r.feedPlace (cur.place m)

variable {w : Walk} {seen table rows : List Row} {size : Nat} {r t : Row}

namespace Pending

/-- What is to come is determined by the start. -/
theorem unique {rows' : List Row} (h : s.Pending m user request w table start rows)
    (h' : s.Pending m user request w table start rows') : rows = rows' :=
  SortOrder.eq_of_mem_iff h.sorted h'.sorted fun r => (h.mem_iff r).trans (h'.mem_iff r).symm

/-- What is to come at a later row is what was to come, from that row on. -/
theorem drop {cur : Cursor} (h : s.Pending m user request w table start rows)
    (ht : rows[size]? = some t) (hcur : cur.place m = t.feedPlace) :
    s.Pending m user request w table (some cur) (rows.drop size) := by
  refine ⟨h.sorted.sublist (List.drop_sublist size rows), fun r => ?_⟩
  simp only [Option.mem_some_iff, forall_eq', hcur]
  rw [SortOrder.mem_drop_iff h.sorted ht, h.mem_iff]
  constructor
  · rintro ⟨⟨htable, hmatch, _⟩, hr⟩
    exact ⟨htable, hmatch, hr⟩
  · rintro ⟨htable, hmatch, hr⟩
    have hstart := ((h.mem_iff t).mp (List.mem_of_getElem? ht)).2.2
    exact ⟨⟨htable, hmatch, fun c hc => SortOrder.not_before_trans (hstart c hc) hr⟩, hr⟩

end Pending

/-- The executor answers with what is to come, up to where the select is cut. -/
theorem Over.exists_pending (hs : s.Over m seen table) (hseen : m.Dates seen)
    (hw : request.walk = some w.name) (start : Option Cursor)
    (hstart : ∀ cur ∈ start, ∃ r ∈ seen, r.cursor = .ok cur)
    (h : s.Compiles user request (start.map Cursor.toRaw) o g x q) :
    ∃ rows, s.Pending m user request w table start rows ∧ x.select q = .ok (q.cut rows) := by
  obtain ⟨x', hx, hanswers, hunderstands⟩ := hs.replica
  obtain rfl : x = x' := Except.ok.inj (h.replica.symm.trans hx)
  obtain ⟨hfrom, q₀, h₀⟩ := h.from_start
  have hv := FeedRequest.validate_eq_ok_iff.mp h.validated
  have hwalk : o.walk = some w := hv.walk_eq_some_iff.mpr hw
  have horder : q.orderBy = w.sortOrder.byPair "rc_timestamp" "rc_id" := by
    rw [FeedOptions.orderBy_of_select h.compiled, FeedOptions.orderBy_of_walk hwalk]
  have hconditions := FeedOptions.conditions_of_select_resumed h.compiled h₀.compiled
  rw [FeedOptions.cursorTerms_of_walk hwalk, hfrom] at hconditions
  have haccepts (r : Row) (hr : r ∈ table) : q.accepts m r = true ↔
      s.Matches m user request r ∧
        ∀ cur ∈ start, ¬ w.sortOrder.Before r.feedPlace (cur.place m) := by
    have hseek (cur : Cursor) (hcur : cur ∈ start) :
        m.truth ((cur.position.seek w.sortOrder).render x) r = .holds ↔
          ¬ w.sortOrder.Before r.feedPlace (cur.place m) := by
      obtain ⟨t, ht, htc⟩ := hstart cur hcur
      exact Cursor.truth_seek_iff (hunderstands t ht cur htc _) (hseen.dated r (hs.within hr))
        (hseen.stored_ne_null ht htc)
    rw [matches_iff hs.extensions h₀, SelectQuery.accepts_eq_true_iff, hconditions,
      SelectQuery.accepts_eq_true_iff]
    cases start with
    | none => simp
    | some cur =>
      simp [Term.condition, Condition.truth, hseek cur rfl, or_imp, forall_and]
  obtain ⟨rows, hselect, hsorted, hmem⟩ := hanswers.exists_sorted hs.distinct horder
  refine ⟨rows, ⟨hsorted, fun r => ?_⟩, hselect⟩
  rw [hmem]
  exact and_congr_right (haccepts r)

/-- Without extensions, a page is made of what the executor answers to the compiled select. -/
theorem Compiles.changes_eq_ok_iff (h : s.Compiles user request (start.map Cursor.toRaw) o g x q)
    (hs : s.extensions = []) {page : ChangePage} :
    (s.changes user request (start.map Cursor.toRaw)).result = .ok page ↔
      ∃ rows, x.select q = .ok rows ∧
        ChangePage.ofRows s.host.collaborators user o.rowCap rows = .ok page := by
  rw [Service.changes_eq_ok_iff]
  constructor
  · rintro ⟨o', g', x', q', q'', rows, p, h', hbefore, hrows, hp, hafter⟩
    obtain ⟨rfl, rfl, rfl, rfl⟩ := h.unique h'
    rw [hs] at hbefore hafter
    cases hbefore
    cases hafter
    exact ⟨rows, hrows, hp⟩
  · rintro ⟨rows, hrows, hp⟩
    exact ⟨o, g, x, q, q, rows, page, h, by rw [hs]; rfl, hrows, hp, by rw [hs]; rfl⟩

/-- How many changes a page holds under a limit. The row after the page is fetched as well, so
the largest limit holds one change less. -/
def pageSize (limit : Scalar) : Nat := min limit.toLimit.toNat (UInt32.size - 2)

/-- What a call answers under a limit is the first page of what is to come. -/
theorem Over.changes_eq_ok_iff (hs : s.Over m seen table) (hseen : m.Dates seen)
    (hw : request.walk = some w.name) {limit : Scalar} (hlimit : request.limit = some limit)
    (hstart : ∀ cur ∈ start, ∃ r ∈ seen, r.cursor = .ok cur)
    (h : s.Compiles user request (start.map Cursor.toRaw) o g x q)
    (hrows : s.Pending m user request w table start rows) {page : ChangePage} :
    (s.changes user request (start.map Cursor.toRaw)).result = .ok page ↔
      page.Cuts s.host.collaborators user (pageSize limit) rows := by
  obtain ⟨rows', hrows', hselect⟩ := hs.exists_pending hseen hw start hstart h
  obtain rfl := hrows.unique hrows'
  have hl := (FeedRequest.validate_eq_ok_iff.mp h.validated).limit
  rw [hlimit, Option.map_some] at hl
  have hsize : o.pageSize? = some (pageSize limit) := by
    rw [FeedOptions.pageSize?, hl]
    rfl
  have hkept : keptRows o.rowCap = some (pageSize limit) := o.keptRows_rowCap.trans hsize
  have hcut : q.cut rows = rows.take (pageSize limit + 1) :=
    FeedOptions.cut_of_select h.compiled hsize
  rw [h.changes_eq_ok_iff hs.extensions, hselect, hcut]
  simp only [Except.ok.injEq, exists_eq_left', ChangePage.ofRows_eq_ok_iff hkept,
    ChangePage.cuts_take_iff]

/-- A page that comes back under a limit is the first page of what is to come. -/
theorem Over.exists_cuts_of_changes (hs : s.Over m seen table) (hseen : m.Dates seen)
    (hw : request.walk = some w.name) {limit : Scalar} (hlimit : request.limit = some limit)
    (hstart : ∀ cur ∈ start, ∃ r ∈ seen, r.cursor = .ok cur) {page : ChangePage}
    (h : (s.changes user request (start.map Cursor.toRaw)).result = .ok page) :
    ∃ rows, s.Pending m user request w table start rows ∧
      page.Cuts s.host.collaborators user (pageSize limit) rows := by
  obtain ⟨o, g, x, q, _, _, _, hcompiles, _⟩ := Service.changes_eq_ok_iff.mp h
  obtain ⟨rows, hrows, _⟩ := hs.exists_pending hseen hw start hstart hcompiles
  exact ⟨rows, hrows, (hs.changes_eq_ok_iff hseen hw hlimit hstart hcompiles hrows).mp h⟩

end Service

end PageWatch
