import PageWatch.Paging
import PageWatch.Proofs.Tables

/-! Exactness: the pages of a table that does not change are the unlimited feed cut into pieces. -/
namespace PageWatch

/-- Full pages, each with a cursor, and after them a last page without one. -/
structure Paged (size : Nat) (pages : List ChangePage) : Prop where
  full : ∀ page ∈ pages.dropLast, page.cursor.isSome = true ∧ page.items.length = size
  last : ∃ page, pages.getLast? = some page ∧ page.cursor = none ∧ page.items.length ≤ size

namespace Paged

variable {size : Nat} {page : ChangePage} {pages : List ChangePage}

theorem singleton (hcursor : page.cursor = none) (hsize : page.items.length ≤ size) :
    Paged size [page] :=
  ⟨by simp, page, rfl, hcursor, hsize⟩

theorem cons (hcursor : page.cursor.isSome = true) (hsize : page.items.length = size)
    (h : Paged size pages) : Paged size (page :: pages) := by
  obtain ⟨hfull, last, hlast, hend⟩ := h
  have hne : pages ≠ [] := by
    rintro rfl
    cases hlast
  refine ⟨?_, last, ?_, hend⟩
  · rw [List.dropLast_cons_of_ne_nil hne]
    exact List.forall_mem_cons.mpr ⟨⟨hcursor, hsize⟩, hfull⟩
  · rw [List.getLast?_cons, hlast, Option.getD_some]

end Paged

namespace Service

variable {s : Service} {m : Meaning} {user : User} {request : FeedRequest} {o : FeedOptions}
  {g : Grant} {x : Executor} {q : SelectQuery} {start : Option Cursor}

/-- The limit plays no part in whether a call compiles, nor in the conditions of its select. -/
theorem Compiles.relimit (h : s.Compiles user request none o g x q) (limit : Option Scalar) :
    ∃ q', s.Compiles user { request with limit } none
      { o with limit := limit.map Scalar.toLimit } g x q' ∧ q'.conditions = q.conditions := by
  have hv := FeedRequest.validate_eq_ok_iff.mp h.validated
  obtain ⟨q', hq'⟩ := FeedOptions.exists_select_of_select h.compiled
    (limit.map Scalar.toLimit) o.startFrom
  refine ⟨q', ⟨FeedRequest.validate_eq_ok_iff.mpr (hv.relimit limit), h.decided, h.replica, hq'⟩,
    ?_⟩
  obtain ⟨owner, ho, hq⟩ := FeedOptions.conditions_of_select h.compiled
  obtain ⟨owner', ho', hq'⟩ := FeedOptions.conditions_of_select hq'
  obtain rfl : owner = owner' := Except.ok.inj (ho.symm.trans ho')
  rw [hq, hq']
  rfl

/-- A call that compiles from the beginning compiles from every cursor. -/
theorem Compiles.resume (h : s.Compiles user request none o g x q) (hw : o.walk.isSome = true)
    (start : Option Cursor) :
    ∃ q', s.Compiles user request (start.map Cursor.toRaw)
      { o with startFrom := start } g x q' := by
  have hv := FeedRequest.validate_eq_ok_iff.mp h.validated
  obtain ⟨q', hq'⟩ := FeedOptions.exists_select_of_select h.compiled o.limit start
  cases start with
  | none =>
    have ho : ({ o with startFrom := none } : FeedOptions) = o := by rw [← hv.startFrom_none]
    rw [ho]
    exact ⟨q, h⟩
  | some cur =>
    exact ⟨q', FeedRequest.validate_eq_ok_iff.mpr (hv.resume hw cur.ofRaw_toRaw), h.decided,
      h.replica, hq'⟩

/-- The limit plays no part in which rows match a request. -/
theorem matches_relimit_iff (hs : s.extensions = []) (h : s.Compiles user request none o g x q)
    (limit : Option Scalar) (r : Row) :
    s.Matches m user { request with limit } r ↔ s.Matches m user request r := by
  obtain ⟨q', h', hconditions⟩ := h.relimit limit
  rw [matches_iff hs h, matches_iff hs h', SelectQuery.accepts_eq_true_iff,
    SelectQuery.accepts_eq_true_iff, hconditions]

section Run

variable {w : Walk} {limit : Scalar} {table rows : List Row}
  {items : List (WatchedItem × ChangeInfo)}

/-- From any start, following cursors returns all that is to come, cut into pages. -/
theorem exists_follow (hs : s.Over m table table) (hdates : m.Dates table)
    (hw : request.walk = some w.name) (hlimit : request.limit = some limit)
    (hsize : 0 < pageSize limit) (h : s.Compiles user request none o g x q)
    (start : Option Cursor) (hstart : ∀ cur ∈ start, ∃ r ∈ table, r.cursor = .ok cur)
    (hrows : s.Pending m user request w table start rows)
    (hitems : List.Forall₂ (fun r i => r.changeItem s.host.collaborators user = .ok i) rows items) :
    ∃ pages, (∀ n, pages.length ≤ n →
        follow user request (List.replicate n s) (start.map Cursor.toRaw) = .ok pages) ∧
      pages.flatMap ChangePage.items = items ∧ Paged (pageSize limit) pages := by
  induction hn : rows.length using Nat.strong_induction_on generalizing start rows items with
  | _ n ih =>
    subst hn
    have hwalk := (FeedRequest.validate_eq_ok_iff.mp h.validated).walk_eq_some_iff.mpr hw
    obtain ⟨q', hresumed⟩ := h.resume (by simp [hwalk]) start
    have htable (r : Row) (hr : r ∈ rows) : r ∈ table := ((hrows.mem_iff r).mp hr).1
    obtain ⟨page, hcuts, hpageitems⟩ := ChangePage.exists_cuts (pageSize limit) hitems
      fun r hr => hdates.dated r (htable r hr)
    have hpage := (hs.changes_eq_ok_iff hdates hw hlimit hstart hresumed hrows).mpr hcuts
    have hlength := hitems.length_eq
    cases ht : rows[pageSize limit]? with
    | none =>
      have hle := List.getElem?_eq_none_iff.mp ht
      have hlast := hcuts.last ht
      have hall : page.items = items := by rw [hpageitems, List.take_of_length_le (by omega)]
      refine ⟨[page], ?_, by simp [hall], .singleton hlast (by rw [hall]; omega)⟩
      intro n hn
      cases n with
      | zero => simp at hn
      | succ n => exact follow_of_last user request hpage hlast _
    | some t =>
      obtain ⟨hlt, _⟩ := List.getElem?_eq_some_iff.mp ht
      obtain ⟨cur, hcur, hnext⟩ := hcuts.next t ht
      have htt := htable t (List.mem_of_getElem? ht)
      have hdrop := hrows.drop ht (hdates.place_of_cursor htt hcur)
      have hshort : (rows.drop (pageSize limit)).length < rows.length := by
        rw [List.length_drop]
        omega
      obtain ⟨pages, hrun, hflat, hpaged⟩ := ih _ hshort (some cur)
        (by simpa using ⟨t, htt, hcur⟩) hdrop (List.forall₂_drop (pageSize limit) hitems) rfl
      refine ⟨page :: pages, ?_, ?_, .cons (by simp [hnext]) ?_ hpaged⟩
      · intro n hn
        cases n with
        | zero => simp at hn
        | succ n =>
          rw [List.replicate_succ, follow_cons_eq_ok_iff]
          exact ⟨page, hpage, .inr ⟨cur, pages, hnext, hrun n (by simpa using hn), rfl⟩⟩
      · rw [List.flatMap_cons, hflat, hpageitems, List.take_append_drop]
      · rw [hpageitems, List.length_take]
        omega

/-- Paging is exact: over a table that does not change, the run that follows cursors comes to its
end, and its pages put together are the answer to the same request without a limit. -/
theorem follow_exact (hs : s.Over m table table) (hdates : m.Dates table)
    (hw : request.walk = some w.name) {whole : ChangePage}
    (hwhole : (s.changes user { request with limit := none } none).result = .ok whole)
    (hlimit : 1 ≤ limit.toLimit) :
    ∃ pages, (∀ n, pages.length ≤ n →
        follow user { request with limit := some limit } (List.replicate n s) none = .ok pages) ∧
      pages.flatMap ChangePage.items = whole.items ∧ Paged (pageSize limit) pages := by
  obtain ⟨o, g, x, q, _, _, _, h, _⟩ := Service.changes_eq_ok_iff.mp hwhole
  have hbase : ({ request with limit := none } : FeedRequest).walk = some w.name := hw
  have hfirst : s.Compiles user { request with limit := none }
      (Option.map Cursor.toRaw none) o g x q := h
  obtain ⟨rows, hrows, hselect⟩ := hs.exists_pending hdates hbase none (by simp) hfirst
  have hnone : o.limit = none := (FeedRequest.validate_eq_ok_iff.mp h.validated).limit
  have hcap : o.rowCap = none := by rw [FeedOptions.rowCap, hnone, Option.map_none]
  have hcut : q.cut rows = rows := by
    unfold SelectQuery.cut
    rw [FeedOptions.limit_of_select h.compiled, hcap]
  obtain ⟨answer, hanswer, hofrows⟩ := (hfirst.changes_eq_ok_iff hs.extensions).mp hwhole
  rw [hselect, hcut, Except.ok.injEq] at hanswer
  rw [← hanswer, hcap] at hofrows
  obtain ⟨hitems, _⟩ := ChangePage.ofRows_none_eq_ok_iff.mp hofrows
  obtain ⟨q', h', _⟩ := h.relimit (some limit)
  have hpending : s.Pending m user { request with limit := some limit } w table none rows := by
    refine ⟨hrows.sorted, fun r => ?_⟩
    rw [hrows.mem_iff r]
    exact and_congr_right fun _ => and_congr_left fun _ =>
      (matches_relimit_iff hs.extensions h (some limit) r).symm
  have hsize : 0 < pageSize limit := by
    have hpos : 1 ≤ limit.toLimit.toNat := UInt32.le_iff_toNat_le.mp hlimit
    have hmax : UInt32.size = 4294967296 := rfl
    unfold pageSize
    omega
  have hlimited : ({ request with limit := some limit } : FeedRequest).walk = some w.name := hw
  exact exists_follow hs hdates hlimited rfl hsize h' none (by simp) hpending hitems

/-- Two changes of one moment are returned on two pages. -/
theorem follow_exact_tied_changes :
    let table := [InMemory.watchedChange 1 "20240101000000",
      InMemory.watchedChange 2 "20240101000000"]
    let s := ofTable (.ofChanges table) table
    let request := FeedRequest.ofSettings [.walk .older, .allRevisions]
    ∃ whole, (s.changes InMemory.actingUser request none).result = .ok whole ∧
      whole.items.length = 2 ∧ ∃ pages,
        (∀ n, pages.length ≤ n → follow InMemory.actingUser { request with limit := some (.int 1) }
          (List.replicate n s) none = .ok pages) ∧
        pages.flatMap ChangePage.items = whole.items ∧ Paged (pageSize (.int 1)) pages := by
  intro table s request
  have hlength : (s.changes InMemory.actingUser request none).result.toOption.map
      (fun page => page.items.length) = some 2 := by decide +kernel
  obtain ⟨whole, hanswer, hitems⟩ := Option.map_eq_some_iff.mp hlength
  have hwhole := Outcome.toOption_eq_some_iff.mp hanswer
  have hover : s.Over (.ofChanges table) table table :=
    over_ofTable (by decide +kernel) (List.Subset.refl table) (by decide +kernel)
  have hdates : (Meaning.ofChanges table).Dates table :=
    InMemory.dates_ofChanges (by simp [table])
  exact ⟨whole, hwhole, hitems,
    follow_exact hover hdates (w := .older) rfl hwhole (by decide +kernel)⟩

end Run

end Service

end PageWatch
