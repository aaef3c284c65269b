import PageWatch.Paging
import PageWatch.Proofs.Tables

/-! Stability: what a run of calls returns while the table changes between the calls. -/
namespace PageWatch

namespace ChangePage.Cuts

variable {c : Collaborators} {user : User} {size : Nat} {rows : List Row} {page : ChangePage}
  {cur : Cursor}

/-- A page returns the changes that it keeps at the places where they stand. -/
theorem map_feedPlace (h : page.Cuts c user size rows) :
    page.items.map (fun i => i.2.feedPlace) = (rows.take size).map Record.feedPlace := by
  apply Eq.symm
  rw [← List.forall₂_eq_eq_eq, List.forall₂_map_left_iff, List.forall₂_map_right_iff]
  exact h.items.imp fun _ _ hi => (Row.feedPlace_of_changeItem hi).symm

/-- The cursor of a page is that of the first row that the page leaves out. -/
theorem exists_next (h : page.Cuts c user size rows) (hcur : page.cursor = some cur) :
    ∃ r, rows[size]? = some r ∧ r.cursor = .ok cur := by
  cases hnext : rows[size]? with
  | none => simp [h.last hnext] at hcur
  | some r =>
    obtain ⟨cur', hr, hpage⟩ := h.next r hnext
    rw [hcur, Option.some.injEq] at hpage
    exact ⟨r, rfl, hpage ▸ hr⟩

end ChangePage.Cuts

/-- A stretch of a walk: items in strict order that stand from a start on and before a stop. -/
structure Stretch (m : Meaning) (order : SortOrder) (start stop : Option Cursor)
    (items : List (WatchedItem × ChangeInfo)) : Prop where
  sorted : items.Pairwise fun i j => order.Before i.2.feedPlace j.2.feedPlace
  fromStart : ∀ i ∈ items, ∀ cur ∈ start, ¬ order.Before i.2.feedPlace (cur.place m)
  untilStop : ∀ i ∈ items, ∀ cur ∈ stop, order.Before i.2.feedPlace (cur.place m)
  forward : ∀ cur ∈ start, ∀ cur' ∈ stop, ¬ order.Before (cur'.place m) (cur.place m)

namespace Stretch

variable {m : Meaning} {order : SortOrder} {start stop : Option Cursor} {mid : Cursor}
  {items items' : List (WatchedItem × ChangeInfo)}

theorem nil (m : Meaning) (order : SortOrder) (start : Option Cursor) :
    Stretch m order start none [] :=
  ⟨.nil, by simp, by simp, by simp⟩

/-- Stretches that meet make one stretch. -/
theorem append (h : Stretch m order start (some mid) items)
    (h' : Stretch m order (some mid) stop items') :
    Stretch m order start stop (items ++ items') := by
  refine ⟨List.pairwise_append.mpr ⟨h.sorted, h'.sorted, ?_⟩, ?_, ?_, ?_⟩
  · intro i hi j hj
    exact SortOrder.before_of_before_of_not_before (h.untilStop i hi mid rfl)
      (h'.fromStart j hj mid rfl)
  · intro i hi cur hcur
    rcases List.mem_append.mp hi with hi | hi
    · exact h.fromStart i hi cur hcur
    · exact SortOrder.not_before_trans (h.forward cur hcur mid rfl) (h'.fromStart i hi mid rfl)
  · intro i hi cur hcur
    rcases List.mem_append.mp hi with hi | hi
    · exact SortOrder.before_of_before_of_not_before (h.untilStop i hi mid rfl)
        (h'.forward mid rfl cur hcur)
    · exact h'.untilStop i hi cur hcur
  · intro cur hcur cur' hcur'
    exact SortOrder.not_before_trans (h.forward cur hcur mid rfl) (h'.forward mid rfl cur' hcur')

/-- A stretch returns no change twice. -/
theorem filter_feedPlace_eq (h : Stretch m order start stop items) {i : WatchedItem × ChangeInfo}
    (hi : i ∈ items) : items.filter (fun j => j.2.feedPlace = i.2.feedPlace) = [i] := by
  obtain ⟨front, back, rfl⟩ := List.append_of_mem hi
  obtain ⟨_, hback, hcross⟩ := List.pairwise_append.mp h.sorted
  have hfront : front.filter (fun j => j.2.feedPlace = i.2.feedPlace) = [] := by
    rw [List.filter_eq_nil_iff]
    intro j hj hji
    have hbefore := hcross j hj i List.mem_cons_self
    rw [of_decide_eq_true hji] at hbefore
    exact SortOrder.before_irrefl order _ hbefore
  have hback : back.filter (fun j => j.2.feedPlace = i.2.feedPlace) = [] := by
    rw [List.filter_eq_nil_iff]
    intro j hj hji
    have hbefore := (List.pairwise_cons.mp hback).1 j hj
    rw [of_decide_eq_true hji] at hbefore
    exact SortOrder.before_irrefl order _ hbefore
  rw [List.filter_append, hfront, List.filter_cons_of_pos (by simp), hback, List.nil_append]

end Stretch

namespace Service

variable {s : Service} {m : Meaning} {user : User} {request : FeedRequest} {w : Walk}
  {seen table rows : List Row} {start : Option Cursor} {size : Nat} {page : ChangePage}
  {c : Collaborators}

/-- A page is the stretch of what is to come from its start to its cursor. -/
theorem Pending.stretch (h : s.Pending m user request w table start rows)
    (hp : page.Cuts c user size rows) (hseen : m.Dates table) :
    Stretch m w.sortOrder start page.cursor page.items := by
  have hplaces := hp.map_feedPlace
  have hitem (i : WatchedItem × ChangeInfo) (hi : i ∈ page.items) :
      ∃ r ∈ rows.take size, r.feedPlace = i.2.feedPlace := by
    have hmem := List.mem_map_of_mem (f := fun i => i.2.feedPlace) hi
    rw [hplaces] at hmem
    exact List.mem_map.mp hmem
  have hnext (cur : Cursor) (hcur : cur ∈ page.cursor) :
      ∃ r, rows[size]? = some r ∧ cur.place m = r.feedPlace := by
    obtain ⟨r, hr, hrc⟩ := hp.exists_next hcur
    have htable := ((h.mem_iff r).mp (List.mem_of_getElem? hr)).1
    exact ⟨r, hr, hseen.place_of_cursor htable hrc⟩
  refine ⟨?_, ?_, ?_, ?_⟩
  · rw [← List.pairwise_map (f := fun i : WatchedItem × ChangeInfo => i.2.feedPlace), hplaces,
      List.pairwise_map]
    exact h.sorted.sublist (List.take_sublist size rows)
  · intro i hi cur hcur
    obtain ⟨r, hr, hri⟩ := hitem i hi
    rw [← hri]
    exact ((h.mem_iff r).mp (List.mem_of_mem_take hr)).2.2 cur hcur
  · intro i hi cur hcur
    obtain ⟨r, hr, hri⟩ := hitem i hi
    obtain ⟨t, ht, htc⟩ := hnext cur hcur
    rw [← hri, htc]
    exact SortOrder.before_of_mem_take h.sorted ht hr
  · intro cur hcur cur' hcur'
    obtain ⟨t, ht, htc⟩ := hnext cur' hcur'
    rw [htc]
    exact ((h.mem_iff t).mp (List.mem_of_getElem? ht)).2.2 cur hcur

/-- A page returns all that is to come before its cursor. -/
theorem Pending.exists_item {r : Row} (h : s.Pending m user request w table start rows)
    (hp : page.Cuts c user size rows) (hseen : m.Dates table) (hr : r ∈ rows)
    (hcur : ∀ cur ∈ page.cursor, w.sortOrder.Before r.feedPlace (cur.place m)) :
    ∃ i ∈ page.items, r.changeItem c user = .ok i := by
  apply exists_of_forall₂ hp.items
  cases ht : rows[size]? with
  | none => rwa [List.take_of_length_le (List.getElem?_eq_none_iff.mp ht)]
  | some t =>
    obtain ⟨cur, htc, hpage⟩ := hp.next t ht
    have hbefore := hcur cur hpage
    rw [hseen.place_of_cursor ((h.mem_iff t).mp (List.mem_of_getElem? ht)).1 htc] at hbefore
    rw [← List.take_append_drop size rows] at hr
    exact (List.mem_append.mp hr).resolve_right fun hdrop =>
      SortOrder.not_before_of_mem_drop h.sorted ht hdrop hbefore

section Run

variable {calls : List (Service × List Row)} {pages : List ChangePage} {limit : Scalar}

/-- A run from a start returns one stretch of the walk. -/
theorem stretch_of_follow (hseen : m.Dates seen) (hcalls : ∀ c ∈ calls, c.1.Over m seen c.2)
    (hw : request.walk = some w.name) (hlimit : request.limit = some limit)
    (start : Option Cursor) (hstart : ∀ cur ∈ start, ∃ r ∈ seen, r.cursor = .ok cur)
    (h : follow user request (calls.map Prod.fst) (start.map Cursor.toRaw) = .ok pages) :
    Stretch m w.sortOrder start none (pages.flatMap ChangePage.items) := by
  induction calls generalizing start pages with
  | nil =>
    cases h
    exact .nil m w.sortOrder start
  | cons call calls ih =>
    have hcall := hcalls call List.mem_cons_self
    have hrun (c) (hc : c ∈ calls) := hcalls c (List.mem_cons_of_mem call hc)
    obtain ⟨page, hpage, hrest⟩ := (follow_cons_eq_ok_iff user request).mp h
    obtain ⟨rows, hrows, hcuts⟩ := hcall.exists_cuts_of_changes hseen hw hlimit hstart hpage
    have hstretch := hrows.stretch hcuts (hseen.mono hcall.within)
    rcases hrest with ⟨hlast, rfl⟩ | ⟨next, rest, hnext, hrest, rfl⟩
    · rw [hlast] at hstretch
      simpa using hstretch
    · obtain ⟨r, hr, hrc⟩ := hcuts.exists_next hnext
      have hr := hcall.within ((hrows.mem_iff r).mp (List.mem_of_getElem? hr)).1
      rw [hnext] at hstretch
      exact hstretch.append (ih hrun next (by simpa using ⟨r, hr, hrc⟩) hrest)

/-- A run that reaches its end returns what matched all along and does not stand before its
start. -/
theorem exists_item_of_follow (hseen : m.Dates seen) (hcalls : ∀ c ∈ calls, c.1.Over m seen c.2)
    (hw : request.walk = some w.name) (hlimit : request.limit = some limit)
    (start : Option Cursor) (hstart : ∀ cur ∈ start, ∃ r ∈ seen, r.cursor = .ok cur)
    (h : follow user request (calls.map Prod.fst) (start.map Cursor.toRaw) = .ok pages)
    (hend : ∃ page ∈ pages, page.cursor = none) {r : Row}
    (hr : ∀ c ∈ calls.take pages.length, r ∈ c.2 ∧ c.1.Matches m user request r)
    (hfrom : ∀ cur ∈ start, ¬ w.sortOrder.Before r.feedPlace (cur.place m)) :
    ∃ c ∈ calls.take pages.length, ∃ i ∈ pages.flatMap ChangePage.items,
      r.changeItem c.1.host.collaborators user = .ok i := by
  induction calls generalizing start pages with
  | nil =>
    cases h
    simp at hend
  | cons call calls ih =>
    have hcall := hcalls call List.mem_cons_self
    have hrun (c) (hc : c ∈ calls) := hcalls c (List.mem_cons_of_mem call hc)
    obtain ⟨page, hpage, hrest⟩ := (follow_cons_eq_ok_iff user request).mp h
    obtain ⟨rows, hrows, hcuts⟩ := hcall.exists_cuts_of_changes hseen hw hlimit hstart hpage
    have hmem : call ∈ (call :: calls).take pages.length := by
      rcases hrest with ⟨_, rfl⟩ | ⟨_, _, _, _, rfl⟩ <;> simp
    have hpending : r ∈ rows :=
      (hrows.mem_iff r).mpr ⟨(hr call hmem).1, (hr call hmem).2, hfrom⟩
    rcases hrest with ⟨hlast, rfl⟩ | ⟨next, rest, hnext, hrest, rfl⟩
    · obtain ⟨i, hi, hitem⟩ := hrows.exists_item hcuts (hseen.mono hcall.within) hpending
        (by simp [hlast])
      exact ⟨call, hmem, i, by simpa using hi, hitem⟩
    · by_cases hbefore : w.sortOrder.Before r.feedPlace (next.place m)
      · obtain ⟨i, hi, hitem⟩ := hrows.exists_item hcuts (hseen.mono hcall.within)
          hpending (by simpa [hnext] using hbefore)
        exact ⟨call, hmem, i, List.mem_append_left _ hi, hitem⟩
      · obtain ⟨t, ht, htc⟩ := hcuts.exists_next hnext
        have ht := hcall.within ((hrows.mem_iff t).mp (List.mem_of_getElem? ht)).1
        have hend : ∃ page ∈ rest, page.cursor = none := by simpa [hnext] using hend
        have hlater (c) (hc : c ∈ calls.take rest.length) := hr c (by simp [hc])
        obtain ⟨c, hc, i, hi, hitem⟩ := ih hrun (some next) (by simpa using ⟨t, ht, htc⟩)
          hrest hend hlater (by simpa using hbefore)
        refine ⟨c, ?_, i, ?_, hitem⟩
        · simp [hc]
        · exact List.mem_append_right _ hi

/-- While the table changes between the calls, a run returns changes strictly in the order of its
walk: to older changes the places descend, to newer ones they ascend. A run that reaches its end
returns every change exactly once that was there and matched the request at each of its calls,
whatever became of the changes that its cursors point at. -/
theorem follow_stable_under_writes (hcalls : ∀ c ∈ calls, c.1.Over m (calls.flatMap Prod.snd) c.2)
    (hdates : m.Dates (calls.flatMap Prod.snd)) (hw : request.walk = some w.name)
    (hlimit : request.limit = some limit)
    (h : follow user request (calls.map Prod.fst) none = .ok pages) :
    (request.walk = some "older" → (pages.flatMap ChangePage.items).Pairwise
        fun i j => j.2.feedPlace < i.2.feedPlace) ∧
      (request.walk = some "newer" → (pages.flatMap ChangePage.items).Pairwise
        fun i j => i.2.feedPlace < j.2.feedPlace) ∧
      ((∃ page ∈ pages, page.cursor = none) →
        ∀ r, (∀ c ∈ calls.take pages.length, r ∈ c.2 ∧ c.1.Matches m user request r) →
          ∃ c ∈ calls.take pages.length, ∃ i, r.changeItem c.1.host.collaborators user = .ok i ∧
            (pages.flatMap ChangePage.items).filter (fun j => j.2.feedPlace = r.feedPlace)
              = [i]) := by
  have hstretch := stretch_of_follow hdates hcalls hw hlimit none (by simp) h
  have hsorted := hstretch.sorted
  refine ⟨?_, ?_, ?_⟩
  · intro holder
    cases w with
    | older => exact hsorted
    | newer => exact absurd (hw.symm.trans holder) (by decide)
  · intro hnewer
    cases w with
    | older => exact absurd (hw.symm.trans hnewer) (by decide)
    | newer => exact hsorted
  · intro hend r hr
    obtain ⟨c, hc, i, hi, hitem⟩ := exists_item_of_follow hdates hcalls hw hlimit none
      (by simp) h hend hr (by simp)
    refine ⟨c, hc, i, hitem, ?_⟩
    rw [← Row.feedPlace_of_changeItem hitem]
    exact hstretch.filter_feedPlace_eq hi

/-- The change that a cursor points at is deleted before the next call; the one after it stays and
is returned once. -/
theorem follow_stable_next_change_deleted :
    let change (id : Int64) := InMemory.watchedChange id "20240101000000"
    let tables := [[change 1, change 2, change 3], [change 1, change 3]]
    let m := Meaning.ofChanges tables.flatten
    let request := FeedRequest.ofSettings [.walk .newer, .allRevisions, .limit (.int 1)]
    ∃ pages, follow InMemory.actingUser request (tables.map (ofTable m)) none = .ok pages ∧
      pages.length = 2 ∧
      (pages.flatMap ChangePage.items).Pairwise (fun i j => i.2.feedPlace < j.2.feedPlace) ∧
      ∃ i, (pages.flatMap ChangePage.items).filter
        (fun j => j.2.feedPlace = (change 3).feedPlace) = [i] := by
  intro change tables m request
  have hrun : (follow InMemory.actingUser request (tables.map (ofTable m)) none).toOption.map
      (fun pages => (pages.length, pages.any fun page => page.cursor.isNone))
        = some (2, true) := by decide +kernel
  obtain ⟨pages, hpages, hends⟩ := Option.map_eq_some_iff.mp hrun
  obtain ⟨hlength, hend⟩ := Prod.mk.inj hends
  have hfollow := Outcome.toOption_eq_some_iff.mp hpages
  have hdistinct : ∀ table ∈ tables, (table.map Record.feedPlace).Nodup := by decide +kernel
  have hstays : ∀ table ∈ tables, change 3 ∈ table ∧
      ((ofTable m table).changes InMemory.actingUser request none).selects.any
        (fun q => q.accepts m (change 3)) = true := by decide +kernel
  let calls := tables.map fun table => (ofTable m table, table)
  have hcalls : ∀ c ∈ calls, c.1.Over m (calls.flatMap Prod.snd) c.2 := by
    intro c hc
    obtain ⟨table, htable, rfl⟩ := List.mem_map.mp hc
    exact over_ofTable (by decide +kernel) (fun r hr => List.mem_flatten_of_mem htable hr)
      (hdistinct table htable)
  have hdates : m.Dates (calls.flatMap Prod.snd) :=
    InMemory.dates_ofChanges (by simp [tables, change])
  obtain ⟨_, hsorted, honce⟩ :=
    follow_stable_under_writes hcalls hdates (w := .newer) rfl rfl hfollow
  have hmatches : ∀ c ∈ calls.take pages.length,
      change 3 ∈ c.2 ∧ c.1.Matches m InMemory.actingUser request (change 3) := by
    intro c hc
    obtain ⟨table, htable, rfl⟩ := List.mem_map.mp (List.mem_of_mem_take hc)
    exact ⟨(hstays table htable).1, List.any_eq_true.mp (hstays table htable).2⟩
  obtain ⟨_, _, i, _, hi⟩ := honce (by simpa using hend) (change 3) hmatches
  exact ⟨pages, hfollow, hlength, hsorted rfl, i, hi⟩

end Run

end Service

end PageWatch
