import PageWatch.Proofs.Resumption
import PageWatch.Proofs.Tables

/-! Duality: a feed walked the other way between the same bounds is the same feed backwards, and a
cursor cuts it in two. -/
namespace PageWatch

/-- The other way through the feed. -/
def Walk.opposite : Walk → Walk
  | older => newer
  | newer => older

theorem Walk.opposite_opposite (w : Walk) : w.opposite.opposite = w := by cases w <;> rfl

theorem Walk.sortOrder_opposite (w : Walk) : w.opposite.sortOrder = w.sortOrder.reversed := by
  cases w <;> rfl

theorem SortOrder.reversed_reversed (o : SortOrder) : o.reversed.reversed = o := by cases o <;> rfl

/-- A request along a walk, turned round: it asks for the same stretch of the feed from its other
end. -/
def FeedRequest.turned (r : FeedRequest) (w : Walk) : FeedRequest :=
  { r with walk := some w.opposite.name, start := r.stop, stop := r.start }

def FeedOptions.turned (o : FeedOptions) (w : Walk) : FeedOptions :=
  { o with walk := some w.opposite, window := ⟨o.window.stop, o.window.start⟩ }

variable {w : Walk} {r : FeedRequest} {o : FeedOptions} {user : User}

theorem FeedRequest.turned_turned (hw : r.walk = some w.name) :
    (r.turned w).turned w.opposite = r := by
  cases r
  simp_all [turned, Walk.opposite_opposite]

theorem FeedRequest.Validated.turned {cursor : Option (List Scalar)}
    (h : r.Validated user cursor o) : (r.turned w).Validated user cursor (o.turned w) := by
  refine ⟨h.groups, h.namespaces, h.kinds, ?_, fun _ => rfl, ?_, h.limit, h.filters, h.author,
    h.scope, h.allRevisions, h.forGenerator, h.startFrom⟩
  · exact readWalk_eq_ok_iff.mpr rfl
  · simp [FeedRequest.turned, FeedOptions.turned, h.window]

namespace FeedOptions

variable {c : Collaborators} {x : Executor} {config : SelectConfig} {g : Grant} {q : SelectQuery}

/-- The same bounds are asked for, the one that was reached last now first. -/
theorem windowTerms_turned (hw : o.walk = some w) :
    (o.turned w).windowTerms.Perm o.windowTerms := by
  simp only [windowTerms, turned, hw, Walk.sortOrder_opposite, SortOrder.reversed_reversed]
  exact List.perm_append_comm

theorem terms_turned (backend : Backend) (owner : Int64) (hw : o.walk = some w)
    (hstart : o.startFrom = none) :
    ((o.turned w).terms c config backend g owner).Perm (o.terms c config backend g owner) := by
  have hcursor (o : FeedOptions) (h : o.startFrom = none) : o.cursorTerms = [] := by
    simp [cursorTerms, h]
  have hhint : (o.turned w).hintTerms config backend = o.hintTerms config backend := by
    simp [hintTerms, turned, Window.isUnbounded, Bool.and_comm]
  have hwindow := windowTerms_turned hw
  simp only [terms, hhint, hcursor o hstart, hcursor (o.turned w) hstart]
  -- Whatever stands before and after the window does not depend on it.
  apply List.Perm.append_right
  apply List.Perm.append_right
  apply List.Perm.append_right
  apply List.Perm.append_right
  exact List.Perm.append_left _ hwindow

/-- What compiles one way compiles the other way, under the same conditions in another order. -/
theorem exists_select_turned (h : o.select c x config g = .ok q) (hw : o.walk = some w)
    (hstart : o.startFrom = none) : ∃ q', (o.turned w).select c x config g = .ok q' ∧
      q'.conditions.Perm q.conditions := by
  obtain ⟨fields, owner, hfields, howner, _⟩ := select_eq_ok_iff.mp h
  have h' : (o.turned w).select c x config g = .ok _ :=
    select_eq_ok_iff.mpr ⟨fields, owner, hfields, howner, rfl⟩
  refine ⟨_, h', ?_⟩
  obtain ⟨n, hn, hq⟩ := conditions_of_select h
  obtain ⟨n', hn', hq'⟩ := conditions_of_select h'
  obtain rfl : n = n' := Except.ok.inj (hn.symm.trans hn')
  rw [hq, hq']
  exact (terms_turned x.backend n hw hstart).map _

end FeedOptions

namespace Service

variable {s : Service} {request : FeedRequest} {cursor : Option (List Scalar)} {g : Grant}
  {x : Executor} {q : SelectQuery} {m : Meaning} {table rows : List Row} {page : ChangePage}

/-- The rows that a call fetches, in their order. -/
def Fetches (s : Service) (user : User) (request : FeedRequest) (cursor : Option (List Scalar))
    (rows : List Row) : Prop :=
  ∃ x, s.host.replica = .ok x ∧ ∃ q ∈ (s.changes user request cursor).selects,
    x.select q = .ok rows

/-- A service without extensions whose executor answers every select from one table of rows, no two
of which stand at one place. -/
structure Backed (s : Service) (m : Meaning) (table : List Row) : Prop where
  extensions : s.extensions = []
  replica : ∃ x, s.host.replica = .ok x ∧ x.Answers m table
  distinct : (table.map Record.feedPlace).Nodup

theorem Compiles.fetches_iff (h : s.Compiles user request cursor o g x q)
    (hs : s.extensions = []) : s.Fetches user request cursor rows ↔ x.select q = .ok rows := by
  constructor
  · rintro ⟨x', hx', q', hq', hrows⟩
    obtain ⟨o', g', x'', q'', h', hbefore⟩ := mem_selects_changes_iff.mp hq'
    obtain ⟨rfl, rfl, rfl, rfl⟩ := h.unique h'
    obtain rfl : x' = x := Except.ok.inj (hx'.symm.trans h.replica)
    rw [hs] at hbefore
    cases hbefore
    exact hrows
  · intro hrows
    refine ⟨x, h.replica, q, ?_, hrows⟩
    exact mem_selects_changes_iff.mpr ⟨o, g, x, q, h, by rw [hs]; rfl⟩

/-- A call whose rows are fetched has compiled. -/
theorem Fetches.exists_compiles (h : s.Fetches user request cursor rows) :
    ∃ o g x q, s.Compiles user request cursor o g x q := by
  obtain ⟨_, _, _, hq, _⟩ := h
  obtain ⟨o, g, x, q, hcompiles, _⟩ := mem_selects_changes_iff.mp hq
  exact ⟨o, g, x, q, hcompiles⟩

theorem Compiles.turned (h : s.Compiles user request none o g x q)
    (hw : request.walk = some w.name) : ∃ q',
      s.Compiles user (request.turned w) none (o.turned w) g x q' ∧
        q'.conditions.Perm q.conditions := by
  have hv := FeedRequest.validate_eq_ok_iff.mp h.validated
  obtain ⟨q', hq', hperm⟩ := FeedOptions.exists_select_turned h.compiled
    (hv.walk_eq_some_iff.mpr hw) hv.startFrom_none
  refine ⟨q', ⟨?_, h.decided, h.replica, hq'⟩, hperm⟩
  exact FeedRequest.validate_eq_ok_iff.mpr hv.turned

/-- Without a limit, a call along a walk fetches the accepted rows, strictly sorted. -/
theorem Backed.exists_fetched (hs : s.Backed m table)
    (h : s.Compiles user request cursor o g x q) (hw : request.walk = some w.name)
    (hlimit : request.limit = none) : ∃ rows, s.Fetches user request cursor rows ∧
      rows.Pairwise (fun r t => w.sortOrder.Before r.feedPlace t.feedPlace) ∧
      ∀ r, r ∈ rows ↔ r ∈ table ∧ q.accepts m r = true := by
  obtain ⟨x', hx', hanswers⟩ := hs.replica
  obtain rfl : x = x' := Except.ok.inj (h.replica.symm.trans hx')
  have hv := FeedRequest.validate_eq_ok_iff.mp h.validated
  have horder : q.orderBy = w.sortOrder.byPair "rc_timestamp" "rc_id" := by
    rw [FeedOptions.orderBy_of_select h.compiled]
    exact FeedOptions.orderBy_of_walk (hv.walk_eq_some_iff.mpr hw)
  have hsize : o.pageSize? = none := by
    rw [FeedOptions.pageSize?, hv.limit, hlimit]
    rfl
  obtain ⟨rows, hselect, hsorted, hmem⟩ := hanswers.exists_sorted hs.distinct horder
  rw [FeedOptions.cut_of_select_unlimited h.compiled hsize] at hselect
  exact ⟨rows, (h.fetches_iff hs.extensions).mpr hselect, hsorted, hmem⟩

/-- What is fetched is determined by the walk and by which rows are accepted. -/
theorem Backed.fetches_iff (hs : s.Backed m table) (h : s.Compiles user request cursor o g x q)
    (hw : request.walk = some w.name) (hlimit : request.limit = none) :
    s.Fetches user request cursor rows ↔
      rows.Pairwise (fun r t => w.sortOrder.Before r.feedPlace t.feedPlace) ∧
        ∀ r, r ∈ rows ↔ r ∈ table ∧ q.accepts m r = true := by
  obtain ⟨rows', hrows', hsorted', hmem'⟩ := hs.exists_fetched h hw hlimit
  constructor
  · intro hrows
    have hselect := (h.fetches_iff hs.extensions).mp hrows
    rw [(h.fetches_iff hs.extensions).mp hrows'] at hselect
    cases hselect
    exact ⟨hsorted', hmem'⟩
  · rintro ⟨hsorted, hmem⟩
    have hsame : rows = rows' :=
      SortOrder.eq_of_mem_iff hsorted hsorted' fun r => (hmem r).trans (hmem' r).symm
    exact hsame ▸ hrows'

/-- The other way the same rows are fetched backwards. -/
theorem Backed.fetches_turned (hs : s.Backed m table) (hw : request.walk = some w.name)
    (hlimit : request.limit = none) (h : s.Fetches user request none rows) :
    s.Fetches user (request.turned w) none rows.reverse := by
  obtain ⟨o, g, x, q, hcompiles⟩ := h.exists_compiles
  obtain ⟨q', hcompiles', hperm⟩ := hcompiles.turned hw
  obtain ⟨hsorted, hmem⟩ := (hs.fetches_iff hcompiles hw hlimit).mp h
  have haccepts (r : Row) : q'.accepts m r = q.accepts m r := hperm.all_eq
  apply (hs.fetches_iff hcompiles' (w := w.opposite) rfl hlimit).mpr
  constructor
  · rw [List.pairwise_reverse]
    refine hsorted.imp fun {r t} hbefore => ?_
    rw [Walk.sortOrder_opposite]
    exact SortOrder.before_reversed_iff.mpr hbefore
  · intro r
    rw [List.mem_reverse, hmem, haccepts]

/-- Without a limit, an answer is made of all rows that are fetched and ends the feed. -/
theorem Backed.changes_eq_ok_iff (hs : s.Backed m table) (hlimit : request.limit = none) :
    (s.changes user request none).result = .ok page ↔ page.cursor = none ∧
      ∃ rows, s.Fetches user request none rows ∧
        List.Forall₂ (fun r i => r.changeItem s.host.collaborators user = .ok i) rows
          page.items := by
  have hpage {o : FeedOptions} {g : Grant} {x : Executor} {q : SelectQuery}
      (h : s.Compiles user request none o g x q) :
      (s.changes user request none).result = .ok page ↔ ∃ rows, x.select q = .ok rows ∧
        List.Forall₂ (fun r i => r.changeItem s.host.collaborators user = .ok i) rows
          page.items ∧ page.cursor = none := by
    have hcap : o.rowCap = none := by
      rw [FeedOptions.rowCap, (FeedRequest.validate_eq_ok_iff.mp h.validated).limit, hlimit]
      rfl
    have hstart : s.Compiles user request (Option.map Cursor.toRaw none) o g x q := h
    have hresult : (s.changes user request none).result = .ok page ↔ _ :=
      hstart.changes_eq_ok_iff hs.extensions
    simp only [hcap, ChangePage.ofRows_none_eq_ok_iff] at hresult
    exact hresult
  constructor
  · intro h
    obtain ⟨o, g, x, q, _, _, _, hcompiles, _⟩ := Service.changes_eq_ok_iff.mp h
    obtain ⟨rows, hselect, hitems, hcursor⟩ := (hpage hcompiles).mp h
    exact ⟨hcursor, rows, (hcompiles.fetches_iff hs.extensions).mpr hselect, hitems⟩
  · rintro ⟨hcursor, rows, hfetched, hitems⟩
    obtain ⟨o, g, x, q, hcompiles⟩ := hfetched.exists_compiles
    have hselect := (hcompiles.fetches_iff hs.extensions).mp hfetched
    exact (hpage hcompiles).mpr ⟨rows, hselect, hitems, hcursor⟩

/-- The other way an answer has the same items backwards. -/
theorem Backed.changes_turned (hs : s.Backed m table) (hw : request.walk = some w.name)
    (hlimit : request.limit = none) (h : (s.changes user request none).result = .ok page) :
    (s.changes user (request.turned w) none).result
      = .ok { page with items := page.items.reverse } := by
  have hturned : (request.turned w).limit = none := hlimit
  obtain ⟨hcursor, rows, hfetched, hitems⟩ := (hs.changes_eq_ok_iff hlimit).mp h
  apply (hs.changes_eq_ok_iff hturned).mpr
  refine ⟨hcursor, rows.reverse, hs.fetches_turned hw hlimit hfetched, ?_⟩
  exact List.forall₂_reverse_iff.mpr hitems

end Service

/-- The place of a cursor is known, and going on there is understood both ways. -/
structure Meaning.Locates (m : Meaning) (x : Executor) (cur : Cursor) : Prop where
  stored : m.stored cur.timestamp ≠ .null
  understood : ∀ order, m.Understands x (cur.position.seek order)

/-- A feed cut at a place, with the rows from there on and the rows from there back. Nothing is
left out, and what both have is the row at the place. -/
structure CutAtPlace (p : Place) (rows onward back : List Row) : Prop where
  covered : ∀ r ∈ rows, r ∈ onward ∨ r ∈ back
  shared : ∀ r ∈ rows, r ∈ onward ∧ r ∈ back ↔ r.feedPlace = p
  pieces : ∃ before here after, rows = before ++ here ++ after ∧ onward = here ++ after ∧
    back = (before ++ here).reverse ∧ here.length ≤ 1

theorem SortOrder.exists_cutAtPlace {order : SortOrder} {rows : List Row}
    (h : rows.Pairwise fun r t => order.Before r.feedPlace t.feedPlace) (p : Place) :
    ∃ onward back, CutAtPlace p rows onward back ∧
      (onward.Pairwise (fun r t => order.Before r.feedPlace t.feedPlace) ∧
        ∀ r, r ∈ onward ↔ r ∈ rows ∧ ¬ order.Before r.feedPlace p) ∧
      back.Pairwise (fun r t => order.reversed.Before r.feedPlace t.feedPlace) ∧
        ∀ r, r ∈ back ↔ r ∈ rows ∧ ¬ order.reversed.Before r.feedPlace p := by
  obtain ⟨before, here, after, rfl, hlength, hbefore, hhere, hafter⟩ := exists_cut h p
  have honward (r : Row) : r ∈ here ++ after ↔
      r ∈ before ++ here ++ after ∧ ¬ order.Before r.feedPlace p := by
    simp only [List.mem_append]
    constructor
    · rintro (hr | hr)
      · exact ⟨.inl (.inr hr), hhere r hr ▸ before_irrefl order _⟩
      · exact ⟨.inr hr, before_asymm (hafter r hr)⟩
    · rintro ⟨(hr | hr) | hr, hnot⟩
      · exact (hnot (hbefore r hr)).elim
      · exact .inl hr
      · exact .inr hr
  have hback (r : Row) : r ∈ (before ++ here).reverse ↔
      r ∈ before ++ here ++ after ∧ ¬ order.reversed.Before r.feedPlace p := by
    simp only [List.mem_reverse, List.mem_append, before_reversed_iff]
    constructor
    · rintro (hr | hr)
      · exact ⟨.inl (.inl hr), before_asymm (hbefore r hr)⟩
      · exact ⟨.inl (.inr hr), hhere r hr ▸ before_irrefl order _⟩
    · rintro ⟨(hr | hr) | hr, hnot⟩
      · exact .inl hr
      · exact .inr hr
      · exact (hnot (hafter r hr)).elim
  refine ⟨here ++ after, (before ++ here).reverse, ⟨?_, ?_, ?_⟩, ⟨?_, honward⟩, ?_, hback⟩
  · intro r hr
    rw [List.append_assoc, List.mem_append] at hr
    rcases hr with hr | hr
    · exact .inr (List.mem_reverse.mpr (List.mem_append_left here hr))
    · exact .inl hr
  · intro r hr
    rw [honward, hback, before_reversed_iff]
    constructor
    · rintro ⟨⟨_, hnot⟩, _, hnot'⟩
      exact (not_before_iff.mp hnot).resolve_right hnot'
    · intro hp
      rw [hp]
      exact ⟨⟨hr, before_irrefl order p⟩, hr, before_irrefl order p⟩
  · exact ⟨before, here, after, rfl, rfl, rfl, hlength⟩
  · rw [List.append_assoc] at h
    exact (List.pairwise_append.mp h).2.1
  · rw [List.pairwise_reverse]
    exact (List.pairwise_append.mp h).1.imp fun hrt => before_reversed_iff.mpr hrt

namespace Service

variable {s : Service} {request : FeedRequest} {m : Meaning} {table : List Row}

/-- From a cursor on, a call fetches those rows of the feed that do not stand before the cursor. -/
theorem Backed.fetches_resumed_iff {o : FeedOptions} {g : Grant} {x : Executor} {q : SelectQuery}
    {raw : List Scalar} {cur : Cursor} {rows resumed : List Row} (hs : s.Backed m table)
    (h : s.Compiles user request none o g x q) (hw : request.walk = some w.name)
    (hlimit : request.limit = none) (hrows : s.Fetches user request none rows)
    (hdated : ∀ r ∈ rows, r.Dated) (hcur : Cursor.ofRaw raw = .ok cur) (hm : m.Locates x cur) :
    s.Fetches user request (some raw) resumed ↔
      resumed.Pairwise (fun r t => w.sortOrder.Before r.feedPlace t.feedPlace) ∧
        ∀ r, r ∈ resumed ↔ r ∈ rows ∧ ¬ w.sortOrder.Before r.feedPlace (cur.place m) := by
  rw [hs.fetches_iff (h.goOn hw hcur) hw hlimit]
  refine and_congr_right fun _ => forall_congr' fun r => iff_congr Iff.rfl ?_
  have hmem := ((hs.fetches_iff h hw hlimit).mp hrows).2
  have haccepts : ({ q with conditions := q.conditions ++ [cur.condition x w] } :
        SelectQuery).accepts m r = true ↔
      q.accepts m r = true ∧ (cur.condition x w).truth m r = .holds := by
    simp only [SelectQuery.accepts_eq_true_iff, List.forall_mem_append, List.forall_mem_singleton]
  rw [haccepts, hmem, and_assoc]
  refine and_congr_right fun htable => and_congr_right fun haccepted => ?_
  have hr := hdated r ((hmem r).mpr ⟨htable, haccepted⟩)
  exact Cursor.truth_seek_iff (hm.understood w.sortOrder) hr hm.stored

/-- The two ways through the feed are duals. A request turned round is answered with the same items
backwards. Whatever the cursor, going on from it one way and going on from it the other way fetch
together what the request fetches from the beginning, and both fetch the row at the cursor's place
only. -/
theorem opposite_walks_are_dual (hs : s.Backed m table) (hw : request.walk = some w.name)
    (hlimit : request.limit = none) :
    (∀ page, (s.changes user request none).result = .ok page ↔
      (s.changes user (request.turned w) none).result
        = .ok { page with items := page.items.reverse }) ∧
    ∀ rows, s.Fetches user request none rows →
      s.Fetches user (request.turned w) none rows.reverse ∧
      ((∀ r ∈ rows, r.Dated) → ∀ raw cur, Cursor.ofRaw raw = .ok cur →
        (∀ x, s.host.replica = .ok x → m.Locates x cur) →
        ∃ onward back, s.Fetches user request (some raw) onward ∧
          s.Fetches user (request.turned w) (some raw) back ∧
          CutAtPlace (cur.place m) rows onward back) := by
  constructor
  · intro page
    constructor
    · exact hs.changes_turned hw hlimit
    · intro h
      have hw' : (request.turned w).walk = some w.opposite.name := rfl
      have hlimit' : (request.turned w).limit = none := hlimit
      have hback := hs.changes_turned hw' hlimit' h
      rw [FeedRequest.turned_turned hw, List.reverse_reverse] at hback
      exact hback
  · intro rows hrows
    have hturned := hs.fetches_turned hw hlimit hrows
    refine ⟨hturned, ?_⟩
    intro hdated raw cur hcur hlocates
    obtain ⟨o, g, x, q, h⟩ := hrows.exists_compiles
    obtain ⟨q', h', _⟩ := h.turned hw
    have hm := hlocates x h.replica
    obtain ⟨hsorted, _⟩ := (hs.fetches_iff h hw hlimit).mp hrows
    obtain ⟨onward, back, hcut, honward, hback⟩ :=
      SortOrder.exists_cutAtPlace hsorted (cur.place m)
    refine ⟨onward, back, ?_, ?_, hcut⟩
    · exact (hs.fetches_resumed_iff h hw hlimit hrows hdated hcur hm).mpr honward
    · have hdated' : ∀ r ∈ rows.reverse, r.Dated := by simpa using hdated
      apply (hs.fetches_resumed_iff h' (w := w.opposite) rfl hlimit hturned hdated' hcur hm).mpr
      simpa only [Walk.sortOrder_opposite, List.mem_reverse] using hback

/-- A stretch of the feed that begins with two changes of one moment, cut at the second one. -/
theorem opposite_walks_are_dual_tied_changes :
    let change := InMemory.watchedChange
    let table := [change 4 "20240103000000", change 1 "20240101000000",
      change 3 "20240102000000", change 2 "20240101000000"]
    let m := Meaning.ofChanges table
    let s := ofTable m table
    let user := InMemory.actingUser
    let request := FeedRequest.ofSettings
      [.walk .newer, .start "20240101000000", .stop "20240102000000", .allRevisions]
    let cur : Cursor := ⟨"20240101000000", 2⟩
    ∃ page rows onward back, (s.changes user request none).result = .ok page ∧
      page.items.length = 3 ∧ (s.changes user (request.turned .newer) none).result
        = .ok { page with items := page.items.reverse } ∧
      s.Fetches user request none rows ∧ s.Fetches user request (some cur.toRaw) onward ∧
      s.Fetches user (request.turned .newer) (some cur.toRaw) back ∧
      CutAtPlace (cur.place m) rows onward back := by
  intro change table m s user request cur
  have hlength : (s.changes user request none).result.toOption.map
      (fun page => page.items.length) = some 3 := by decide +kernel
  obtain ⟨page, hanswer, hitems⟩ := Option.map_eq_some_iff.mp hlength
  have hpage := Outcome.toOption_eq_some_iff.mp hanswer
  have hover : s.Over m table table :=
    over_ofTable (by decide +kernel) (List.Subset.refl table) (by decide +kernel)
  have hdates : m.Dates table := InMemory.dates_ofChanges (by simp [table, change])
  obtain ⟨x, hx, hanswers, hunderstands⟩ := hover.replica
  have hs : s.Backed m table := ⟨hover.extensions, ⟨x, hx, hanswers⟩, hover.distinct⟩
  have hw : request.walk = some Walk.newer.name := rfl
  have hlimit : request.limit = none := rfl
  obtain ⟨_, rows, hfetched, _⟩ := (hs.changes_eq_ok_iff hlimit).mp hpage
  obtain ⟨o, g, x', q, h⟩ := hfetched.exists_compiles
  have hturned := ((opposite_walks_are_dual hs hw hlimit).1 page).mp hpage
  have hdated : ∀ r ∈ rows, r.Dated := fun r hr =>
    hdates.dated r ((((hs.fetches_iff h hw hlimit).mp hfetched).2 r).mp hr).1
  have hsecond : change 2 "20240101000000" ∈ table ∧
      (change 2 "20240101000000").cursor = .ok cur := by decide +kernel
  have hlocates : ∀ x', s.host.replica = .ok x' → m.Locates x' cur := by
    intro x' hx'
    obtain rfl : x = x' := Except.ok.inj (hx.symm.trans hx')
    exact ⟨hdates.stored_ne_null hsecond.1 hsecond.2,
      hunderstands _ hsecond.1 cur hsecond.2⟩
  obtain ⟨_, hcuts⟩ := (opposite_walks_are_dual hs hw hlimit).2 rows hfetched
  obtain ⟨onward, back, honward, hback, hcut⟩ :=
    hcuts hdated cur.toRaw cur cur.ofRaw_toRaw hlocates
  exact ⟨page, rows, onward, back, hpage, hitems, hturned, hfetched, honward, hback, hcut⟩

end Service

end PageWatch
