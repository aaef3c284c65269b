import PageWatch.Proofs.Effects
import PageWatch.Proofs.Fetch
import PageWatch.Proofs.Targets

/-! Cutting: which of the fetched rows make a page, which one its cursor, and which one is to blame
when there is no page. -/
namespace PageWatch

namespace Row

variable {r : Row} {c : Collaborators} {user : User}

theorem exists_changeItem_iff :
    (∃ i, r.changeItem c user = .ok i) ↔ ∀ e, ¬ r.ItemFault e := by
  cases h : r.changeItem c user with
  | ok i =>
    refine ⟨fun _ e he => ?_, fun _ => ⟨i, rfl⟩⟩
    have herror : r.changeItem c user = .error e := changeItem_eq_error_iff.mpr he
    rw [h] at herror
    cases herror
  | error e =>
    refine ⟨?_, fun hno => absurd (changeItem_eq_error_iff.mp h) (hno e)⟩
    rintro ⟨i, hi⟩
    cases hi

end Row

namespace ChangePage

variable {c : Collaborators} {user : User} {cap : Option UInt32} {size : Option Nat} {n : Nat}
  {rows : List Row} {page : ChangePage} {e : ContractError}

/-- The fetched rows that become items: those that a page of the given size has room for. -/
def itemRows (size : Option Nat) (rows : List Row) : List Row :=
  rows.take (size.getD rows.length)

/-- The first of the fetched rows to blame when they make no page: one that is to become an item
and cannot, or the row after those, which is to become the cursor and cannot. -/
inductive FirstFault (size : Option Nat) (rows : List Row) : ContractError → Prop where
  | item {front back : List Row} {r : Row} {e : ContractError}
      (hrows : itemRows size rows = front ++ r :: back)
      (hfront : ∀ t ∈ front, ∀ e', ¬ t.ItemFault e') (hfault : r.ItemFault e) :
      FirstFault size rows e
  | cursor {n : Nat} {r : Row} {e : ContractError}
      (hitems : ∀ t ∈ itemRows size rows, ∀ e', ¬ t.ItemFault e') (hsize : size = some n)
      (hnext : rows[n]? = some r) (hfault : r.CursorFault e) : FirstFault size rows e

/-- A page of the fetched rows that it has room for, which goes on at the row after them. -/
structure CutAt (c : Collaborators) (user : User) (size : Option Nat) (rows : List Row)
    (page : ChangePage) : Prop where
  items : List.Forall₂ (fun r i => r.changeItem c user = .ok i) (itemRows size rows) page.items
  cursor : ∀ cur, page.cursor = some cur ↔ ∃ n r, size = some n ∧ rows[n]? = some r ∧
    (r.cell "rc_timestamp").render = some cur.timestamp ∧
      (r.cell "rc_id").coerceInt = some cur.changeId
  ended : page.cursor = none ↔ ∀ n, size = some n → rows.length ≤ n

theorem itemRows_none : itemRows none rows = rows := List.take_length

theorem cutAt_none_iff : page.CutAt c user none rows ↔
    List.Forall₂ (fun r i => r.changeItem c user = .ok i) rows page.items ∧
      page.cursor = none := by
  constructor
  · intro h
    exact ⟨by simpa only [itemRows_none] using h.items, h.ended.mpr nofun⟩
  · rintro ⟨hitems, hcursor⟩
    exact ⟨by rwa [itemRows_none], by simp [hcursor], by simp [hcursor]⟩

theorem cutAt_some_iff : page.CutAt c user (some n) rows ↔ page.Cuts c user n rows := by
  have hended : rows.length ≤ n ↔ rows[n]? = none := List.getElem?_eq_none_iff.symm
  constructor
  · intro h
    refine ⟨h.items, fun hn => h.ended.mpr (by simpa using hended.mpr hn), fun r hr => ?_⟩
    have hsome : page.cursor ≠ none := by
      intro hnone
      have hn := hended.mp (h.ended.mp hnone n rfl)
      rw [hr] at hn
      cases hn
    obtain ⟨cur, hcur⟩ := Option.ne_none_iff_exists'.mp hsome
    obtain ⟨_, r', hn, hr', hcells⟩ := (h.cursor cur).mp hcur
    obtain rfl := Option.some.inj hn
    obtain rfl : r = r' := Option.some.inj (hr.symm.trans hr')
    exact ⟨cur, Row.cursor_eq_ok_iff.mpr hcells, hcur⟩
  · intro h
    cases hn : rows[n]? with
    | none => exact ⟨h.items, by simp [h.last hn, hn], by simp [h.last hn, hended, hn]⟩
    | some r =>
      obtain ⟨⟨t, i⟩, hcur, hpage⟩ := h.next r hn
      obtain ⟨htime, hid⟩ := Row.cursor_eq_ok_iff.mp hcur
      refine ⟨h.items, fun ⟨t', i'⟩ => ?_, by simp [hpage, hended, hn]⟩
      simp [hpage, hn, htime, hid]

/-- A page has a cursor when there are more rows than it has room for. -/
theorem CutAt.isSome_cursor_iff (h : page.CutAt c user size rows) :
    page.cursor.isSome = true ↔ ∃ n, size = some n ∧ n < rows.length := by
  rw [Option.isSome_iff_ne_none, Ne, h.ended]
  simp

/-- Fetched rows that make a page make the one they are to be cut into. -/
theorem ofRows_eq_ok_iff_cutAt (hkept : keptRows cap = size) :
    ofRows c user cap rows = .ok page ↔ page.CutAt c user size rows := by
  cases size with
  | none =>
    obtain rfl : cap = none := Option.map_eq_none_iff.mp hkept
    rw [ofRows_none_eq_ok_iff, cutAt_none_iff]
  | some n => rw [ofRows_eq_ok_iff hkept, cutAt_some_iff]

theorem mapM_changeItem_eq_error_iff :
    rows.mapM (fun r => r.changeItem c user) = .error e ↔ ∃ front r back,
      rows = front ++ r :: back ∧ (∀ t ∈ front, ∀ e', ¬ t.ItemFault e') ∧ r.ItemFault e := by
  simp only [Outcome.mapM_eq_error_iff, Row.exists_changeItem_iff, Row.changeItem_eq_error_iff]

theorem exists_mapM_changeItem_iff :
    (∃ items, rows.mapM (fun r => r.changeItem c user) = .ok items) ↔
      ∀ t ∈ rows, ∀ e, ¬ t.ItemFault e := by
  simp only [Outcome.exists_mapM_eq_ok_iff, Row.exists_changeItem_iff]

/-- Fetched rows make no page exactly when there is a first one to blame, and it is reported. -/
theorem ofRows_eq_error_iff (hkept : keptRows cap = size) :
    ofRows c user cap rows = .error e ↔ FirstFault size rows e := by
  have hpage : ofRows c user cap rows = .error e ↔
      (itemRows size rows).mapM (fun r => r.changeItem c user) = .error e ∨
        (∃ items, (itemRows size rows).mapM (fun r => r.changeItem c user) = .ok items) ∧
          ∃ n r, size = some n ∧ rows[n]? = some r ∧ r.CursorFault e := by
    cases size with
    | none =>
      simp [ofRows, hkept, itemRows_none, Outcome.except_bind_eq_error_iff, pure, Except.pure]
    | some n =>
      simp only [ofRows, hkept, itemRows, Option.getD_some, Outcome.except_bind_eq_error_iff]
      cases hn : rows[n]? <;>
        simp [hn, Outcome.except_bind_eq_error_iff, Row.cursor_eq_error_iff, pure, Except.pure]
  rw [hpage, mapM_changeItem_eq_error_iff, exists_mapM_changeItem_iff]
  constructor
  · rintro (⟨front, r, back, hrows, hfront, hr⟩ | ⟨hitems, n, r, hsize, hn, hr⟩)
    · exact .item hrows hfront hr
    · exact .cursor hitems hsize hn hr
  · rintro (⟨hrows, hfront, hr⟩ | ⟨hitems, hsize, hn, hr⟩)
    · exact .inl ⟨_, _, _, hrows, hfront, hr⟩
    · exact .inr ⟨hitems, _, _, hsize, hn, hr⟩

/-- Of the row after the items only its place counts, and of the rows after that one nothing. -/
theorem ofRows_congr {rows' : List Row} (hkept : keptRows cap = some n)
    (htake : rows.take n = rows'.take n)
    (hnext : rows[n]?.map Record.feedPlace = rows'[n]?.map Record.feedPlace) :
    ofRows c user cap rows = ofRows c user cap rows' := by
  simp only [ofRows, hkept, htake]
  cases hr : rows[n]? with
  | none =>
    rw [hr, Option.map_none, eq_comm, Option.map_eq_none_iff] at hnext
    rw [hnext]
  | some r =>
    rw [hr, Option.map_some, eq_comm, Option.map_eq_some_iff] at hnext
    obtain ⟨r', hr', hplace⟩ := hnext
    simp only [hr', Row.cursor_eq_of_feedPlace hplace]

end ChangePage

namespace Service

variable {s : Service} {user : User} {request : FeedRequest} {cursor : Option (List Scalar)}
  {o : FeedOptions} {g : Grant} {x : Executor} {q q' : SelectQuery} {rows : List Row}
  {page : ChangePage}

theorem result_page {cap : Option UInt32} : (s.page user cap rows).result
    = (ChangePage.ofRows s.host.collaborators user cap rows).mapError .contract := by
  rw [Service.page, Outcome.result_bind, Outcome.result_ofExcept]
  cases ChangePage.ofRows s.host.collaborators user cap rows with
  | error e => rfl
  | ok p =>
    rw [Outcome.mapError_ok, Outcome.except_ok_bind]
    cases p.cursor <;> rfl

/-- Once rows are fetched, the page that they make goes to the hooks after the select. -/
theorem Compiles.result_changes (h : s.Compiles user request cursor o g x q)
    (hbefore : (Extension.beforeAll ⟨user, o, x⟩ s.extensions q).result = .ok q')
    (hrows : x.select q' = .ok rows) : (s.changes user request cursor).result
      = (ChangePage.ofRows s.host.collaborators user o.rowCap rows).mapError .contract >>= fun p =>
        (Extension.afterAll ⟨user, o, x⟩ rows s.extensions p).result := by
  simp only [changes, Outcome.result_bind, Outcome.result_mapError, Outcome.result_ofExcept,
    Outcome.result_perform, Outcome.result_log, Outcome.mapError_ok, Outcome.except_ok_bind,
    Service.replica, Executor.run, FeedOptions.result_compile, result_page, h.validated, h.decided,
    h.replica, h.compiled, hbefore, hrows]

theorem Compiles.changes_of_firstFault (h : s.Compiles user request cursor o g x q)
    (hbefore : (Extension.beforeAll ⟨user, o, x⟩ s.extensions q).result = .ok q')
    (hrows : x.select q' = .ok rows) {e : ContractError}
    (he : ChangePage.FirstFault o.pageSize? rows e) :
    (s.changes user request cursor).result = .error (.contract e) := by
  rw [h.result_changes hbefore hrows,
    (ChangePage.ofRows_eq_error_iff o.keptRows_rowCap).mpr he]
  rfl

theorem Compiles.changes_of_cutAt (h : s.Compiles user request cursor o g x q)
    (hbefore : (Extension.beforeAll ⟨user, o, x⟩ s.extensions q).result = .ok q')
    (hrows : x.select q' = .ok rows)
    (hpage : page.CutAt s.host.collaborators user o.pageSize? rows) :
    (s.changes user request cursor).result
      = (Extension.afterAll ⟨user, o, x⟩ rows s.extensions page).result := by
  rw [h.result_changes hbefore hrows,
    (ChangePage.ofRows_eq_ok_iff_cutAt o.keptRows_rowCap).mpr hpage]
  rfl

/-- Cutting the rows where the select is cut does not change what page they make. -/
theorem Compiles.ofRows_cut (h : s.Compiles user request cursor o g x q) :
    ChangePage.ofRows s.host.collaborators user o.rowCap (q.cut rows)
      = ChangePage.ofRows s.host.collaborators user o.rowCap rows := by
  cases hsize : o.pageSize? with
  | none => rw [FeedOptions.cut_of_select_unlimited h.compiled hsize]
  | some n =>
    rw [FeedOptions.cut_of_select h.compiled hsize]
    refine ChangePage.ofRows_congr (o.keptRows_rowCap.trans hsize) ?_ ?_
    · rw [List.take_take, Nat.min_eq_left (Nat.le_succ n)]
    · rw [List.getElem?_take_of_lt (Nat.lt_succ_self n)]

/-- What a call answers when its select is answered honestly, without hooks, goes by all the
rows that there are, and not by those that were fetched. -/
theorem Compiles.changes_of_cut (h : s.Compiles user request cursor o g x q)
    (hs : s.extensions = []) {all : List Row} (hall : x.select q = .ok (q.cut all)) :
    (s.changes user request cursor).result
      = (ChangePage.ofRows s.host.collaborators user o.rowCap all).mapError .contract := by
  have hbefore : (Extension.beforeAll ⟨user, o, x⟩ s.extensions q).result = .ok q := by
    rw [hs]
    rfl
  rw [h.result_changes hbefore hall, h.ofRows_cut, hs]
  cases ChangePage.ofRows s.host.collaborators user o.rowCap all <;> rfl

/-- A page holds as many changes as its limit says, whatever was fetched. One row more is asked
for and kept out of the page; it shows that more changes follow, and only its place counts. The
first row that is to blame is reported in place of a page. -/
theorem pages_are_cut_to_size (s : Service) (user : User) (o : FeedOptions) :
    (o.rowCap.map UInt32.toNat = o.pageSize?.map (· + 1) ∧
      ∀ c x config g q, o.select c x config g = .ok q → q.limit = o.rowCap) ∧
    (∀ c rows,
      (∀ e, ChangePage.ofRows c user o.rowCap rows = .error e ↔
        ChangePage.FirstFault o.pageSize? rows e) ∧
      (∀ page, ChangePage.ofRows c user o.rowCap rows = .ok page ↔
        page.CutAt c user o.pageSize? rows) ∧
      ∀ n rows', o.pageSize? = some n → rows.take n = rows'.take n →
        rows[n]?.map Record.feedPlace = rows'[n]?.map Record.feedPlace →
        ChangePage.ofRows c user o.rowCap rows = ChangePage.ofRows c user o.rowCap rows') ∧
    ∀ request cursor g x q, s.Compiles user request cursor o g x q →
      (∀ q' rows, (Extension.beforeAll ⟨user, o, x⟩ s.extensions q).result = .ok q' →
        x.select q' = .ok rows →
        (∀ e, ChangePage.FirstFault o.pageSize? rows e →
          (s.changes user request cursor).result = .error (.contract e)) ∧
        ∀ page, page.CutAt s.host.collaborators user o.pageSize? rows →
          (s.changes user request cursor).result
            = (Extension.afterAll ⟨user, o, x⟩ rows s.extensions page).result) ∧
      ∀ all, s.extensions = [] → x.select q = .ok (q.cut all) →
        (∀ e, (s.changes user request cursor).result = .error e ↔
          ∃ e', ChangePage.FirstFault o.pageSize? all e' ∧ .contract e' = e) ∧
        ∀ page, (s.changes user request cursor).result = .ok page →
          page.CutAt s.host.collaborators user o.pageSize? all ∧
            (page.cursor.isSome = true ↔ ∃ n, o.pageSize? = some n ∧ n < all.length) := by
  have hkept := o.keptRows_rowCap
  refine ⟨⟨o.map_toNat_rowCap, fun c x config g q h => FeedOptions.limit_of_select h⟩,
    fun c rows => ⟨fun e => ChangePage.ofRows_eq_error_iff hkept,
      fun page => ChangePage.ofRows_eq_ok_iff_cutAt hkept, fun n rows' hn htake hnext =>
        ChangePage.ofRows_congr (hkept.trans hn) htake hnext⟩,
    fun request cursor g x q h => ⟨fun q' rows hbefore hrows =>
      ⟨fun e he => h.changes_of_firstFault hbefore hrows he,
        fun page hpage => h.changes_of_cutAt hbefore hrows hpage⟩, fun all hs hall => ?_⟩⟩
  rw [h.changes_of_cut hs hall]
  constructor
  · intro e
    simp only [Outcome.mapError_eq_error_iff, ChangePage.ofRows_eq_error_iff hkept]
  · intro page hpage
    have hcut := (ChangePage.ofRows_eq_ok_iff_cutAt hkept).mp (Outcome.mapError_eq_ok_iff.mp hpage)
    exact ⟨hcut, hcut.isSome_cursor_iff⟩

/-- A hook that widens the select does not widen the page. The row after a page of one change may
lack a title, but not its number; that number goes unread while the row stands further back. -/
theorem pages_are_cut_to_size_widened_select :
    let widen : Extension :=
      { name := "widen", beforeQuery := fun _ q => .ok { q with limit := some 9 } }
    let first := InMemory.changeRow 1 0 "Foo" "20240101000000"
    let untitled := (InMemory.changeRow 2 0 "Bar" "20240102000000").filterKeys (· ≠ "rc_title")
    let unnumbered := (InMemory.changeRow 3 0 "Baz" "20240103000000").filterKeys (· ≠ "rc_id")
    let s (rows : List Row) : Service := ⟨InMemory.host { rows := rows }, {}, [widen]⟩
    let request : FeedRequest := { limit := some (.int 1) }
    (∃ i, ((s [first, untitled, unnumbered]).changes InMemory.actingUser request none).result
      = .ok ⟨[i], some ⟨"20240102000000", 2⟩⟩) ∧
    ((s [first, unnumbered, untitled]).changes InMemory.actingUser request none).result
      = .error (.contract (.missingPosition "rc_id")) := by
  intro widen first untitled unnumbered s request
  have hrun (rows : List Row)
      (h : ((request.validate InMemory.actingUser none).toOption.bind fun o =>
        let c := InMemory.collaborators {}
        (Access.decide c InMemory.actingUser o).result.toOption.bind fun g =>
          (o.select c (InMemory.executor { rows }) {} g).toOption.map fun _ => o.limit)
        = some (some 1)) :
      ∃ o g q, o.limit = some 1 ∧
        (s rows).Compiles InMemory.actingUser request none o g (InMemory.executor { rows }) q := by
    obtain ⟨o, ho, h⟩ := Option.bind_eq_some_iff.mp h
    obtain ⟨g, hg, h⟩ := Option.bind_eq_some_iff.mp h
    obtain ⟨q, hq, h⟩ := Option.map_eq_some_iff.mp h
    exact ⟨o, g, q, h, Outcome.toOption_eq_some_iff.mp ho, Outcome.toOption_eq_some_iff.mp hg, rfl,
      Outcome.toOption_eq_some_iff.mp hq⟩
  constructor
  · obtain ⟨o, g, q, hlimit, h⟩ := hrun [first, untitled, unnumbered] (by decide +kernel)
    obtain ⟨_, hpages, hcalls⟩ := pages_are_cut_to_size (s _) InMemory.actingUser o
    refine ⟨(⟨InMemory.actingUser, ⟨0, "Foo"⟩, none⟩, first.changeInfo), ?_⟩
    refine ((hcalls _ _ _ _ _ h).1 _ _ rfl rfl).2 _ (((hpages _ _).2.1 _).mp ?_)
    rw [FeedOptions.rowCap, hlimit]
    exact Outcome.toOption_eq_some_iff.mp (by decide +kernel)
  · obtain ⟨o, g, q, hlimit, h⟩ := hrun [first, unnumbered, untitled] (by decide +kernel)
    obtain ⟨_, _, hcalls⟩ := pages_are_cut_to_size (s _) InMemory.actingUser o
    refine ((hcalls _ _ _ _ _ h).1 _ _ rfl rfl).1 _ ?_
    have hsize : o.pageSize? = some 1 := by
      rw [FeedOptions.pageSize?, hlimit]
      rfl
    rw [hsize]
    refine .cursor (r := unnumbered) ?_ rfl rfl (.noNumber (by decide +kernel) (by decide +kernel))
    have hfirst : ∃ i, first.changeItem (InMemory.collaborators {}) InMemory.actingUser = .ok i :=
      ⟨_, rfl⟩
    intro t ht
    obtain rfl : t = first := List.mem_singleton.mp ht
    exact Row.exists_changeItem_iff.mp hfirst

end Service

end PageWatch
