import PageWatch.Proofs.Cutting
import PageWatch.Proofs.Tables

/-! Listing: the plain listing of a watchlist is the interval of the list that a request asks
for. -/
namespace PageWatch

/-- The place of a watch in a listing. -/
def Record.listPlace (r : Row) : Place := r.place "wl_namespace" "wl_title"

/-- A watch on a page: its namespace is an integer of 32 bits and its title is not null. -/
structure Record.Listable (r : Row) : Prop where
  namespaced : ∃ n, r.cell "wl_namespace" = .ofInt32 n
  titled : r.cell "wl_title" ≠ .null

/-- The place that a target names. -/
def Target.place (t : Target) : Place := toLex (.ofInt32 t.namespaceId, .text t.title)

/-- The seek at a target lets through what does not stand before the target. -/
theorem Target.seek_eq_holds_iff {t : Target} {order : SortOrder} {m : Meaning} {r : Row}
    (hr : r.Listable) :
    (t.position.seek order).truth m r = .holds ↔ ¬ order.Before r.listPlace t.place := by
  obtain ⟨n, hn⟩ := hr.namespaced
  have hnull : r.cell "wl_namespace" ≠ .null := by simp [hn, Scalar.ofInt32]
  rw [t.position.seek_eq_holds_iff hnull, Record.listPlace, Record.place, place,
    SortOrder.not_before_toLex_iff]
  simp [position, Operand.value, Scalar.ofInt32, SortOrder.Reaches, hr.titled]

/-- An item that stands for a row of a listing: it names the row's target, and an owner with the
notification timestamp reconciled for the owner and the target. -/
structure WatchedItem.StandsFor (i : WatchedItem) (c : Collaborators) (owner : User) (r : Row) :
    Prop extends i.OwnedBy c owner r where
  namespaced : r.cell "wl_namespace" = .ofInt32 i.target.namespaceId
  titled : (r.cell "wl_title").render = some i.target.title

namespace WatchlistRequest

/-- The targets that bound a listing. -/
def targets (r : WatchlistRequest) : List Target :=
  r.fromTarget.toList ++ r.untilTarget.toList ++ r.startFrom.toList

/-- A row of the watchlist of an owner that is of the kind that a request asks for. -/
structure Picks (request : WatchlistRequest) (owner : UInt64) (r : Row) : Prop where
  owner : ∃ n : Int64, r.cell "wl_user" = .int n ∧ n.toInt = owner.toNat
  namespaces : (∀ v ∈ request.namespaces, ∀ n, ¬ v.IsNamespace n) ∨
    ∃ v ∈ request.namespaces, ∃ n, v.IsNamespace n ∧ r.cell "wl_namespace" = .int n
  changed : request.filter = some "changed" → r.cell "wl_notificationtimestamp" ≠ .null
  unchanged : request.filter = some "!changed" → r.cell "wl_notificationtimestamp" = .null

/-- A row that a request asks for in the watchlist of an owner. Targets bound the listing in the
sort order that the request names. -/
structure Wants (request : WatchlistRequest) (owner : UInt64) (r : Row) : Prop
    extends request.Picks owner r where
  fromTarget : ∀ t ∈ request.fromTarget, ∃ sort : SortOrder, request.sort = some sort.name ∧
    ¬ sort.Before r.listPlace t.place
  startFrom : ∀ t ∈ request.startFrom, ∃ sort : SortOrder, request.sort = some sort.name ∧
    ¬ sort.Before r.listPlace t.place
  untilTarget : ∀ t ∈ request.untilTarget, ∃ sort : SortOrder, request.sort = some sort.name ∧
    ¬ sort.Before t.place r.listPlace

/-- The rows of a table that a request asks for in the watchlist of an owner, each as often as it
is there, in the sort order that the request names. -/
structure Interval (request : WatchlistRequest) (owner : UInt64) (table rows : List Row) :
    Prop where
  wanted : ∃ p : Row → Bool, rows.Perm (table.filter p) ∧
    ∀ r ∈ table, p r = true ↔ request.Wants owner r
  sorted : ∀ sort : SortOrder, request.sort = some sort.name →
    rows.Pairwise fun r t => ¬ sort.Before t.listPlace r.listPlace

end WatchlistRequest

/-- The first elements of a list, up to a limit as a request gives it. -/
def limitTo {α : Type} (limit : Option Scalar) (as : List α) : List α :=
  match limit with
  | some limit => as.take limit.toLimit.toNat
  | none => as

namespace WatchlistOptions

variable {o : WatchlistOptions} {m : Meaning} {r : Row}

theorem allHold_namespaceTerms : Term.AllHold m r o.namespaceTerms ↔
    o.namespaces.toList = [] ∨ ∃ n ∈ o.namespaces, r.cell "wl_namespace" = .ofInt32 n :=
  Term.allHold_namespaces

theorem allHold_filterTerms : Term.AllHold m r o.filterTerms ↔
    (o.filter = some .changed → r.cell "wl_notificationtimestamp" ≠ .null) ∧
      (o.filter = some .unchanged → r.cell "wl_notificationtimestamp" = .null) := by
  unfold Term.AllHold filterTerms
  cases o.filter with
  | none => simp
  | some f => cases f <;> simp [Term.truth, Fragment.truth, Truth.ofBool_eq_holds_iff]

theorem allHold_seekTerms (hr : r.Listable) : Term.AllHold m r o.seekTerms ↔
    ∀ sort ∈ o.sort, (∀ t ∈ o.fromTarget, ¬ sort.Before r.listPlace t.place) ∧
      (∀ t ∈ o.untilTarget, ¬ sort.Before t.place r.listPlace) ∧
      ∀ t ∈ o.startFrom, ¬ sort.Before r.listPlace t.place := by
  have hseek (order : SortOrder) (target : Option Target) :
      Term.AllHold m r (target.map fun t => .fragment (t.position.seek order)).toList ↔
        ∀ t ∈ target, ¬ order.Before r.listPlace t.place := by
    unfold Term.AllHold
    cases target <;> simp [Term.truth, Target.seek_eq_holds_iff hr]
  unfold Term.AllHold at hseek ⊢
  unfold seekTerms
  cases o.sort with
  | none => simp
  | some sort =>
    simp only [List.forall_mem_append, hseek, SortOrder.before_reversed_iff, Option.mem_some_iff,
      forall_eq', and_assoc]

theorem allHold_terms {owner : Int64} : Term.AllHold m r (o.terms owner) ↔
    r.cell "wl_user" = .int owner ∧ Term.AllHold m r o.namespaceTerms ∧
      Term.AllHold m r o.filterTerms ∧ Term.AllHold m r o.seekTerms := by
  simp only [Term.AllHold, terms, List.cons_append, List.forall_mem_cons, List.forall_mem_append,
    Term.truth, Comparison.truth_eq_int, and_assoc]

end WatchlistOptions

/-- A meaning knows the texts of which listings are made: that a timestamp is null or not, and how
to go on at the targets of a set. -/
structure Meaning.KnowsListings (m : Meaning) (x : Executor) (known : Set Target) : Prop where
  changed : m.Understands x (.isNotNull "wl_notificationtimestamp")
  unchanged : m.Understands x (.isNull "wl_notificationtimestamp")
  seeks : ∀ t ∈ known, ∀ order, m.Understands x (t.position.seek order)

/-- The executor answers every select with the rows of one table that the select accepts, sorted as
it says and cut to its limit. Rows that sort alike may come in any order. -/
def Executor.Serves (x : Executor) (m : Meaning) (table : List Row) : Prop :=
  ∀ q, ∃ rows, rows.Perm (table.filter (q.accepts m)) ∧
    rows.Pairwise (fun r t => OrderTerm.le q.orderBy r t = true) ∧ x.select q = .ok (q.cut rows)

theorem Executor.Answers.serves {x : Executor} {m : Meaning} {table : List Row}
    (h : x.Answers m table) : x.Serves m table := fun q =>
  ⟨_, List.mergeSort_perm _ _, List.pairwise_mergeSort (OrderTerm.le_trans _)
    (OrderTerm.le_total _) _, h q⟩

/-- A service whose executor answers every select from one table of watches, and understands the
texts of listings as far as they are bounded by known targets. -/
structure Service.Lists (s : Service) (m : Meaning) (known : Set Target) (table : List Row) :
    Prop where
  replica : ∃ x, s.host.replica = .ok x ∧ x.Serves m table ∧ m.KnowsListings x known
  listable : ∀ r ∈ table, r.Listable

namespace WatchlistRequest.Validated

variable {request : WatchlistRequest} {o : WatchlistOptions} {owner : UInt64} {m : Meaning}
  {r : Row}

theorem seeks_iff (h : request.Validated o) (hr : r.Listable) : Term.AllHold m r o.seekTerms ↔
    (∀ t ∈ request.fromTarget, ∃ sort : SortOrder, request.sort = some sort.name ∧
      ¬ sort.Before r.listPlace t.place) ∧
    (∀ t ∈ request.startFrom, ∃ sort : SortOrder, request.sort = some sort.name ∧
      ¬ sort.Before r.listPlace t.place) ∧
    ∀ t ∈ request.untilTarget, ∃ sort : SortOrder, request.sort = some sort.name ∧
      ¬ sort.Before t.place r.listPlace := by
  have hfrom {t : Target} (ht : t ∈ request.fromTarget) : request.seeks = true := by
    simp [seeks, Option.mem_def.mp ht]
  have hstart {t : Target} (ht : t ∈ request.startFrom) : request.seeks = true := by
    simp [seeks, Option.mem_def.mp ht]
  have huntil {t : Target} (ht : t ∈ request.untilTarget) : request.seeks = true := by
    simp [seeks, Option.mem_def.mp ht]
  rw [WatchlistOptions.allHold_seekTerms hr, h.fromTarget, h.startFrom, h.untilTarget]
  constructor
  · intro hall
    refine ⟨fun t ht => ?_, fun t ht => ?_, fun t ht => ?_⟩
    · exact (h.forall_sort_iff (hfrom ht)).mp fun sort hsort => (hall sort hsort).1 t ht
    · exact (h.forall_sort_iff (hstart ht)).mp fun sort hsort => (hall sort hsort).2.2 t ht
    · exact (h.forall_sort_iff (huntil ht)).mp fun sort hsort => (hall sort hsort).2.1 t ht
  · rintro ⟨hfroms, hstarts, huntils⟩ sort hsort
    refine ⟨fun t ht => ?_, fun t ht => ?_, fun t ht => ?_⟩
    · exact (h.forall_sort_iff (hfrom ht)).mpr (hfroms t ht) sort hsort
    · exact (h.forall_sort_iff (huntil ht)).mpr (huntils t ht) sort hsort
    · exact (h.forall_sort_iff (hstart ht)).mpr (hstarts t ht) sort hsort

/-- The terms of a listing say what its request asks for. -/
theorem wants_iff (h : request.Validated o) (hr : r.Listable) {n : Int64}
    (hn : storedOwner owner = .ok n) :
    Term.AllHold m r (o.terms n) ↔ request.Wants owner r := by
  rw [storedOwner_eq_ok_iff] at hn
  have howner : r.cell "wl_user" = .int n ↔
      ∃ n : Int64, r.cell "wl_user" = .int n ∧ n.toInt = owner.toNat := by
    constructor
    · intro hr
      exact ⟨n, hr, hn⟩
    · rintro ⟨n', hr, hn'⟩
      rw [hr, Int64.toInt_inj.mp (hn'.trans hn.symm)]
  rw [WatchlistOptions.allHold_terms, howner, WatchlistOptions.allHold_namespaceTerms, h.namespaces,
    readNamespaces_iff, WatchlistOptions.allHold_filterTerms, h.filter_eq_some_iff,
    h.filter_eq_some_iff, h.seeks_iff hr]
  constructor
  · rintro ⟨howner, hnamespaces, ⟨hchanged, hunchanged⟩, hfrom, hstart, huntil⟩
    exact ⟨⟨howner, hnamespaces, hchanged, hunchanged⟩, hfrom, hstart, huntil⟩
  · intro hw
    exact ⟨hw.owner, hw.namespaces, ⟨hw.changed, hw.unchanged⟩, hw.fromTarget, hw.startFrom,
      hw.untilTarget⟩

/-- The terms of a listing that is bounded by known targets are understood. -/
theorem understandsTerm {x : Executor} {known : Set Target} (h : request.Validated o)
    (hm : m.KnowsListings x known) (hknown : ∀ t ∈ request.targets, t ∈ known) {n : Int64}
    {t : Term} (ht : t ∈ o.terms n) : m.UnderstandsTerm x t := by
  simp only [WatchlistOptions.terms, List.cons_append, List.mem_cons, List.mem_append] at ht
  rcases ht with rfl | (ht | ht) | ht
  · trivial
  · unfold WatchlistOptions.namespaceTerms at ht
    split at ht
    · cases ht
    · obtain rfl := List.mem_singleton.mp ht
      trivial
  · unfold WatchlistOptions.filterTerms at ht
    split at ht
    · obtain rfl := List.mem_singleton.mp ht
      exact hm.changed
    · obtain rfl := List.mem_singleton.mp ht
      exact hm.unchanged
    · cases ht
  · unfold WatchlistOptions.seekTerms at ht
    split at ht
    · simp only [List.mem_append, Option.mem_toList, Option.map_eq_some_iff, h.fromTarget,
        h.untilTarget, h.startFrom] at ht
      rcases ht with (⟨t, ht, rfl⟩ | ⟨t, ht, rfl⟩) | ⟨t, ht, rfl⟩ <;>
        exact hm.seeks t (hknown t (by simp [targets, ht])) _
    · cases ht

end WatchlistRequest.Validated

/-- A watch on a page becomes the item that stands for it. -/
theorem Row.exists_listedItem {r : Row} (hr : r.Listable) (c : Collaborators) (user : User) :
    ∃ i, r.listedItem c user = .ok i ∧ i.StandsFor c user r := by
  obtain ⟨n, hn⟩ := hr.namespaced
  obtain ⟨title, htitle⟩ :=
    Option.ne_none_iff_exists'.mp (mt Scalar.render_eq_none_iff.mp hr.titled)
  have hnamespace : (r.cell "wl_namespace").toNamespace? = some n := by
    rw [← Scalar.isNamespace_toInt64_iff, Scalar.IsNamespace, hn]
    exact ⟨rfl, by rw [Int32.toInt_toInt64]; exact n.minValue_le_toInt,
      by rw [Int32.toInt_toInt64]; exact n.toInt_le⟩
  have htarget : r.target "wl_namespace" "wl_title" = .ok ⟨n, title⟩ :=
    Row.target_eq_ok_iff.mpr ⟨hnamespace, htitle⟩
  refine ⟨r.watchedItem c user ⟨n, title⟩, ?_, r.ownedBy_watchedItem c user _, hn, htitle⟩
  rw [Row.listedItem, htarget]
  rfl

theorem WatchedItem.exists_ofRows (c : Collaborators) (user : User) {rows : List Row}
    (h : ∀ r ∈ rows, r.Listable) : ∃ items, ofRows c user rows = .ok items ∧
      List.Forall₂ (fun r i => i.StandsFor c user r) rows items := by
  simp only [ofRows, mapM_eq_ok_iff]
  induction rows with
  | nil => exact ⟨[], .nil, .nil⟩
  | cons r rows ih =>
    obtain ⟨hr, hrows⟩ := List.forall_mem_cons.mp h
    obtain ⟨i, hi, hstands⟩ := Row.exists_listedItem hr c user
    obtain ⟨items, hitems, hall⟩ := ih hrows
    exact ⟨i :: items, .cons hi hitems, .cons hstands hall⟩

namespace WatchlistRequest

variable {request : WatchlistRequest} {c : Collaborators} {user : User} {rows : List Row}
  {items : List WatchedItem}

theorem ofRows_limitTo (h : WatchedItem.ofRows c user rows = .ok items) (limit : Option Scalar) :
    WatchedItem.ofRows c user (limitTo limit rows) = .ok (limitTo limit items) := by
  unfold limitTo
  split
  · exact mapM_eq_ok_iff.mpr (List.forall₂_take _ (mapM_eq_ok_iff.mp h))
  · exact h

theorem cut_of_select {o : WatchlistOptions} {x : Executor} {config : SelectConfig} {id : UInt64}
    {q : SelectQuery} (hv : request.Validated o) (h : o.select x config id = .ok q) :
    q.cut rows = limitTo request.limit rows := by
  unfold SelectQuery.cut limitTo
  rw [WatchlistOptions.limit_of_select h, hv.limit]
  cases request.limit <;> rfl

end WatchlistRequest

namespace Service

variable {s : Service} {m : Meaning} {known : Set Target} {table : List Row} {user : User}
  {request : WatchlistRequest} {o : WatchlistOptions}

theorem result_watchedPages {x : Executor} {q : SelectQuery} {rows : List Row}
    (hu : user.isRegistered = true) (hvalid : request.validate = .ok o)
    (hreplica : s.host.replica = .ok x) (hselect : o.select x s.config user.id = .ok q)
    (hrows : x.select q = .ok rows) : (s.watchedPages user request).result
      = (WatchedItem.ofRows s.host.collaborators user rows).mapError .contract := by
  simp only [watchedPages, hu, if_true, Outcome.result_bind, Outcome.result_mapError,
    Outcome.result_ofExcept, Outcome.result_perform, Outcome.mapError_ok, Outcome.except_ok_bind,
    Service.replica, Executor.run, WatchlistOptions.result_compile, hvalid, hreplica, hselect,
    hrows]

/-- A listing answers the interval that is asked for, cut to the limit. -/
theorem Lists.exists_interval (hs : s.Lists m known table) (hu : user.isRegistered = true)
    (hid : user.id.toNat < 0x8000000000000000) (hvalid : request.validate = .ok o)
    (hknown : ∀ t ∈ request.targets, t ∈ known) :
    ∃ rows items, request.Interval user.id table rows ∧
      WatchedItem.ofRows s.host.collaborators user rows = .ok items ∧
      List.Forall₂ (fun r i => i.StandsFor s.host.collaborators user r) rows items ∧
      (s.watchedPages user request).result = .ok (limitTo request.limit items) := by
  obtain ⟨x, hreplica, hserves, hm⟩ := hs.replica
  have hv := WatchlistRequest.validate_eq_ok_iff.mp hvalid
  obtain ⟨q, hselect⟩ := o.exists_select x s.config hid
  obtain ⟨n, howner, hconditions⟩ := WatchlistOptions.conditions_of_select hselect
  obtain ⟨rows, hperm, hsorted, hrows⟩ := hserves q
  have haccepts (r : Row) (hr : r ∈ table) :
      q.accepts m r = true ↔ request.Wants user.id r := by
    rw [Term.accepts_iff_allHold hconditions fun t ht => hv.understandsTerm hm hknown ht,
      hv.wants_iff (hs.listable r hr) howner]
  have hlistable (r : Row) (hr : r ∈ rows) : r.Listable :=
    hs.listable r (List.mem_filter.mp (hperm.subset hr)).1
  obtain ⟨items, hitems, hstands⟩ :=
    WatchedItem.exists_ofRows s.host.collaborators user hlistable
  refine ⟨rows, items, ⟨⟨_, hperm, haccepts⟩, fun sort hsort => ?_⟩, hitems, hstands, ?_⟩
  · have horder : q.orderBy = sort.byPair "wl_namespace" "wl_title" := by
      rw [WatchlistOptions.orderBy_of_select hselect, WatchlistOptions.orderBy,
        hv.sort_eq_some_iff.mpr hsort]
      rfl
    rw [horder] at hsorted
    exact hsorted.imp le_byPair_iff.mp
  · rw [result_watchedPages hu hvalid hreplica hselect hrows,
      WatchlistRequest.cut_of_select hv hselect, WatchlistRequest.ofRows_limitTo hitems]
    rfl

end Service

/-- The texts of listings that are bounded by targets of a list. -/
def listTerms (known : List Target) : List Term :=
  .fragment (.isNotNull "wl_notificationtimestamp") ::
    .fragment (.isNull "wl_notificationtimestamp") :: known.flatMap fun t =>
      [.fragment (t.position.seek .ascending), .fragment (t.position.seek .descending)]

/-- Timestamps are stored as they are written, and the texts of listings are understood. -/
def Meaning.ofTargets (known : List Target) : Meaning :=
  .ofFragments (InMemory.executor {}) ⟨.text, fun _ _ => .unknown⟩ (Term.partsOf (listTerms known))

/-- A row by which a user watches a page. -/
def InMemory.watch (user : Int64) (t : Target) (notified : Scalar) : Row :=
  .ofList [("wl_user", .int user), ("wl_namespace", .ofInt32 t.namespaceId),
    ("wl_title", .text t.title), ("wl_notificationtimestamp", notified)]

namespace InMemory

variable {user : Int64} {t : Target} {notified : Scalar}

theorem listable_watch : (watch user t notified).Listable where
  namespaced := ⟨t.namespaceId, by
    simp [watch, Record.cell, Record.ofList, Record.get?_insert, Scalar.ofOption]⟩
  titled := by simp [watch, Record.cell, Record.ofList, Record.get?_insert, Scalar.ofOption]

theorem listPlace_watch : (watch user t notified).listPlace = t.place := by
  simp [watch, Record.listPlace, Record.place, Target.place, Record.cell, Record.ofList,
    Record.get?_insert, Scalar.ofOption]

end InMemory

/-- A service in memory lists the watches of a table. -/
theorem Service.lists_ofTable {known : List Target} {table : List Row} (htexts :
      ((Term.partsOf (listTerms known)).map (Fragment.render (InMemory.executor {}))).Nodup)
    (hlistable : ∀ r ∈ table, r.Listable) :
    (ofTable (.ofTargets known) table).Lists (.ofTargets known) {t | t ∈ known} table := by
  have hunderstands {f : Fragment} (hf : .fragment f ∈ listTerms known) :
      (Meaning.ofTargets known).Understands
        (InMemory.tableExecutor (.ofTargets known) table) f :=
    InMemory.understands_tableExecutor htexts hf
  refine ⟨⟨_, rfl, (InMemory.answers_tableExecutor _ _).serves, ?_, ?_, ?_⟩, hlistable⟩
  · exact hunderstands (by simp [listTerms])
  · exact hunderstands (by simp [listTerms])
  · intro t ht order
    have hmem : .fragment (t.position.seek order) ∈ listTerms known := by
      refine List.mem_cons_of_mem _ (List.mem_cons_of_mem _ (List.mem_flatMap.mpr ⟨t, ht, ?_⟩))
      cases order <;> simp
    exact hunderstands hmem

end PageWatch
