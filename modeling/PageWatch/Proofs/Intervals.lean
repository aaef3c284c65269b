import PageWatch.Proofs.Listing

/-! Intervals: a sorted listing can be taken up at any of its items, and so can be paged. -/
namespace PageWatch

theorem SortOrder.name_inj {o o' : SortOrder} : o.name = o'.name ↔ o = o' := by
  cases o <;> cases o' <;> simp [name]

theorem Target.place_inj {t t' : Target} : t.place = t'.place ↔ t = t' := by
  obtain ⟨n, title⟩ := t
  obtain ⟨n', title'⟩ := t'
  have hint : n.toInt64 = n'.toInt64 ↔ n = n' := by
    rw [← Int64.toInt_inj, Int32.toInt_toInt64, Int32.toInt_toInt64, Int32.toInt_inj]
  simp [place, Scalar.ofInt32, hint]

/-- The row of an item stands at the item's target, if its title is stored as the text that it is
read as. -/
theorem WatchedItem.StandsFor.place {i : WatchedItem} {c : Collaborators} {user : User} {r : Row}
    {t : Target} (h : i.StandsFor c user r) (hr : r.listPlace = t.place) :
    r.listPlace = i.target.place := by
  have htitle : r.cell "wl_title" = .text t.title := (Prod.mk.inj (toLex.injective hr)).2
  have hread := h.titled
  rw [htitle, Scalar.render, Option.some.injEq] at hread
  rw [Record.listPlace, Record.place, h.namespaced, htitle, hread]
  rfl

/-- A bound that lies within another one takes its place. -/
theorem SortOrder.not_before_narrowed_iff {sort : SortOrder} {bound : Option Target} {t : Target}
    {p : Place} (ht : ∀ t₀ ∈ bound, ¬ sort.Before t.place t₀.place) :
    (∀ t₀ ∈ some t, ¬ sort.Before p t₀.place) ↔
      (∀ t₀ ∈ bound, ¬ sort.Before p t₀.place) ∧ ¬ sort.Before p t.place := by
  simp only [Option.mem_some_iff, forall_eq']
  constructor
  · intro hp
    exact ⟨fun t₀ ht₀ => not_before_trans (ht t₀ ht₀) hp, hp⟩
  · exact And.right

namespace WatchlistRequest

variable {request request' : WatchlistRequest} {owner : UInt64} {sort : SortOrder}
  {table rows rows' part : List Row} {r : Row} {t : Target}

theorem forall_mem_targets_iff {p : Target → Prop} : (∀ t ∈ request.targets, p t) ↔
    (∀ t ∈ request.fromTarget, p t) ∧ (∀ t ∈ request.untilTarget, p t) ∧
      ∀ t ∈ request.startFrom, p t := by
  simp only [targets, List.forall_mem_append, Option.mem_toList, Option.mem_def, and_assoc]

/-- What a sorted request asks for once it is given other bounds. -/
theorem wants_rebound_iff (hsort : request.sort = some sort.name)
    {fromTarget untilTarget startFrom : Option Target} {limit : Option Scalar} :
    ({ request with fromTarget, untilTarget, startFrom, limit } : WatchlistRequest).Wants owner r ↔
      request.Picks owner r ∧ (∀ t ∈ fromTarget, ¬ sort.Before r.listPlace t.place) ∧
        (∀ t ∈ startFrom, ¬ sort.Before r.listPlace t.place) ∧
        ∀ t ∈ untilTarget, ¬ sort.Before t.place r.listPlace := by
  have hone {p : SortOrder → Prop} :
      (∃ sort : SortOrder, request.sort = some sort.name ∧ p sort) ↔ p sort := by
    simp only [hsort, Option.some.injEq, SortOrder.name_inj, exists_eq_left']
  constructor
  · rintro ⟨⟨howner, hnamespaces, hchanged, hunchanged⟩, hfrom, hstart, huntil⟩
    exact ⟨⟨howner, hnamespaces, hchanged, hunchanged⟩, fun t ht => hone.mp (hfrom t ht),
      fun t ht => hone.mp (hstart t ht), fun t ht => hone.mp (huntil t ht)⟩
  · rintro ⟨⟨howner, hnamespaces, hchanged, hunchanged⟩, hfrom, hstart, huntil⟩
    exact ⟨⟨howner, hnamespaces, hchanged, hunchanged⟩, fun t ht => hone.mpr (hfrom t ht),
      fun t ht => hone.mpr (hstart t ht), fun t ht => hone.mpr (huntil t ht)⟩

theorem wants_iff_of_sort (hsort : request.sort = some sort.name) :
    request.Wants owner r ↔ request.Picks owner r ∧
      (∀ t ∈ request.fromTarget, ¬ sort.Before r.listPlace t.place) ∧
      (∀ t ∈ request.startFrom, ¬ sort.Before r.listPlace t.place) ∧
      ∀ t ∈ request.untilTarget, ¬ sort.Before t.place r.listPlace :=
  wants_rebound_iff hsort

/-- Taken up at a target that is asked for, a listing asks for what does not stand before it. -/
theorem wants_startFrom_iff (hsort : request.sort = some sort.name)
    (ht : ∀ t₀ ∈ request.startFrom, ¬ sort.Before t.place t₀.place) (limit : Option Scalar) :
    ({ request with startFrom := some t, limit } : WatchlistRequest).Wants owner r ↔
      request.Wants owner r ∧ ¬ sort.Before r.listPlace t.place := by
  rw [wants_rebound_iff hsort, wants_iff_of_sort hsort, SortOrder.not_before_narrowed_iff ht]
  constructor
  · rintro ⟨hpick, hfrom, ⟨hstart, hr⟩, huntil⟩
    exact ⟨⟨hpick, hfrom, hstart, huntil⟩, hr⟩
  · rintro ⟨⟨hpick, hfrom, hstart, huntil⟩, hr⟩
    exact ⟨hpick, hfrom, ⟨hstart, hr⟩, huntil⟩

theorem wants_fromTarget_iff (hsort : request.sort = some sort.name)
    (ht : ∀ t₀ ∈ request.fromTarget, ¬ sort.Before t.place t₀.place) (limit : Option Scalar) :
    ({ request with fromTarget := some t, limit } : WatchlistRequest).Wants owner r ↔
      request.Wants owner r ∧ ¬ sort.Before r.listPlace t.place := by
  rw [wants_rebound_iff hsort, wants_iff_of_sort hsort, SortOrder.not_before_narrowed_iff ht]
  constructor
  · rintro ⟨hpick, ⟨hfrom, hr⟩, hstart, huntil⟩
    exact ⟨⟨hpick, hfrom, hstart, huntil⟩, hr⟩
  · rintro ⟨⟨hpick, hfrom, hstart, huntil⟩, hr⟩
    exact ⟨hpick, ⟨hfrom, hr⟩, hstart, huntil⟩

theorem wants_untilTarget_iff (hsort : request.sort = some sort.name)
    (ht : ∀ t₀ ∈ request.untilTarget, ¬ sort.Before t₀.place t.place) (limit : Option Scalar) :
    ({ request with untilTarget := some t, limit } : WatchlistRequest).Wants owner r ↔
      request.Wants owner r ∧ ¬ sort.Before t.place r.listPlace := by
  have hreversed : ∀ t₀ ∈ request.untilTarget, ¬ sort.reversed.Before t.place t₀.place := by
    simpa only [SortOrder.before_reversed_iff] using ht
  have hnarrowed := SortOrder.not_before_narrowed_iff (p := r.listPlace) hreversed
  simp only [SortOrder.before_reversed_iff] at hnarrowed
  rw [wants_rebound_iff hsort, wants_iff_of_sort hsort, hnarrowed]
  constructor
  · rintro ⟨hpick, hfrom, hstart, huntil, hr⟩
    exact ⟨⟨hpick, hfrom, hstart, huntil⟩, hr⟩
  · rintro ⟨⟨hpick, hfrom, hstart, huntil⟩, hr⟩
    exact ⟨hpick, hfrom, hstart, huntil, hr⟩

namespace Interval

theorem mem_iff (h : request.Interval owner table rows) :
    r ∈ rows ↔ r ∈ table ∧ request.Wants owner r := by
  obtain ⟨p, hperm, hp⟩ := h.wanted
  rw [hperm.mem_iff, List.mem_filter]
  exact and_congr_right fun hr => hp r hr

/-- At distinct places the rows of an interval are sorted strictly. -/
theorem strict (h : request.Interval owner table rows) (hsort : request.sort = some sort.name)
    (hdistinct : (rows.map Record.listPlace).Nodup) :
    rows.Pairwise fun r t => sort.Before r.listPlace t.listPlace := by
  refine ((h.sorted sort hsort).and (List.pairwise_map.mp hdistinct)).imp ?_
  rintro r t ⟨hbefore, hne⟩
  exact (SortOrder.before_or_before hne).resolve_right hbefore

/-- A request that asks for part of an interval at distinct places has that part as its own
interval. -/
theorem eq_part {p : Row → Prop} (h : request.Interval owner table rows)
    (h' : request'.Interval owner table rows') (hsort : request.sort = some sort.name)
    (hsort' : request'.sort = some sort.name) (hdistinct : (rows.map Record.listPlace).Nodup)
    (hsub : part.Sublist rows) (hpart : ∀ r, r ∈ part ↔ r ∈ rows ∧ p r)
    (hwants : ∀ r, request'.Wants owner r ↔ request.Wants owner r ∧ p r) : rows' = part := by
  have hmem (r : Row) : r ∈ rows' ↔ r ∈ part := by
    rw [h'.mem_iff, hwants, hpart, h.mem_iff, and_assoc]
  have hdistinct' : (rows'.map Record.listPlace).Nodup := by
    obtain ⟨q, hperm, hq⟩ := h.wanted
    obtain ⟨q', hperm', hq'⟩ := h'.wanted
    have hfilter : table.filter q' = (table.filter q).filter q' := by
      rw [List.filter_filter]
      refine List.filter_congr fun r hr => ?_
      have hle : q' r = true → q r = true := by
        rw [hq' r hr, hq r hr, hwants]
        exact And.left
      cases hr' : q' r <;> simp_all
    rw [(hperm'.map _).nodup_iff, hfilter]
    exact ((hperm.map _).nodup_iff.mp hdistinct).sublist (List.filter_sublist.map _)
  exact SortOrder.eq_of_mem_iff (h'.strict hsort' hdistinct')
    ((h.strict hsort hdistinct).sublist hsub) hmem

end Interval

end WatchlistRequest

namespace Service

variable {s : Service} {m : Meaning} {known : Set Target} {table rows part : List Row} {user : User}
  {request request' : WatchlistRequest} {o : WatchlistOptions} {sort : SortOrder}
  {whole items : List WatchedItem}

/-- A sorted listing without a limit, with the rows that its items stand for. -/
structure Whole (s : Service) (user : User) (request : WatchlistRequest) (sort : SortOrder)
    (table rows : List Row) (whole : List WatchedItem) : Prop where
  sort : request.sort = some sort.name
  interval : request.Interval user.id table rows
  items : WatchedItem.ofRows s.host.collaborators user rows = .ok whole
  places : List.Forall₂ (fun (r : Row) (i : WatchedItem) => r.listPlace = i.target.place) rows whole
  distinct : (rows.map Record.listPlace).Nodup

theorem Lists.exists_whole (hs : s.Lists m known table)
    (htargets : ∀ r ∈ table, ∃ t ∈ known, r.listPlace = t.place)
    (hu : user.isRegistered = true) (hid : user.id.toNat < 0x8000000000000000)
    (hvalid : request.validate = .ok o) (hknown : ∀ t ∈ request.targets, t ∈ known)
    (hsort : request.sort = some sort.name)
    (hwhole : (s.watchedPages user { request with limit := none }).result = .ok whole)
    (hdistinct : (whole.map (·.target)).Nodup) :
    ∃ rows, s.Whole user { request with limit := none } sort table rows whole := by
  have hv := (WatchlistRequest.validate_eq_ok_iff.mp hvalid).rebound hsort request.fromTarget
    request.untilTarget request.startFrom none
  obtain ⟨rows, items, hinterval, hitems, hstands, hresult⟩ :=
    hs.exists_interval hu hid (WatchlistRequest.validate_eq_ok_iff.mpr hv) hknown
  obtain rfl : whole = items := Except.ok.inj (hwhole.symm.trans hresult)
  have hnamed (r : Row) (hr : r ∈ rows) : ∃ t ∈ known, r.listPlace = t.place :=
    htargets r (hinterval.mem_iff.mp hr).1
  have hplaces : List.Forall₂ (fun (r : Row) (i : WatchedItem) => r.listPlace = i.target.place)
      rows whole := by
    refine ((List.forall₂_and_left rows whole).mpr ⟨hnamed, hstands⟩).imp ?_
    rintro r i ⟨⟨t, _, ht⟩, hi⟩
    exact hi.place ht
  refine ⟨rows, hsort, hinterval, hitems, hplaces, ?_⟩
  have hmap : rows.map Record.listPlace = (whole.map (·.target)).map Target.place := by
    rw [List.map_map, ← List.forall₂_eq_eq_eq, List.forall₂_map_left_iff,
      List.forall₂_map_right_iff]
    exact hplaces
  rw [hmap]
  exact hdistinct.map fun t t' => Target.place_inj.mp

/-- Given bounds that ask for part of a listing at distinct places, a request is answered with that
part. -/
theorem Lists.answer_part {p : Row → Prop} (hs : s.Lists m known table)
    (hu : user.isRegistered = true) (hid : user.id.toNat < 0x8000000000000000)
    (h : s.Whole user request sort table rows whole) (hvalid : request.validate = .ok o)
    {fromTarget untilTarget startFrom : Option Target} {limit : Option Scalar}
    (hknown : (∀ t ∈ fromTarget, t ∈ known) ∧ (∀ t ∈ untilTarget, t ∈ known) ∧
      ∀ t ∈ startFrom, t ∈ known)
    (hsub : part.Sublist rows) (hpart : ∀ r, r ∈ part ↔ r ∈ rows ∧ p r)
    (hwants : ∀ r, ({ request with fromTarget, untilTarget, startFrom, limit } :
      WatchlistRequest).Wants user.id r ↔ request.Wants user.id r ∧ p r)
    (hitems : WatchedItem.ofRows s.host.collaborators user part = .ok items) :
    (s.watchedPages user { request with fromTarget, untilTarget, startFrom, limit }).result
      = .ok (limitTo limit items) := by
  have hv := (WatchlistRequest.validate_eq_ok_iff.mp hvalid).rebound h.sort fromTarget untilTarget
    startFrom limit
  obtain ⟨rows', items', hinterval', hitems', _, hresult⟩ := hs.exists_interval hu hid
    (WatchlistRequest.validate_eq_ok_iff.mpr hv)
    (WatchlistRequest.forall_mem_targets_iff.mpr hknown)
  obtain rfl := h.interval.eq_part hinterval' h.sort h.sort h.distinct hsub hpart hwants
  obtain rfl : items' = items := Except.ok.inj (hitems'.symm.trans hitems)
  exact hresult

namespace Whole

variable {i : WatchedItem} {k : Nat}

theorem strict (h : s.Whole user request sort table rows whole) :
    rows.Pairwise fun r t => sort.Before r.listPlace t.listPlace :=
  h.interval.strict h.sort h.distinct

theorem exists_row (h : s.Whole user request sort table rows whole) (hi : whole[k]? = some i) :
    ∃ r, rows[k]? = some r ∧ r.listPlace = i.target.place ∧ request.Wants user.id r := by
  obtain ⟨hk, rfl⟩ := List.getElem?_eq_some_iff.mp hi
  have hk' : k < rows.length := h.places.length_eq ▸ hk
  refine ⟨rows[k], List.getElem?_eq_getElem hk', h.places.get hk' hk, ?_⟩
  exact (h.interval.mem_iff.mp (List.getElem_mem hk')).2

/-- The items from one on are those of the rows from its row on. -/
theorem ofRows_drop (h : s.Whole user request sort table rows whole) (k : Nat) :
    WatchedItem.ofRows s.host.collaborators user (rows.drop k) = .ok (whole.drop k) :=
  mapM_eq_ok_iff.mpr (List.forall₂_drop k (mapM_eq_ok_iff.mp h.items))

theorem ofRows_take (h : s.Whole user request sort table rows whole) (k : Nat) :
    WatchedItem.ofRows s.host.collaborators user (rows.take k) = .ok (whole.take k) :=
  mapM_eq_ok_iff.mpr (List.forall₂_take k (mapM_eq_ok_iff.mp h.items))

end Whole

section Positions

variable {i : WatchedItem} {k : Nat}

/-- A sorted listing taken up at one of its items, by its first or by its third target, is what it
is from the item on; ended at the item, it is what it is up to the item. -/
theorem Lists.take_up (hs : s.Lists m known table)
    (htargets : ∀ r ∈ table, ∃ t ∈ known, r.listPlace = t.place)
    (hu : user.isRegistered = true) (hid : user.id.toNat < 0x8000000000000000)
    (hvalid : request.validate = .ok o) (hknown : ∀ t ∈ request.targets, t ∈ known)
    (h : s.Whole user request sort table rows whole) (hi : whole[k]? = some i)
    (limit : Option Scalar) :
    (s.watchedPages user { request with startFrom := some i.target, limit }).result
        = .ok (limitTo limit (whole.drop k)) ∧
      (s.watchedPages user { request with fromTarget := some i.target, limit }).result
        = .ok (limitTo limit (whole.drop k)) ∧
      (s.watchedPages user { request with untilTarget := some i.target, limit }).result
        = .ok (limitTo limit (whole.take (k + 1))) := by
  obtain ⟨r, hr, hplace, hwants⟩ := h.exists_row hi
  obtain ⟨_, hfrom, hstart, huntil⟩ := (WatchlistRequest.wants_iff_of_sort h.sort).mp hwants
  rw [hplace] at hfrom hstart huntil
  have hknown' : ∀ t ∈ some i.target, t ∈ known := by
    obtain ⟨t, ht, hrt⟩ := htargets r (h.interval.mem_iff.mp (List.mem_of_getElem? hr)).1
    rw [hplace] at hrt
    obtain rfl := Target.place_inj.mp hrt
    simpa using ht
  obtain ⟨hknownFrom, hknownUntil, hknownStart⟩ :=
    WatchlistRequest.forall_mem_targets_iff.mp hknown
  have hdrop (r : Row) : r ∈ rows.drop k ↔
      r ∈ rows ∧ ¬ sort.Before r.listPlace i.target.place := by
    rw [← hplace]
    exact SortOrder.mem_drop_iff h.strict hr
  have htake (r : Row) : r ∈ rows.take (k + 1) ↔
      r ∈ rows ∧ ¬ sort.Before i.target.place r.listPlace := by
    rw [← hplace]
    exact SortOrder.mem_take_succ_iff h.strict hr
  refine ⟨?_, ?_, ?_⟩
  · exact hs.answer_part hu hid h hvalid ⟨hknownFrom, hknownUntil, hknown'⟩
      (List.drop_sublist k rows) hdrop
      (fun r => WatchlistRequest.wants_startFrom_iff h.sort hstart limit) (h.ofRows_drop k)
  · exact hs.answer_part hu hid h hvalid ⟨hknown', hknownUntil, hknownStart⟩
      (List.drop_sublist k rows) hdrop
      (fun r => WatchlistRequest.wants_fromTarget_iff h.sort hfrom limit) (h.ofRows_drop k)
  · exact hs.answer_part hu hid h hvalid ⟨hknownFrom, hknown', hknownStart⟩
      (List.take_sublist (k + 1) rows) htake
      (fun r => WatchlistRequest.wants_untilTarget_iff h.sort huntil limit) (h.ofRows_take (k + 1))

/-- A limit cuts a sorted listing. -/
theorem Lists.relimit (hs : s.Lists m known table) (hu : user.isRegistered = true)
    (hid : user.id.toNat < 0x8000000000000000) (hvalid : request.validate = .ok o)
    (hknown : ∀ t ∈ request.targets, t ∈ known)
    (h : s.Whole user request sort table rows whole) (limit : Option Scalar) :
    (s.watchedPages user { request with limit }).result = .ok (limitTo limit whole) := by
  have hwants (r : Row) : ({ request with limit } : WatchlistRequest).Wants user.id r ↔
      request.Wants user.id r ∧ True := by
    rw [WatchlistRequest.wants_rebound_iff h.sort, WatchlistRequest.wants_iff_of_sort h.sort,
      and_true]
  exact hs.answer_part hu hid h hvalid (WatchlistRequest.forall_mem_targets_iff.mp hknown)
    (List.Sublist.refl rows) (by simp) hwants h.items

/-- The pages that a run of calls lists. Each call asks for one item more than a page shows, and the
item that is over is where the next call starts. -/
def listPages (s : Service) (user : User) (limit : Scalar) :
    Nat → WatchlistRequest → Except CallError (List (List WatchedItem))
  | 0, _ => .ok []
  | calls + 1, request => do
    let items ← (s.watchedPages user { request with limit := some limit }).result
    let size := limit.toLimit.toNat - 1
    match items[size]? with
    | none => return [items]
    | some next =>
      return items.take size ::
        (← listPages s user limit calls { request with startFrom := some next.target })

end Positions

section Run

variable {limit : Scalar} {next : WatchedItem} {pages : List (List WatchedItem)}
  {calls size k : Nat}

theorem listPages_of_last
    (h : (s.watchedPages user { request with limit := some limit }).result = .ok items)
    (hlast : items[limit.toLimit.toNat - 1]? = none) :
    s.listPages user limit (calls + 1) request = .ok [items] := by
  simp [listPages, h, hlast, bind, Except.bind, pure, Except.pure]

theorem listPages_of_next
    (h : (s.watchedPages user { request with limit := some limit }).result = .ok items)
    (hnext : items[limit.toLimit.toNat - 1]? = some next)
    (hpages : s.listPages user limit calls { request with startFrom := some next.target }
      = .ok pages) :
    s.listPages user limit (calls + 1) request
      = .ok (items.take (limit.toLimit.toNat - 1) :: pages) := by
  simp [listPages, h, hnext, hpages, bind, Except.bind, pure, Except.pure]

/-- A run that begins at an item lists what is there from the item on, in full pages and a last
one. -/
theorem exists_listPages (hlimit : limit.toLimit.toNat = size + 1)
    (htake : ∀ k i, whole[k]? = some i → (s.watchedPages user
      { request with startFrom := some i.target, limit := some limit }).result
        = .ok ((whole.drop k).take (size + 1)))
    {start : Option Target} (hstart : (s.watchedPages user
      { request with startFrom := start, limit := some limit }).result
        = .ok ((whole.drop k).take (size + 1)))
    (hcalls : whole.length ≤ k + calls * size) :
    ∃ pages, s.listPages user limit calls { request with startFrom := start } = .ok pages ∧
      pages.flatten = whole.drop k ∧ (∀ page ∈ pages.dropLast, page.length = size) ∧
        ∀ page ∈ pages, page.length ≤ size := by
  have hsize : limit.toLimit.toNat - 1 = size := by omega
  induction calls generalizing k start with
  | zero =>
    refine ⟨[], rfl, ?_, by simp, by simp⟩
    rw [List.drop_eq_nil_of_le (by omega), List.flatten_nil]
  | succ calls ih =>
    have hnth : ((whole.drop k).take (size + 1))[size]? = whole[k + size]? := by
      rw [List.getElem?_take_of_lt (by omega), List.getElem?_drop]
    cases hnext : whole[k + size]? with
    | none =>
      have hshort : (whole.drop k).length ≤ size := by
        rw [List.length_drop]
        have := List.getElem?_eq_none_iff.mp hnext
        omega
      rw [List.take_of_length_le (by omega)] at hstart hnth
      refine ⟨[whole.drop k], listPages_of_last hstart ?_, by simp, by simp, by simpa using hshort⟩
      rw [hsize, hnth, hnext]
    | some next =>
      obtain ⟨hlt, _⟩ := List.getElem?_eq_some_iff.mp hnext
      obtain ⟨pages, hpages, hflat, hfull, hle⟩ := ih (htake _ next hnext)
        (by rw [Nat.succ_mul] at hcalls; omega)
      have hlength : ((whole.drop k).take size).length = size := by
        rw [List.length_take, List.length_drop]
        omega
      have hrun : s.listPages user limit (calls + 1) { request with startFrom := start }
          = .ok (((whole.drop k).take (size + 1)).take (limit.toLimit.toNat - 1) :: pages) :=
        listPages_of_next hstart (by rw [hsize, hnth, hnext]) hpages
      rw [hsize, List.take_take, Nat.min_eq_left (by omega)] at hrun
      refine ⟨(whole.drop k).take size :: pages, hrun, ?_, ?_, ?_⟩
      · rw [List.flatten_cons, hflat, ← List.drop_drop, List.take_append_drop]
      · cases pages with
        | nil => simp
        | cons page pages =>
          rw [List.dropLast_cons_of_ne_nil (by simp)]
          exact List.forall_mem_cons.mpr ⟨hlength, hfull⟩
      · exact List.forall_mem_cons.mpr ⟨hlength.le, hle⟩

/-- A listing answers the interval of the watchlist that is asked for, cut to the limit. A sorted
listing of distinct targets can be taken up and ended at each of its items, and so be listed page by
page. -/
theorem listing_is_requested_interval (hs : s.Lists m known table)
    (hu : user.isRegistered = true) (hid : user.id.toNat < 0x8000000000000000)
    (hvalid : request.validate = .ok o) (hknown : ∀ t ∈ request.targets, t ∈ known) :
    (∃ rows items, request.Interval user.id table rows ∧
      List.Forall₂ (fun r i => i.StandsFor s.host.collaborators user r) rows items ∧
      (s.watchedPages user request).result = .ok (limitTo request.limit items)) ∧
    ((∀ r ∈ table, ∃ t ∈ known, r.listPlace = t.place) →
      ∀ (sort : SortOrder) (whole : List WatchedItem), request.sort = some sort.name →
        (s.watchedPages user { request with limit := none }).result = .ok whole →
        (whole.map (·.target)).Nodup →
        (∀ k i limit, whole[k]? = some i →
          (s.watchedPages user { request with startFrom := some i.target, limit }).result
              = .ok (limitTo limit (whole.drop k)) ∧
            (s.watchedPages user { request with fromTarget := some i.target, limit }).result
              = .ok (limitTo limit (whole.drop k)) ∧
            (s.watchedPages user { request with untilTarget := some i.target, limit }).result
              = .ok (limitTo limit (whole.take (k + 1)))) ∧
        ∀ limit size calls, limit.toLimit.toNat = size + 1 → whole.length ≤ calls * size →
          ∃ pages, s.listPages user limit calls request = .ok pages ∧ pages.flatten = whole ∧
            (∀ page ∈ pages.dropLast, page.length = size) ∧
              ∀ page ∈ pages, page.length ≤ size) := by
  refine ⟨?_, fun htargets sort whole hsort hwhole hdistinct => ?_⟩
  · obtain ⟨rows, items, hinterval, _, hstands, hresult⟩ :=
      hs.exists_interval hu hid hvalid hknown
    exact ⟨rows, items, hinterval, hstands, hresult⟩
  obtain ⟨rows, h⟩ := hs.exists_whole htargets hu hid hvalid hknown hsort hwhole hdistinct
  have hv := (WatchlistRequest.validate_eq_ok_iff.mp hvalid).rebound hsort request.fromTarget
    request.untilTarget request.startFrom none
  have hunlimited := WatchlistRequest.validate_eq_ok_iff.mpr hv
  refine ⟨fun k i limit hi => hs.take_up htargets hu hid hunlimited hknown h hi limit, ?_⟩
  intro limit size calls hlimit hcalls
  have hcut (items : List WatchedItem) : limitTo (some limit) items = items.take (size + 1) := by
    rw [limitTo, hlimit]
  refine exists_listPages (k := 0) hlimit (fun k i hi => ?_) ?_ (by omega)
  · rw [← hcut]
    exact (hs.take_up htargets hu hid hunlimited hknown h hi (some limit)).1
  · rw [← hcut]
    exact hs.relimit hu hid hunlimited hknown h (some limit)

/-- Backwards, namespace 0 comes before a negative one, and another user's watch does not come. -/
theorem listing_is_requested_interval_descending :
    let known := [⟨-2, "Foo"⟩, ⟨0, "Bar"⟩, ⟨0, "Foo"⟩]
    let table := [InMemory.watch 1 ⟨0, "Bar"⟩ .null, InMemory.watch 2 ⟨0, "Foo"⟩ .null,
      InMemory.watch 1 ⟨-2, "Foo"⟩ (.text "20240101000000"), InMemory.watch 1 ⟨0, "Foo"⟩ .null]
    let s := ofTable (.ofTargets known) table
    let request : WatchlistRequest :=
      { sort := some "DESC", untilTarget := some ⟨-2, "Foo"⟩ }
    ∃ whole, (s.watchedPages InMemory.actingUser request).result = .ok whole ∧
      whole.map (·.target) = [⟨0, "Foo"⟩, ⟨0, "Bar"⟩, ⟨-2, "Foo"⟩] ∧
      (∃ rows items, request.Interval 1 table rows ∧
        List.Forall₂ (fun r i => i.StandsFor s.host.collaborators InMemory.actingUser r)
          rows items ∧ items = whole) ∧
      (∀ k i limit, whole[k]? = some i → (s.watchedPages InMemory.actingUser
        { request with startFrom := some i.target, limit }).result
          = .ok (limitTo limit (whole.drop k))) ∧
      ∃ pages, s.listPages InMemory.actingUser (.int 2) 3 request = .ok pages ∧
        pages.flatten = whole := by
  intro known table s request
  have hlists : s.Lists (.ofTargets known) {t | t ∈ known} table :=
    lists_ofTable (by decide +kernel) (by simp [table, InMemory.listable_watch])
  have hrun : (s.watchedPages InMemory.actingUser request).result.toOption.map
      (fun items => items.map (·.target)) = some [⟨0, "Foo"⟩, ⟨0, "Bar"⟩, ⟨-2, "Foo"⟩] := by
    decide +kernel
  obtain ⟨whole, hanswer, htargets⟩ := Option.map_eq_some_iff.mp hrun
  have hwhole := Outcome.toOption_eq_some_iff.mp hanswer
  have hvalid : request.validate = .ok
      ⟨.ofList [], some .descending, none, none, some ⟨-2, "Foo"⟩, none, none⟩ := rfl
  have hregistered : InMemory.actingUser.isRegistered = true := rfl
  have hbounds : ∀ t ∈ request.targets, t ∈ {t | t ∈ known} := by
    simp [WatchlistRequest.targets, request, known]
  obtain ⟨⟨rows, items, hinterval, hstands, hresult⟩, hpositions⟩ :=
    listing_is_requested_interval hlists hregistered (by decide) hvalid hbounds
  obtain ⟨htake, hpages⟩ := hpositions
    (by simp [table, known, InMemory.listPlace_watch, Target.place_inj]) .descending whole rfl
    hwhole (by rw [htargets]; decide)
  obtain ⟨pages, hrun, hflat, _⟩ := hpages (.int 2) 1 3 (by decide +kernel)
    (by rw [← List.length_map, htargets]; decide)
  exact ⟨whole, hwhole, htargets, ⟨rows, items, hinterval, hstands,
    Except.ok.inj (hresult.symm.trans hwhole)⟩, fun k i limit hi => (htake k i limit hi).1, pages,
    hrun, hflat⟩

end Run

end Service

end PageWatch
