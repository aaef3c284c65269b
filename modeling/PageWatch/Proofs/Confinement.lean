import PageWatch.Host.InMemory
import PageWatch.Proofs.Wanted

/-! Confinement: caller text enters a select only through what the host makes of it. -/
namespace PageWatch

/-- Two timestamps that an executor writes alike. -/
def Executor.SameMoment (x : Executor) (t t' : String) : Prop :=
  x.quote (x.timestamp t) = x.quote (x.timestamp t')

/-- Two targets in one namespace whose titles an executor writes alike. -/
def Executor.SameTarget (x : Executor) (t t' : Target) : Prop :=
  t.namespaceId = t'.namespaceId ∧ x.quote t.title = x.quote t'.title

/-- Two cursors at one moment, with the same id. -/
def Executor.SamePlace (x : Executor) (cur cur' : Cursor) : Prop :=
  x.SameMoment cur.timestamp cur'.timestamp ∧ cur.changeId = cur'.changeId

/-- Two names of users for which an actor store contributes alike. -/
def Collaborators.SameUser (c : Collaborators) (name name' : String) : Prop :=
  c.actors.whereUser "rc_user" name = c.actors.whereUser "rc_user" name'

/-- Two raw cursors at one moment, with the same id however it is spelled. -/
inductive Executor.SameCursor (x : Executor) : List Scalar → List Scalar → Prop where
  | pair {timestamp timestamp' id id' : Scalar}
      (htime : ∀ t t', timestamp.render = some t → timestamp'.render = some t' → x.SameMoment t t')
      (hid : id.coerceInt.getD 0 = id'.coerceInt.getD 0) :
      SameCursor x [timestamp, id] [timestamp', id']

/-- Raw values among which the same namespaces are found. -/
def Scalar.SameNamespaces (raw raw' : List Scalar) : Prop :=
  ∀ n, (∃ v ∈ raw, v.IsNamespace n) ↔ ∃ v ∈ raw', v.IsNamespace n

/-- Raw values that are the same integers. -/
def Scalar.SameCodes (raw raw' : List Scalar) : Prop :=
  ∀ n, (∃ v ∈ raw, v.exactInt = some n) ↔ ∃ v ∈ raw', v.exactInt = some n

def Scalar.SameLimit (v v' : Scalar) : Prop := v.toLimit = v'.toLimit

/-- Two requests for changes, with their raw cursors, that differ only in texts of which the host
makes the same, and in how their numbers are spelled. Whose list is read, and by which token, is
left to the grant. -/
structure FeedRequest.Alike (c : Collaborators) (x : Executor) (r : FeedRequest)
    (cursor : Option (List Scalar)) (r' : FeedRequest) (cursor' : Option (List Scalar)) : Prop where
  groups : r.groups = r'.groups
  walk : r.walk = r'.walk
  filters : r.filters = r'.filters
  allRevisions : r.allRevisions = r'.allRevisions
  forGenerator : r.forGenerator = r'.forGenerator
  namespaces : Scalar.SameNamespaces r.namespaces r'.namespaces
  kinds : Scalar.SameCodes (r.kinds.getD []) (r'.kinds.getD [])
  limit : Option.Rel Scalar.SameLimit r.limit r'.limit
  start : Option.Rel x.SameMoment r.start r'.start
  stop : Option.Rel x.SameMoment r.stop r'.stop
  onlyBy : Option.Rel c.SameUser r.onlyBy r'.onlyBy
  notBy : Option.Rel c.SameUser r.notBy r'.notBy
  cursor : Option.Rel x.SameCursor cursor cursor'

/-- Two requests for a listing that differ only in titles which an executor writes alike, and in
how their numbers are spelled. -/
structure WatchlistRequest.Alike (x : Executor) (r r' : WatchlistRequest) : Prop where
  sort : r.sort = r'.sort
  filter : r.filter = r'.filter
  namespaces : Scalar.SameNamespaces r.namespaces r'.namespaces
  limit : Option.Rel Scalar.SameLimit r.limit r'.limit
  fromTarget : Option.Rel x.SameTarget r.fromTarget r'.fromTarget
  untilTarget : Option.Rel x.SameTarget r.untilTarget r'.untilTarget
  startFrom : Option.Rel x.SameTarget r.startFrom r'.startFrom

/-- Validated options from which the same select is compiled. -/
structure FeedOptions.Alike (c : Collaborators) (x : Executor) (o o' : FeedOptions) : Prop where
  groups : o.groups = o'.groups
  namespaces : o.namespaces = o'.namespaces
  kinds : o.kinds = o'.kinds
  walk : o.walk = o'.walk
  start : Option.Rel x.SameMoment o.window.start o'.window.start
  stop : Option.Rel x.SameMoment o.window.stop o'.window.stop
  limit : o.limit = o'.limit
  filters : o.filters = o'.filters
  author : Option.Rel (fun a a' => a.isNegated = a'.isNegated ∧ c.SameUser a.userName a'.userName)
    o.author o'.author
  allRevisions : o.allRevisions = o'.allRevisions
  forGenerator : o.forGenerator = o'.forGenerator
  startFrom : Option.Rel x.SamePlace o.startFrom o'.startFrom

/-- Validated options from which the same listing is compiled. -/
structure WatchlistOptions.Alike (x : Executor) (o o' : WatchlistOptions) : Prop where
  namespaces : o.namespaces = o'.namespaces
  sort : o.sort = o'.sort
  filter : o.filter = o'.filter
  fromTarget : Option.Rel x.SameTarget o.fromTarget o'.fromTarget
  untilTarget : Option.Rel x.SameTarget o.untilTarget o'.untilTarget
  startFrom : Option.Rel x.SameTarget o.startFrom o'.startFrom
  limit : o.limit = o'.limit

section Relations

variable {α β : Type} {R : α → α → Prop} {a a' : Option α}

theorem isSome_eq_of_rel (h : Option.Rel R a a') : a.isSome = a'.isSome := by
  cases h <;> rfl

theorem map_eq_of_rel {f : α → β} (h : Option.Rel R a a') (hf : ∀ b b', R b b' → f b = f b') :
    a.map f = a'.map f := by
  cases h with
  | none => rfl
  | some hr => exact congrArg some (hf _ _ hr)

end Relations

section Rendering

variable {x : Executor}

/-- Of a moment, a fragment holds what the executor writes for it. -/
theorem Executor.SameMoment.render_compare {t t' : String} (h : x.SameMoment t t') (left : Operand)
    (op : Comparison) :
    (Fragment.compare left op (.moment t)).render x
      = (Fragment.compare left op (.moment t')).render x := by
  simp only [Fragment.render, Operand.render]
  rw [h]

/-- Of a position, a seek holds what the executor writes for its values. -/
theorem Position.render_seek_eq {p p' : Position} (order : SortOrder)
    (hprimary : p.primary = p'.primary) (hsecondary : p.secondary = p'.secondary)
    (hvalue : p.primaryValue.render x = p'.primaryValue.render x)
    (hvalue' : p.secondaryValue.render x = p'.secondaryValue.render x) :
    (p.seek order).render x = (p'.seek order).render x := by
  simp only [Position.seek, Fragment.render]
  rw [hprimary, hsecondary, hvalue, hvalue']

theorem Executor.SameTarget.render_seek {t t' : Target} (h : x.SameTarget t t')
    (order : SortOrder) :
    (t.position.seek order).render x = (t'.position.seek order).render x := by
  refine Position.render_seek_eq order rfl rfl ?_ h.2
  simp only [Target.position, h.1]

theorem Executor.SamePlace.render_seek {cur cur' : Cursor} (h : x.SamePlace cur cur')
    (order : SortOrder) :
    (cur.position.seek order).render x = (cur'.position.seek order).render x := by
  refine Position.render_seek_eq order rfl rfl h.1 ?_
  simp only [Cursor.position, h.2]

end Rendering

namespace FeedOptions

variable {c : Collaborators} {x : Executor} {config : SelectConfig} {o o' : FeedOptions}
  {g : Grant}

namespace Alike

theorem sources_eq (h : o.Alike c x o') : o.sources c = o'.sources c := by
  unfold sources needsActor
  rw [h.allRevisions, h.groups, h.filters, isSome_eq_of_rel h.author]

theorem fields_eq (h : o.Alike c x o') : o.fields c = o'.fields c := by
  unfold fields idColumns
  rw [h.groups, h.forGenerator, h.allRevisions]

theorem map_windowTerms_eq (h : o.Alike c x o') :
    o.windowTerms.map (Term.push x) = o'.windowTerms.map (Term.push x) := by
  have hbound (op : Comparison) (t t' : String) (ht : x.SameMoment t t') :
      Term.push x (.fragment (.compare (.column "rc_timestamp") op (.moment t)))
        = Term.push x (.fragment (.compare (.column "rc_timestamp") op (.moment t'))) :=
    congrArg (fun text => Push.condition (.expr text)) (ht.render_compare _ op)
  unfold windowTerms
  rw [h.walk]
  cases o'.walk with
  | none => rfl
  | some w =>
    have hstart := map_eq_of_rel h.start (hbound w.sortOrder.atOrPast)
    have hstop := map_eq_of_rel h.stop (hbound w.sortOrder.reversed.atOrPast)
    simp only [List.map_append, ← Option.toList_map, Option.map_map, Function.comp_def]
    rw [hstart, hstop]

theorem hintTerms_eq (h : o.Alike c x o') (backend : Backend) :
    o.hintTerms config backend = o'.hintTerms config backend := by
  unfold hintTerms Window.isUnbounded
  simp only [← Option.not_isSome]
  rw [isSome_eq_of_rel h.start, isSome_eq_of_rel h.stop]

theorem authorTerms_eq (h : o.Alike c x o') (v : Visibility) :
    o.authorTerms c v = o'.authorTerms c v := by
  have hauthor := h.author
  unfold authorTerms
  generalize o.author = a at hauthor
  generalize o'.author = a' at hauthor
  cases hauthor with
  | none => rfl
  | some hrule =>
    simp only
    rw [hrule.1, hrule.2]

theorem map_cursorTerms_eq (h : o.Alike c x o') :
    o.cursorTerms.map (Term.push x) = o'.cursorTerms.map (Term.push x) := by
  have hstart := h.startFrom
  unfold cursorTerms
  rw [h.walk]
  generalize o.startFrom = cur at hstart
  generalize o'.startFrom = cur' at hstart
  cases hstart with
  | none => rfl
  | some hcur =>
    cases o'.walk with
    | none => rfl
    | some w =>
      exact congrArg (fun text => [Push.condition (.expr text)]) (hcur.render_seek w.sortOrder)

theorem map_terms_eq (h : o.Alike c x o') (backend : Backend) (owner : Int64) :
    (o.terms c config backend g owner).map (Term.push x)
      = (o'.terms c config backend g owner).map (Term.push x) := by
  have hlatest : o.latestTerms = o'.latestTerms := by
    unfold latestTerms
    rw [h.allRevisions]
  have hnamespaces : o.namespaceTerms = o'.namespaceTerms := by
    unfold namespaceTerms
    rw [h.namespaces]
  have hkinds : o.kindTerms = o'.kindTerms := by
    unfold kindTerms
    rw [h.kinds]
  -- The terms on moments still hold the texts; what they push is the same.
  simp only [terms, List.map_append, List.map_cons, hlatest, hnamespaces, hkinds,
    h.map_windowTerms_eq, h.hintTerms_eq, h.authorTerms_eq, h.map_cursorTerms_eq]

/-- From options that are alike the same select is compiled. -/
theorem select_eq (h : o.Alike c x o') : o.select c x config g = o'.select c x config g := by
  have horder : o.orderBy = o'.orderBy := by
    unfold orderBy
    rw [h.walk]
  have hcap : o.rowCap = o'.rowCap := by
    unfold rowCap
    rw [h.limit]
  simp only [select, horder, hcap, h.fields_eq, h.sources_eq, h.map_terms_eq]

end Alike

end FeedOptions

theorem Scalar.SameNamespaces.readNamespaces_eq {raw raw' : List Scalar}
    (h : Scalar.SameNamespaces raw raw') : readNamespaces raw = readNamespaces raw' := by
  refine SortedSet.ext_mem fun i => ?_
  rw [mem_readNamespaces_iff, mem_readNamespaces_iff, h]

namespace FeedRequest

variable {c : Collaborators} {x : Executor} {r r' : FeedRequest} {user user' : User}
  {cursor cursor' : Option (List Scalar)} {o o' : FeedOptions}

namespace Alike

theorem author_rel (h : Alike c x r cursor r' cursor') (hv : r.Validated user cursor o)
    (hv' : r'.Validated user' cursor' o') :
    Option.Rel (fun a a' => a.isNegated = a'.isNegated ∧ c.SameUser a.userName a'.userName)
      o.author o'.author := by
  have hread := hv.author
  have hread' := hv'.author
  have honly := h.onlyBy
  have hnot := h.notBy
  unfold readAuthor at hread hread'
  generalize r.onlyBy = only, r.notBy = not at hread honly hnot
  generalize r'.onlyBy = only', r'.notBy = not' at hread' honly hnot
  cases honly with
  | none =>
    cases hnot with
    | none =>
      rw [← Except.ok.inj hread, ← Except.ok.inj hread']
      exact .none
    | some hsame =>
      rw [← Except.ok.inj hread, ← Except.ok.inj hread']
      exact .some ⟨rfl, hsame⟩
  | some hsame =>
    cases hnot with
    | none =>
      rw [← Except.ok.inj hread, ← Except.ok.inj hread']
      exact .some ⟨rfl, hsame⟩
    | some => cases hread

theorem startFrom_rel (h : Alike c x r cursor r' cursor') (hv : r.Validated user cursor o)
    (hv' : r'.Validated user' cursor' o') : Option.Rel x.SamePlace o.startFrom o'.startFrom := by
  have hread := hv.startFrom
  have hread' := hv'.startFrom
  have hcursor := h.cursor
  cases hcursor with
  | none =>
    rw [← Except.ok.inj hread, ← Except.ok.inj hread']
    exact .none
  | some hsame =>
    obtain ⟨cur, hraw, hcur⟩ := readCursor_some_eq_ok_iff.mp hread
    obtain ⟨cur', hraw', hcur'⟩ := readCursor_some_eq_ok_iff.mp hread'
    rw [hcur, hcur']
    obtain ⟨_, _, t, rfl, ht, rfl⟩ := Cursor.ofRaw_eq_ok_iff.mp hraw
    obtain ⟨_, _, t', rfl, ht', rfl⟩ := Cursor.ofRaw_eq_ok_iff.mp hraw'
    cases hsame with
    | pair htime hid => exact .some ⟨htime t t' ht ht', hid⟩

/-- Requests that are alike are validated to options that are alike. -/
theorem options (h : Alike c x r cursor r' cursor') (hv : r.Validated user cursor o)
    (hv' : r'.Validated user' cursor' o') : o.Alike c x o' where
  groups := by rw [hv.groups, hv'.groups, h.groups]
  namespaces := by rw [hv.namespaces, hv'.namespaces, h.namespaces.readNamespaces_eq]
  kinds := SortedSet.ext_mem fun k => by rw [hv.mem_kinds_iff, hv'.mem_kinds_iff, h.kinds]
  walk := Option.ext fun w => by rw [hv.walk_eq_some_iff, hv'.walk_eq_some_iff, h.walk]
  start := by rw [hv.window, hv'.window]; exact h.start
  stop := by rw [hv.window, hv'.window]; exact h.stop
  limit := by rw [hv.limit, hv'.limit]; exact map_eq_of_rel h.limit fun _ _ hl => hl
  filters := by rw [hv.filters_eq, hv'.filters_eq, h.filters]
  author := h.author_rel hv hv'
  allRevisions := by rw [hv.allRevisions, hv'.allRevisions, h.allRevisions]
  forGenerator := by rw [hv.forGenerator, hv'.forGenerator, h.forGenerator]
  startFrom := h.startFrom_rel hv hv'

end Alike

end FeedRequest

namespace WatchlistOptions.Alike

variable {x : Executor} {config : SelectConfig} {o o' : WatchlistOptions} {id : UInt64}

theorem map_seekTerms_eq (h : o.Alike x o') :
    o.seekTerms.map (Term.push x) = o'.seekTerms.map (Term.push x) := by
  have hseek (order : SortOrder) (t t' : Target) (ht : x.SameTarget t t') :
      Term.push x (.fragment (t.position.seek order))
        = Term.push x (.fragment (t'.position.seek order)) :=
    congrArg (fun text => Push.condition (.expr text)) (ht.render_seek order)
  unfold seekTerms
  rw [h.sort]
  cases o'.sort with
  | none => rfl
  | some sort =>
    have hfrom := map_eq_of_rel h.fromTarget (hseek sort)
    have huntil := map_eq_of_rel h.untilTarget (hseek sort.reversed)
    have hstart := map_eq_of_rel h.startFrom (hseek sort)
    simp only [List.map_append, ← Option.toList_map, Option.map_map, Function.comp_def]
    rw [hfrom, huntil, hstart]

/-- From options that are alike the same listing is compiled. -/
theorem select_eq (h : o.Alike x o') : o.select x config id = o'.select x config id := by
  have hnamespaces : o.namespaceTerms = o'.namespaceTerms := by
    unfold namespaceTerms
    rw [h.namespaces]
  have hfilter : o.filterTerms = o'.filterTerms := by
    unfold filterTerms
    rw [h.filter]
  have horder : o.orderBy = o'.orderBy := by
    unfold orderBy
    rw [h.sort]
  simp only [select, terms, List.map_append, List.map_cons, horder, h.limit, hnamespaces, hfilter,
    h.map_seekTerms_eq]

end WatchlistOptions.Alike

namespace WatchlistRequest

variable {x : Executor} {r r' : WatchlistRequest} {o o' : WatchlistOptions}

/-- Requests that are alike are validated to options that are alike. -/
theorem Alike.options (h : r.Alike x r') (hv : r.validate = .ok o) (hv' : r'.validate = .ok o') :
    o.Alike x o' := by
  have hv := validate_eq_ok_iff.mp hv
  have hv' := validate_eq_ok_iff.mp hv'
  have hsort := hv.sort
  have hfilter := hv.filter
  rw [readSort, h.sort] at hsort
  rw [readFilter, h.filter] at hfilter
  exact {
    namespaces := by rw [hv.namespaces, hv'.namespaces, h.namespaces.readNamespaces_eq]
    sort := Except.ok.inj (hsort.symm.trans hv'.sort)
    filter := Except.ok.inj (hfilter.symm.trans hv'.filter)
    fromTarget := by rw [hv.fromTarget, hv'.fromTarget]; exact h.fromTarget
    untilTarget := by rw [hv.untilTarget, hv'.untilTarget]; exact h.untilTarget
    startFrom := by rw [hv.startFrom, hv'.startFrom]; exact h.startFrom
    limit := by rw [hv.limit, hv'.limit]; exact map_eq_of_rel h.limit fun _ _ hl => hl }

end WatchlistRequest

namespace Executor

/-- Requests that are alike are compiled to the same select: caller text is confined to what the
executor writes for a moment or a title, and to what the actor store contributes for a name. -/
theorem alike_requests_compile_alike (x : Executor) (c : Collaborators) (config : SelectConfig) :
    (∀ (r r' : FeedRequest) (user user' : User) (cursor cursor' : Option (List Scalar))
      (o o' : FeedOptions), r.validate user cursor = .ok o → r'.validate user' cursor' = .ok o' →
      r.Alike c x cursor r' cursor' → ∀ g, o.select c x config g = o'.select c x config g) ∧
    (∀ (r r' : WatchlistRequest) (o o' : WatchlistOptions),
      r.validate = .ok o → r'.validate = .ok o' →
      r.Alike x r' → ∀ id, o.select x config id = o'.select x config id) := by
  constructor
  · intro r r' user user' cursor cursor' o o' hv hv' h g
    rw [FeedRequest.validate_eq_ok_iff] at hv hv'
    exact (h.options hv hv').select_eq
  · intro r r' o o' hv hv' h id
    exact (h.options hv hv').select_eq

/-- An executor that keeps only the digits of a literal, and an actor store that knows one author
only, make the same of texts of any shape. -/
theorem alike_requests_compile_alike_hostile_texts :
    let x : Executor := { InMemory.executor {} with
      quote := fun text => InMemory.quote (String.ofList (text.toList.filter Char.isDigit)) }
    let c : Collaborators := { InMemory.collaborators {} with
      actors := { InMemory.actors with whereUser := fun _ _ => { condition := "known" } } }
    let r := FeedRequest.ofSettings [.walk .newer, .start "2024-01-01", .kinds [.text "3"],
      .namespaces [.text "4; DROP TABLE page"], .limit (.text "10 --"), .onlyBy "' OR ''=''"]
    let r' := FeedRequest.ofSettings [.walk .newer, .start "20240101' OR true", .kinds [.int 3],
      .namespaces [.null, .int 4], .limit (.int 10), .onlyBy "Other User"]
    let cursor := some [.text "2024-01-02", .text "7 OR true"]
    let cursor' := some [.int 20240102, .int 7]
    let w : WatchlistRequest :=
      { sort := some "ASC", fromTarget := some ⟨4, "Page 1"⟩, limit := some (.text "10 --") }
    let w' : WatchlistRequest :=
      { sort := some "ASC", fromTarget := some ⟨4, "1' OR true"⟩, limit := some (.int 10) }
    (∃ o o' q, r.validate InMemory.actingUser cursor = .ok o ∧
      r'.validate InMemory.actingUser cursor' = .ok o' ∧
      o.select c x {} ⟨1, .base, ∅⟩ = .ok q ∧ o'.select c x {} ⟨1, .base, ∅⟩ = .ok q) ∧
    ∃ o o' q, w.validate = .ok o ∧ w'.validate = .ok o' ∧
      o.select x {} 1 = .ok q ∧ o'.select x {} 1 = .ok q := by
  intro x c r r' cursor cursor' w w'
  obtain ⟨hfeed, hlisting⟩ := x.alike_requests_compile_alike c {}
  have hnamespaces : Scalar.SameNamespaces r.namespaces r'.namespaces := by
    have hnumber : (Scalar.text "4; DROP TABLE page").coerceInt = some 4 := by decide +kernel
    have hnull : Scalar.null.coerceInt = none := rfl
    intro n
    show (∃ v ∈ [Scalar.text _], v.IsNamespace n) ↔
      ∃ v ∈ [Scalar.null, Scalar.int 4], v.IsNamespace n
    simp [Scalar.IsNamespace, hnumber, hnull, Scalar.coerceInt_int]
  have hkinds : Scalar.SameCodes (r.kinds.getD []) (r'.kinds.getD []) := by
    have hcode : (Scalar.text "3").exactInt = some 3 := by decide +kernel
    intro n
    show (∃ v ∈ [Scalar.text _], v.exactInt = some n) ↔ ∃ v ∈ [Scalar.int 3], v.exactInt = some n
    simp [hcode, Scalar.exactInt_int]
  have hquote : x.SameMoment "2024-01-01" "20240101' OR true" ∧
      x.SameMoment "2024-01-02" "20240102" ∧ x.SameMoment "Page 1" "1' OR true" := by
    unfold Executor.SameMoment
    decide +kernel
  have hcursor : x.SameCursor [.text "2024-01-02", .text "7 OR true"] [.int 20240102, .int 7] := by
    refine .pair (fun t t' ht ht' => ?_) (by decide +kernel)
    cases ht
    cases ht'
    exact hquote.2.1
  have hlimit : (Scalar.text "10 --").SameLimit (.int 10) := by
    unfold Scalar.SameLimit
    decide +kernel
  have halike : r.Alike c x cursor r' cursor' := {
    groups := rfl
    walk := rfl
    filters := rfl
    allRevisions := rfl
    forGenerator := rfl
    namespaces := hnamespaces
    kinds := hkinds
    limit := .some hlimit
    start := .some hquote.1
    stop := .none
    onlyBy := .some rfl
    notBy := .none
    cursor := .some hcursor }
  have hsame : w.Alike x w' := {
    sort := rfl
    filter := rfl
    namespaces := fun _ => Iff.rfl
    limit := .some hlimit
    fromTarget := .some ⟨rfl, hquote.2.2⟩
    untilTarget := .none
    startFrom := .none }
  constructor
  · have hrun : ((r.validate InMemory.actingUser cursor).toOption.bind fun o =>
        (r'.validate InMemory.actingUser cursor').toOption.bind fun _ =>
          (o.select c x {} ⟨1, .base, ∅⟩).toOption.map fun _ => ()) = some () := by decide +kernel
    obtain ⟨o, ho, hrun⟩ := Option.bind_eq_some_iff.mp hrun
    obtain ⟨o', ho', hrun⟩ := Option.bind_eq_some_iff.mp hrun
    obtain ⟨q, hq, _⟩ := Option.map_eq_some_iff.mp hrun
    rw [Outcome.toOption_eq_some_iff] at ho ho' hq
    exact ⟨o, o', q, ho, ho', hq, hfeed _ _ _ _ _ _ o o' ho ho' halike _ ▸ hq⟩
  · have hrun : (w.validate.toOption.bind fun o => w'.validate.toOption.bind fun _ =>
        (o.select x {} 1).toOption.map fun _ => ()) = some () := by decide +kernel
    obtain ⟨o, ho, hrun⟩ := Option.bind_eq_some_iff.mp hrun
    obtain ⟨o', ho', hrun⟩ := Option.bind_eq_some_iff.mp hrun
    obtain ⟨q, hq, _⟩ := Option.map_eq_some_iff.mp hrun
    rw [Outcome.toOption_eq_some_iff] at ho ho' hq
    exact ⟨o, o', q, ho, ho', hq, hlisting _ _ o o' ho ho' hsame _ ▸ hq⟩

end Executor

end PageWatch
