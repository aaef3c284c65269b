import PageWatch.Proofs.Checks
import PageWatch.Proofs.Confinement

/-! Repetition: the lists of a request count as sets, and so do those of its select. -/
namespace PageWatch

open Rank (rank)

namespace FeedRequest

variable {r r' : FeedRequest} {user : User} {raw : Option (List Scalar)} {o : FeedOptions}
  {e : ValidationError}

/-- A request with other lists that have the same members, in whatever order and however often.
Namespaces are the same if the same ones are found among them. -/
inductive SameMembers (r : FeedRequest) : FeedRequest → Prop
  | relisted {groups : List FieldGroup} {namespaces : List Scalar} {kinds : Option (List Scalar)}
      {filters : List ChangeFilter} (hgroups : ∀ g, g ∈ r.groups ↔ g ∈ groups)
      (hnamespaces : Scalar.SameNamespaces r.namespaces namespaces)
      (hkinds : ∀ v, v ∈ r.kinds.getD [] ↔ v ∈ kinds.getD [])
      (hfilters : ∀ f, f ∈ r.filters ↔ f ∈ filters) :
      SameMembers r { r with groups, namespaces, kinds, filters }

/-- A list that is not given counts as one without members. -/
theorem forall_mem_getD_iff {kinds : Option (List Scalar)} {p : Scalar → Prop} :
    (∀ values ∈ kinds, ∀ v ∈ values, p v) ↔ ∀ v ∈ kinds.getD [], p v := by
  cases kinds <;> simp

theorem exists_mem_getD_iff {kinds : Option (List Scalar)} {p : Scalar → Prop} :
    (∃ values ∈ kinds, ∃ v ∈ values, p v) ↔ ∃ v ∈ kinds.getD [], p v := by
  cases kinds <;> simp

namespace SameMembers

theorem symm (h : r.SameMembers r') : r'.SameMembers r := by
  cases h with
  | relisted hgroups hnamespaces hkinds hfilters =>
    exact .relisted (fun g => (hgroups g).symm) (fun n => (hnamespaces n).symm)
      (fun v => (hkinds v).symm) fun f => (hfilters f).symm

/-- No check depends on the order of a list or on how often a member stands there. -/
theorem passes_iff (h : r.SameMembers r') (k : Check) : k.Passes r raw ↔ k.Passes r' raw := by
  cases h with
  | relisted hgroups hnamespaces hkinds hfilters =>
    cases k with
    | kinds =>
      simp only [Check.Passes, forall_mem_getD_iff, hkinds]
    | filters => simp only [Check.Passes, hfilters]
    | _ => exact Iff.rfl

theorem isFirstFault (h : r.SameMembers r') {k : Check} (hk : k.IsFirstFault r raw) :
    k.IsFirstFault r' raw := by
  obtain ⟨before, after, hall, hbefore⟩ := hk.passed
  exact ⟨fun hpasses => hk.fails ((h.passes_iff k).mpr hpasses), before, after, hall,
    fun b hb => (h.passes_iff b).mp (hbefore b hb)⟩

/-- Only which kind is the first bad one depends on the order. -/
theorem fault (h : r.SameMembers r') {k : Check} (hne : k ≠ .kinds) (hk : Check.Fault r raw k e) :
    Check.Fault r' raw k e := by
  cases h with
  | relisted hgroups hnamespaces hkinds hfilters =>
    cases hk with
    | kind => exact absurd rfl hne
    | walkName hwalk hname => exact .walkName hwalk hname
    | walkGiven hpos hwalk => exact .walkGiven hpos hwalk
    | arity hraw hlength => exact .arity hraw hlength
    | nullTimestamp hraw => exact .nullTimestamp hraw
    | ownerAlone howner htoken => exact .ownerAlone howner htoken
    | tokenAlone howner htoken => exact .tokenAlone howner htoken
    | unreadable howner htoken hread => exact .unreadable howner htoken hread
    | contradiction hf hg hopposes hfirst =>
      refine .contradiction ((hfilters _).mp hf) ((hfilters _).mp hg) hopposes ?_
      exact fun f' hf' g' hg' => hfirst f' ((hfilters _).mpr hf') g' ((hfilters _).mpr hg')
    | authors honly hnot => exact .authors honly hnot

theorem describes (h : r.SameMembers r') (ho : r.Describes user raw o) :
    r'.Describes user raw o := by
  cases h with
  | relisted hgroups hnamespaces hkinds hfilters =>
    exact {
      ho with
      groups := fun g => (ho.groups g).trans (hgroups g)
      namespaces := fun i => (ho.namespaces i).trans (hnamespaces _)
      kinds := by
        intro k
        simp only [ho.kinds, exists_mem_getD_iff, hkinds]
      filters := fun f => (ho.filters f).trans (hfilters f) }

theorem validate_eq_ok (h : r.SameMembers r') (ho : r.validate user raw = .ok o) :
    r'.validate user raw = .ok o := by
  have hpasses (k : Check) : k.Passes r' raw :=
    (h.passes_iff k).mp (exists_validate_iff.mp ⟨o, ho⟩ k)
  obtain ⟨o', ho'⟩ := exists_validate_iff.mpr hpasses
  have hdescribes := h.describes (validate_eq_ok_iff.mp ho).describes
  rwa [hdescribes.unique hpasses (validate_eq_ok_iff.mp ho').describes]

theorem exists_validate_eq_error (h : r.SameMembers r') (he : r.validate user raw = .error e) :
    ∃ e', r'.validate user raw = .error e' ∧ e'.option = e.option ∧
      (e.option ≠ "rcTypes" → e' = e) := by
  obtain ⟨k, hfirst, hk⟩ := validate_eq_error_iff.mp he
  by_cases hkinds : k = .kinds
  · -- Some kind is bad in either order, but it need not be the same one that comes first.
    subst hkinds
    have hfirst' := h.isFirstFault hfirst
    obtain ⟨e', he'⟩ := Check.exists_fault_iff .kinds |>.mpr hfirst'.fails
    have hsame : e'.option = e.option := he'.option_eq.trans hk.option_eq.symm
    exact ⟨e', validate_eq_error_iff.mpr ⟨_, hfirst', he'⟩, hsame,
      fun hne => absurd hk.option_eq hne⟩
  · exact ⟨e, validate_eq_error_iff.mpr ⟨k, h.isFirstFault hfirst, h.fault hkinds hk⟩, rfl,
      fun _ => rfl⟩

end SameMembers

end FeedRequest

/-- Numbers in strictly ascending order. -/
def Scalar.Ascending (values : List Scalar) : Prop :=
  ∃ ns : List Int64, values = ns.map .int ∧ ns.Pairwise (· < ·)

theorem Scalar.Ascending.nodup {values : List Scalar} (h : Ascending values) : values.Nodup := by
  obtain ⟨ns, rfl, hns⟩ := h
  refine List.Nodup.map (fun _ _ => Scalar.int.inj) (hns.imp ?_)
  rintro n _ hlt rfl
  exact Int64.lt_irrefl hlt

/-- A set that is listed by the numbers it is ordered by is listed in ascending order. -/
theorem SortedSet.ascending_map {α : Type} [Rank α] (s : SortedSet α) {f : α → Int64}
    (hf : ∀ a, (f a).toInt = rank a) : Scalar.Ascending (s.toList.map fun a => .int (f a)) := by
  refine ⟨s.toList.map f, by simp, ?_⟩
  rw [List.pairwise_map]
  refine s.ascending.imp fun {a b} hlt => ?_
  rwa [Int64.lt_iff_toInt_lt, hf, hf]

/-- A set is listed only if it has members, and then all of them are listed. -/
theorem SortedSet.exists_listed_iff {α β : Type} [Rank α] (s : SortedSet α) (f : α → β) {v : β} :
    (∃ values, (s.toList ≠ [] ∧ values = s.toList.map f) ∧ v ∈ values) ↔ ∃ a ∈ s, v = f a := by
  constructor
  · rintro ⟨_, ⟨_, rfl⟩, hv⟩
    obtain ⟨a, ha, rfl⟩ := List.mem_map.mp hv
    exact ⟨a, ha, rfl⟩
  · rintro ⟨a, ha, rfl⟩
    exact ⟨_, ⟨List.ne_nil_of_mem ha, rfl⟩, List.mem_map_of_mem ha⟩

theorem Term.condition_eq_oneOf_iff {x : Executor} {t : Term} {column : String}
    {values : List Scalar} : t.condition x = .oneOf column values ↔ t = .oneOf column values := by
  cases t <;> simp [condition]

namespace FeedOptions

variable {o : FeedOptions} {c : Collaborators} {x : Executor} {config : SelectConfig} {g : Grant}
  {q : SelectQuery} {column : String} {values : List Scalar}

/-- Namespaces and kinds are listed, and nothing else is. -/
theorem oneOf_mem_terms_iff {backend : Backend} {owner : Int64} :
    .oneOf column values ∈ o.terms c config backend g owner ↔
      .oneOf column values ∈ o.namespaceTerms ∨ .oneOf column values ∈ o.kindTerms := by
  have hlatest : .oneOf column values ∉ o.latestTerms := by
    unfold latestTerms
    split <;> simp
  have hfilter : .oneOf column values ∉ g.filters.toList.map (filterTerm c) := by
    rw [List.mem_map]
    rintro ⟨f, _, hf⟩
    cases f <;> cases hf
  have hwindow : .oneOf column values ∉ o.windowTerms := by
    unfold windowTerms
    split <;> simp
  have hhint : .oneOf column values ∉ o.hintTerms config backend := by
    unfold hintTerms
    split <;> simp
  have hauthor : .oneOf column values ∉ o.authorTerms c g.visibility := by
    unfold authorTerms
    split <;> simp
  have hlog : .oneOf column values ∉ logTerms g.visibility := by
    simp [logTerms]
  have hcursor : .oneOf column values ∉ o.cursorTerms := by
    unfold cursorTerms
    split <;> simp
  simp [terms, hlatest, hfilter, hwindow, hhint, hauthor, hlog, hcursor]

theorem oneOf_mem_conditions_iff (h : o.select c x config g = .ok q) :
    .oneOf column values ∈ q.conditions ↔
      .oneOf column values ∈ o.namespaceTerms ∨ .oneOf column values ∈ o.kindTerms := by
  obtain ⟨owner, _, hq⟩ := conditions_of_select h
  rw [hq, List.mem_map]
  simp only [Term.condition_eq_oneOf_iff, exists_eq_right, oneOf_mem_terms_iff]

theorem oneOf_mem_namespaceTerms_iff : .oneOf column values ∈ o.namespaceTerms ↔
    column = "wl_namespace" ∧ o.namespaces.toList ≠ [] ∧
      values = o.namespaces.toList.map Scalar.ofInt32 := by
  unfold namespaceTerms SortedSet.isEmpty
  cases o.namespaces.toList <;> simp

theorem oneOf_mem_kindTerms_iff : .oneOf column values ∈ o.kindTerms ↔
    column = "rc_type" ∧ o.kinds.toList ≠ [] ∧
      values = o.kinds.toList.map fun k => .int k.code := by
  unfold kindTerms SortedSet.isEmpty
  cases o.kinds.toList <;> simp

theorem ascending_of_oneOf_mem (h : o.select c x config g = .ok q)
    (hmem : .oneOf column values ∈ q.conditions) : Scalar.Ascending values := by
  rw [oneOf_mem_conditions_iff h, oneOf_mem_namespaceTerms_iff, oneOf_mem_kindTerms_iff] at hmem
  rcases hmem with ⟨_, _, rfl⟩ | ⟨_, _, rfl⟩
  · exact o.namespaces.ascending_map Int32.toInt_toInt64
  · exact o.kinds.ascending_map fun _ => rfl

/-- What is listed for the namespaces are their numbers. -/
theorem exists_oneOf_namespaces_iff (h : o.select c x config g = .ok q) {v : Scalar} :
    (∃ values, .oneOf "wl_namespace" values ∈ q.conditions ∧ v ∈ values) ↔
      ∃ i ∈ o.namespaces, v = .ofInt32 i := by
  simp only [oneOf_mem_conditions_iff h, oneOf_mem_namespaceTerms_iff, oneOf_mem_kindTerms_iff]
  simp only [true_and, String.reduceEq, false_and, or_false]
  exact o.namespaces.exists_listed_iff Scalar.ofInt32

/-- What is listed for the kinds are their codes. -/
theorem exists_oneOf_kinds_iff (h : o.select c x config g = .ok q) {v : Scalar} :
    (∃ values, .oneOf "rc_type" values ∈ q.conditions ∧ v ∈ values) ↔
      ∃ k ∈ o.kinds, v = .int k.code := by
  simp only [oneOf_mem_conditions_iff h, oneOf_mem_namespaceTerms_iff, oneOf_mem_kindTerms_iff]
  simp only [true_and, String.reduceEq, false_and, false_or]
  exact o.kinds.exists_listed_iff fun k => Scalar.int k.code

end FeedOptions

namespace FeedRequest

variable {r r' : FeedRequest} {user : User} {raw : Option (List Scalar)}

/-- The lists of a request count as sets. Whatever the order and the repetitions in them, the same
requests are accepted, with equal options, so that a call does the same from there on; a request
that is refused is refused for the same option, and also in the same words unless it is for its
kinds, of which the first bad one is told. A compiled select lists the namespaces and kinds that
were asked for, in ascending order and none of them twice. -/
theorem lists_count_as_sets (h : r.SameMembers r') (user : User) (raw : Option (List Scalar)) :
    (∀ o, r.validate user raw = .ok o ↔ r'.validate user raw = .ok o) ∧
    (∀ e, r.validate user raw = .error e → ∃ e', r'.validate user raw = .error e' ∧
      e'.option = e.option ∧ (e.option ≠ "rcTypes" → e' = e)) ∧
    (∀ o, r.validate user raw = .ok o →
      ∀ s : Service, s.changes user r raw = s.changes user r' raw) ∧
    ∀ (s : Service) o g x q, s.Compiles user r raw o g x q →
      s.Compiles user r' raw o g x q ∧
      (∀ column values, .oneOf column values ∈ q.conditions →
        Scalar.Ascending values ∧ values.Nodup) ∧
      (∀ v, (∃ values, .oneOf "wl_namespace" values ∈ q.conditions ∧ v ∈ values) ↔
        ∃ w ∈ r.namespaces, ∃ n, w.IsNamespace n ∧ v = .int n) ∧
      ∀ v, (∃ values, .oneOf "rc_type" values ∈ q.conditions ∧ v ∈ values) ↔
        ∃ w ∈ r.kinds.getD [], ∃ n, w.exactInt = some n ∧ v = .int n := by
  refine ⟨fun o => ⟨h.validate_eq_ok, h.symm.validate_eq_ok⟩,
    fun e => h.exists_validate_eq_error, ?_, ?_⟩
  · intro o ho s
    simp only [Service.changes]
    rw [ho, h.validate_eq_ok ho]
  · intro s o g x q hq
    have hv := validate_eq_ok_iff.mp hq.validated
    refine ⟨⟨h.validate_eq_ok hq.validated, hq.decided, hq.replica, hq.compiled⟩, ?_, ?_, ?_⟩
    · intro column values hmem
      have hascending := FeedOptions.ascending_of_oneOf_mem hq.compiled hmem
      exact ⟨hascending, hascending.nodup⟩
    · intro v
      rw [FeedOptions.exists_oneOf_namespaces_iff hq.compiled, hv.namespaces,
        exists_mem_readNamespaces_iff]
    · intro v
      rw [FeedOptions.exists_oneOf_kinds_iff hq.compiled, hv.exists_mem_kinds_iff]

/-- Shuffled and repeated members, a namespace that is spelled another way and one that is none: the
call is the same, and its select lists both namespaces once. Where two kinds are unknown, it is the
order that tells which one is reported. -/
theorem lists_count_as_sets_shuffled :
    let r : FeedRequest := {
      groups := [.user, .flags], namespaces := [.text "4 pages", .int 0]
      kinds := some [.text " 3 ", .int 0], filters := [.minor, .bot] }
    let r' : FeedRequest := {
      groups := [.flags, .user, .flags], namespaces := [.int 0, .null, .int 4, .int 4]
      kinds := some [.int 0, .text " 3 ", .int 0], filters := [.bot, .minor, .bot] }
    let bad : FeedRequest := { kinds := some [.int 7, .int 8] }
    let bad' : FeedRequest := { kinds := some [.int 8, .int 7, .int 8] }
    let s : Service := ⟨InMemory.host {}, {}, []⟩
    s.changes InMemory.actingUser r none = s.changes InMemory.actingUser r' none ∧
    (∃ o g x q, s.Compiles InMemory.actingUser r' none o g x q ∧
      .oneOf "wl_namespace" [.int 0, .int 4] ∈ q.conditions) ∧
    bad.validate InMemory.actingUser none = .error (.unknownKind (.int 7)) ∧
    ∃ e, bad'.validate InMemory.actingUser none = .error e ∧ e.option = "rcTypes" ∧
      e.reason ≠ (ValidationError.unknownKind (.int 7)).reason := by
  intro r r' bad bad' s
  have hnamespaces : Scalar.SameNamespaces r.namespaces r'.namespaces := by
    have hnumber : (Scalar.text "4 pages").coerceInt = some 4 := by decide +kernel
    have hnull : Scalar.null.coerceInt = none := rfl
    intro n
    show (∃ v ∈ [Scalar.text _, _], v.IsNamespace n) ↔ ∃ v ∈ [_, Scalar.null, _, _], v.IsNamespace n
    simp [Scalar.IsNamespace, hnumber, hnull, Scalar.coerceInt_int, or_comm]
  have hsame : r.SameMembers r' :=
    .relisted (by simp [r, or_comm]) hnamespaces (by simp [r, or_comm]) (by simp [r, or_comm])
  have hbad : bad.SameMembers bad' :=
    .relisted (fun _ => Iff.rfl) (fun _ => Iff.rfl) (by simp [bad, or_comm]) fun _ => Iff.rfl
  obtain ⟨_, _, hcall, hselects⟩ := lists_count_as_sets hsame InMemory.actingUser none
  obtain ⟨_, hrefused, _, _⟩ := lists_count_as_sets hbad InMemory.actingUser none
  have hrun : ((r.validate InMemory.actingUser none).toOption.bind fun o =>
      let c := InMemory.collaborators {}
      (Access.decide c InMemory.actingUser o).result.toOption.bind fun g =>
        (o.select c (InMemory.executor {}) {} g).toOption.map fun q =>
          q.conditions.contains (.oneOf "wl_namespace" [.int 0, .int 4])) = some true := by
    decide +kernel
  obtain ⟨o, ho, hrun⟩ := Option.bind_eq_some_iff.mp hrun
  obtain ⟨g, hg, hrun⟩ := Option.bind_eq_some_iff.mp hrun
  obtain ⟨q, hq, hlisted⟩ := Option.map_eq_some_iff.mp hrun
  rw [Outcome.toOption_eq_some_iff] at ho hg hq
  have hcompiles : s.Compiles InMemory.actingUser r none o g (InMemory.executor {}) q :=
    ⟨ho, hg, rfl, hq⟩
  refine ⟨hcall o ho s, ⟨o, g, _, q, (hselects s o g _ q hcompiles).1, ?_⟩, rfl, ?_⟩
  · exact List.contains_iff_mem.mp hlisted
  · obtain ⟨e, he, hoption, _⟩ := hrefused _ rfl
    refine ⟨e, he, hoption, ?_⟩
    obtain rfl : .unknownKind (.int 8) = e := Except.error.inj he
    decide +kernel

end FeedRequest

end PageWatch
