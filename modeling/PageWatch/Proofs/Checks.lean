import PageWatch.Proofs.Failures
import PageWatch.Proofs.Numerals
import PageWatch.Proofs.Wanted

/-! Checks: which requests are consistent, and which of their faults is reported. -/
namespace PageWatch

namespace Scalar

variable {v : Scalar}

/-- A value that spells the code of a kind of changes. -/
def IsKind (v : Scalar) : Prop := ∃ n ∈ [0, 1, 3, 5, 6], v.Spells n

theorem isKind_iff : v.IsKind ↔ ∃ k, v.toKind? = some k := by
  have hcodes : [0, 1, 3, 5, 6] = ChangeKind.all.map fun k => k.code.toInt := by decide
  simp only [IsKind, hcodes, List.mem_map, exists_exists_and_eq_and, toKind?_eq_some_iff,
    exactInt_eq_some_iff]
  constructor
  · rintro ⟨k, _, hk⟩
    exact ⟨k, hk⟩
  · rintro ⟨k, hk⟩
    exact ⟨k, by cases k <;> decide, hk⟩

/-- A limit is clamped into the range of limits. -/
theorem toInt_toLimit (v : Scalar) :
    (v.toLimit.toNat : Int) = max 0 (min 4294967295 (v.coerceInt.getD 0).toInt) := by
  have hsize : UInt32.size = 4294967296 := rfl
  unfold toLimit UInt32.ofNatClamp
  split <;> rw [UInt32.toNat_ofNatLT] <;> omega

end Scalar

namespace ChangeFilter

variable {f g : ChangeFilter}

/-- The filters that contradict each other. -/
def opposites : List (ChangeFilter × ChangeFilter) :=
  [(minor, notMinor), (bot, notBot), (anon, notAnon), (patrolled, notPatrolled),
    (unread, notUnread)]

/-- Two filters contradict each other, in whatever order they are named. -/
def Opposes (f g : ChangeFilter) : Prop := (f, g) ∈ opposites ∨ (g, f) ∈ opposites

theorem opposes_iff : f.Opposes g ↔ g = f.counterpart := by
  cases f <;> simp [Opposes, opposites, counterpart]

end ChangeFilter

namespace FeedRequest

variable {r : FeedRequest} {user : User} {raw : Option (List Scalar)} {o o' : FeedOptions}
  {e : ValidationError}

/-- What is checked of a request and of the raw cursor that came with it. -/
inductive Check where
  | kinds
  | walkName
  | walkGiven
  | cursor
  | claim
  | filters
  | author

namespace Check

/-- The checks in the order in which they are made. -/
def all : List Check := [kinds, walkName, walkGiven, cursor, claim, filters, author]

theorem mem_all (k : Check) : k ∈ all := by
  cases k <;> simp [all]

/-- What a check asks for. -/
def Passes (r : FeedRequest) (raw : Option (List Scalar)) : Check → Prop
  | kinds => ∀ values ∈ r.kinds, ∀ v ∈ values, v.IsKind
  | walkName => ∀ name ∈ r.walk, name = "older" ∨ name = "newer"
  | walkGiven => r.start.isSome ∨ r.stop.isSome ∨ raw.isSome → r.walk.isSome
  | cursor => ∀ members ∈ raw, ∃ timestamp id, members = [timestamp, id] ∧ timestamp ≠ .null
  | claim => (r.owner = none ∧ r.ownerToken = none) ∨ ∃ owner token user,
      r.owner = some owner ∧ r.ownerToken = some token ∧ User.read owner = .ok user
  | filters => ∀ f ∈ r.filters, ∀ g ∈ r.filters, ¬ f.Opposes g
  | author => r.onlyBy = none ∨ r.notBy = none

/-- The option that is blamed where a check fails. An owner without a token lacks the token. -/
def option (r : FeedRequest) : Check → String
  | kinds => "rcTypes"
  | walkName | walkGiven => "dir"
  | cursor => "cursor"
  | claim =>
    if r.owner.isSome && r.ownerToken.isNone then "watchlistOwnerToken" else "watchlistOwner"
  | filters => "filters"
  | author => "notByUser"

/-- The first check that fails: those made before it are passed. -/
structure IsFirstFault (r : FeedRequest) (raw : Option (List Scalar)) (k : Check) : Prop where
  fails : ¬ k.Passes r raw
  passed : ∃ before after, all = before ++ k :: after ∧ ∀ b ∈ before, b.Passes r raw

/-- What is wrong with a request where a check fails, and how it is reported: of several bad kinds
the first one, of several contradictions the one whose filter was declared first. -/
inductive Fault (r : FeedRequest) (raw : Option (List Scalar)) : Check → ValidationError → Prop
  | kind {front back : List Scalar} {v : Scalar} (hkinds : r.kinds = some (front ++ v :: back))
    (hfront : ∀ w ∈ front, w.IsKind) (hv : ¬ v.IsKind) : Fault r raw kinds (.unknownKind v)
  | walkName {name : String} (hwalk : r.walk = some name)
    (hname : ¬ (name = "older" ∨ name = "newer")) : Fault r raw walkName .unknownWalk
  | walkGiven (hpos : r.start.isSome ∨ r.stop.isSome ∨ raw.isSome) (hwalk : r.walk = none) :
    Fault r raw walkGiven .missingWalk
  | arity {members : List Scalar} (hraw : raw = some members) (hlength : members.length ≠ 2) :
    Fault r raw cursor (.badCursor (.arity members.length))
  | nullTimestamp {id : Scalar} (hraw : raw = some [.null, id]) :
    Fault r raw cursor (.badCursor .nullTimestamp)
  | ownerAlone {owner : Document} (howner : r.owner = some owner) (htoken : r.ownerToken = none) :
    Fault r raw claim .ownerWithoutToken
  | tokenAlone {token : String} (howner : r.owner = none) (htoken : r.ownerToken = some token) :
    Fault r raw claim .tokenWithoutOwner
  | unreadable {owner : Document} {token : String} {cause : ReadError}
    (howner : r.owner = some owner) (htoken : r.ownerToken = some token)
    (hread : User.read owner = .error cause) : Fault r raw claim (.unreadableOwner cause)
  | contradiction {f g : ChangeFilter} (hf : f ∈ r.filters) (hg : g ∈ r.filters)
    (hopposes : f.Opposes g)
    (hfirst : ∀ f' ∈ r.filters, ∀ g' ∈ r.filters, f'.Opposes g' → f.index ≤ f'.index) :
    Fault r raw filters (.contradiction f)
  | authors {only other : String} (honly : r.onlyBy = some only) (hnot : r.notBy = some other) :
    Fault r raw author .twoAuthors

/-- The part of validation that makes a check. -/
def run (r : FeedRequest) (user : User) (raw : Option (List Scalar)) :
    Check → Except ValidationError Unit
  | kinds => r.readKinds.map fun _ => ()
  | walkName => r.readWalk.map fun _ => ()
  | walkGiven => if r.isPositioned raw && r.walk.isNone then .error .missingWalk else .ok ()
  | cursor => (readCursor raw).map fun _ => ()
  | claim => (r.readScope user).map fun _ => ()
  | filters => r.readFilters.map fun _ => ()
  | author => r.readAuthor.map fun _ => ()

end Check

/-- What options say of a request that passes all checks, member by member. -/
structure Describes (r : FeedRequest) (user : User) (cursor : Option (List Scalar))
    (o : FeedOptions) : Prop where
  groups : ∀ g, g ∈ o.groups ↔ g ∈ r.groups
  namespaces : ∀ i, i ∈ o.namespaces ↔ ∃ v ∈ r.namespaces, v.IsNamespace i.toInt64
  kinds : ∀ k, k ∈ o.kinds ↔ ∃ values ∈ r.kinds, ∃ v ∈ values, v.Spells k.code.toInt
  walk : ∀ w, o.walk = some w ↔ r.walk = some w.name
  start : o.window.start = r.start
  stop : o.window.stop = r.stop
  limited : o.limit.isSome = r.limit.isSome
  limit : ∀ v ∈ r.limit, ∀ n ∈ o.limit,
    (n.toNat : Int) = max 0 (min 4294967295 (v.coerceInt.getD 0).toInt)
  filters : ∀ f, f ∈ o.filters ↔ f ∈ r.filters
  onlyBy : ∀ name, o.author = some (.onlyBy name) ↔ r.onlyBy = some name
  notBy : ∀ name, o.author = some (.notBy name) ↔ r.notBy = some name
  ownScope : r.owner = none → o.scope = .own user
  claimedScope : ∀ owner ∈ r.owner, ∀ token ∈ r.ownerToken,
    ∃ u, User.read owner = .ok u ∧ o.scope = .claimed u token
  allRevisions : o.allRevisions = r.allRevisions
  forGenerator : o.forGenerator = r.forGenerator
  fromBeginning : cursor = none → o.startFrom = none
  startFrom : ∀ timestamp id, cursor = some [timestamp, id] →
    ∃ t, timestamp.render = some t ∧ o.startFrom = some ⟨t, id.coerceInt.getD 0⟩

theorem readKind_eq_error_iff {v : Scalar} :
    readKind v = .error e ↔ ¬ v.IsKind ∧ e = .unknownKind v := by
  rw [Scalar.isKind_iff]
  unfold readKind
  cases v.toKind? <;> simp [eq_comm]

theorem exists_readKind_iff {v : Scalar} : (∃ k, readKind v = .ok k) ↔ v.IsKind := by
  rw [Scalar.isKind_iff]
  unfold readKind
  cases v.toKind? <;> simp

theorem exists_readKinds_iff : (∃ ks, r.readKinds = .ok ks) ↔ Check.kinds.Passes r raw := by
  unfold readKinds Check.Passes
  cases r.kinds with
  | none => simp
  | some values =>
    simp only [Outcome.except_map_eq_ok_iff, Option.mem_some_iff, forall_eq',
      ← exists_readKind_iff, ← Outcome.exists_mapM_eq_ok_iff]
    constructor
    · rintro ⟨_, ks, hks, _⟩
      exact ⟨ks, hks⟩
    · rintro ⟨ks, hks⟩
      exact ⟨_, ks, hks, rfl⟩

theorem readKinds_eq_error_iff : r.readKinds = .error e ↔ Check.Fault r raw .kinds e := by
  constructor
  · intro h
    unfold readKinds at h
    split at h
    next values hkinds =>
      obtain ⟨front, v, back, rfl, hfront, hv⟩ :=
        Outcome.mapM_eq_error_iff.mp (Outcome.except_map_eq_error_iff.mp h)
      obtain ⟨hbad, rfl⟩ := readKind_eq_error_iff.mp hv
      exact .kind hkinds (fun w hw => exists_readKind_iff.mp (hfront w hw)) hbad
    next => cases h
  · rintro ⟨hkinds, hfront, hv⟩
    unfold readKinds
    rw [hkinds]
    apply Outcome.except_map_eq_error_iff.mpr
    apply Outcome.mapM_eq_error_iff.mpr
    refine ⟨_, _, _, rfl, ?_, readKind_eq_error_iff.mpr ⟨hv, rfl⟩⟩
    exact fun w hw => exists_readKind_iff.mpr (hfront w hw)

theorem ofName?_eq_none_iff {name : String} :
    Walk.ofName? name = none ↔ ¬ (name = "older" ∨ name = "newer") := by
  rw [Option.eq_none_iff_forall_ne_some]
  simp only [ne_eq, Walk.ofName?_eq_some_iff, not_or]
  constructor
  · intro h
    exact ⟨h .older, h .newer⟩
  · rintro ⟨holder, hnewer⟩ w
    cases w with
    | older => exact holder
    | newer => exact hnewer

theorem exists_readWalk_iff : (∃ walk, r.readWalk = .ok walk) ↔ Check.walkName.Passes r raw := by
  unfold readWalk Check.Passes
  cases r.walk with
  | none => simp
  | some name =>
    simp only [Option.mem_some_iff, forall_eq']
    rw [← not_iff_not, ← ofName?_eq_none_iff]
    cases Walk.ofName? name <;> simp

theorem readWalk_eq_error_iff : r.readWalk = .error e ↔ Check.Fault r raw .walkName e := by
  constructor
  · intro h
    unfold readWalk at h
    split at h
    next name hwalk =>
      split at h
      next => cases h
      next hname =>
        cases h
        exact .walkName hwalk (ofName?_eq_none_iff.mp hname)
    next => cases h
  · intro h
    cases h with
    | walkName hwalk hname =>
      unfold readWalk
      rw [hwalk]
      dsimp only
      rw [ofName?_eq_none_iff.mpr hname]

theorem exists_readCursor_iff : (∃ c, readCursor raw = .ok c) ↔ Check.cursor.Passes r raw := by
  have hrender (v : Scalar) : (∃ t, v.render = some t) ↔ v ≠ .null := by
    rw [← Option.isSome_iff_exists, ne_eq, ← Scalar.render_eq_none_iff, Option.isSome_iff_ne_none]
  cases raw with
  | none => simp [readCursor, Check.Passes]
  | some members =>
    simp only [readCursor_some_eq_ok_iff, Cursor.ofRaw_eq_ok_iff, Check.Passes,
      Option.mem_some_iff, forall_eq', ← hrender]
    constructor
    · rintro ⟨_, _, ⟨timestamp, id, t, hmembers, ht, _⟩, _⟩
      exact ⟨timestamp, id, hmembers, t, ht⟩
    · rintro ⟨timestamp, id, hmembers, t, ht⟩
      exact ⟨_, _, ⟨timestamp, id, t, hmembers, ht, rfl⟩, rfl⟩

theorem readCursor_eq_error_iff : readCursor raw = .error e ↔ Check.Fault r raw .cursor e := by
  constructor
  · intro h
    unfold readCursor at h
    split at h
    next members =>
      obtain ⟨cause, hcause, rfl⟩ := Outcome.mapError_eq_error_iff.mp h
      have hcause := Outcome.except_map_eq_error_iff.mp hcause
      unfold Cursor.ofRaw at hcause
      split at hcause
      next timestamp id =>
        split at hcause
        next => cases hcause
        next hnull =>
          cases hcause
          rw [Scalar.render_eq_none_iff] at hnull
          exact .nullTimestamp (by rw [hnull])
      next hpair =>
        cases hcause
        refine .arity rfl fun hlength => ?_
        obtain ⟨timestamp, id, rfl⟩ := List.length_eq_two.mp hlength
        exact hpair timestamp id rfl
    next => cases h
  · intro h
    cases h with
    | arity hraw hlength =>
      rw [hraw]
      refine Outcome.mapError_eq_error_iff.mpr ⟨_, Outcome.except_map_eq_error_iff.mpr ?_, rfl⟩
      unfold Cursor.ofRaw
      split
      next => exact absurd rfl hlength
      next => rfl
    | nullTimestamp hraw =>
      rw [hraw]
      rfl

theorem exists_readScope_iff :
    (∃ scope, r.readScope user = .ok scope) ↔ Check.claim.Passes r raw := by
  unfold readScope Check.Passes
  cases r.owner <;> cases r.ownerToken <;> simp [Outcome.except_map_eq_ok_iff]

theorem readScope_eq_error_iff : r.readScope user = .error e ↔ Check.Fault r raw .claim e := by
  constructor
  · intro h
    unfold readScope at h
    split at h
    next => cases h
    next howner htoken =>
      cases h
      exact .ownerAlone howner htoken
    next howner htoken =>
      cases h
      exact .tokenAlone howner htoken
    next howner htoken =>
      obtain ⟨cause, hcause, rfl⟩ := Outcome.mapError_eq_error_iff.mp h
      exact .unreadable howner htoken (Outcome.except_map_eq_error_iff.mp hcause)
  · intro h
    unfold readScope
    cases h with
    | ownerAlone howner htoken => rw [howner, htoken]
    | tokenAlone howner htoken => rw [howner, htoken]
    | unreadable howner htoken hread =>
      rw [howner, htoken]
      dsimp only
      rw [hread]
      rfl

/-- Contradictions are looked for among all filters, in whatever order they are asked for. -/
theorem exists_readFilters_iff : (∃ fs, r.readFilters = .ok fs) ↔ Check.filters.Passes r raw := by
  have hfree : contradiction? (.ofList r.filters) = none ↔ Check.filters.Passes r raw := by
    simp only [contradiction?, List.find?_eq_none, SortedSet.mem_toList, SortedSet.mem_ofList,
      SortedSet.contains, List.contains_iff_mem, Check.Passes, ChangeFilter.opposes_iff,
      imp_not_comm (b := _ = _), forall_eq]
  rw [← hfree]
  unfold readFilters
  dsimp only
  split
  next f hf => simp [hf]
  next hf => simp [hf]

theorem contradiction?_eq_some_iff {f : ChangeFilter} :
    contradiction? (.ofList r.filters) = some f ↔ f ∈ r.filters ∧ f.counterpart ∈ r.filters ∧
      ∀ f' ∈ r.filters, f'.counterpart ∈ r.filters → f.index ≤ f'.index := by
  simp only [contradiction?, SortedSet.find?_eq_some_iff, SortedSet.contains,
    List.contains_iff_mem, SortedSet.mem_toList, SortedSet.mem_ofList]
  rfl

theorem readFilters_eq_error_iff : r.readFilters = .error e ↔ Check.Fault r raw .filters e := by
  unfold readFilters
  dsimp only
  constructor
  · intro h
    split at h
    next f hfound =>
      cases h
      obtain ⟨hf, hcounterpart, hfirst⟩ := contradiction?_eq_some_iff.mp hfound
      refine .contradiction hf hcounterpart (ChangeFilter.opposes_iff.mpr rfl) ?_
      intro f' hf' g' hg' hopposes
      exact hfirst f' hf' (ChangeFilter.opposes_iff.mp hopposes ▸ hg')
    next => cases h
  · intro h
    cases h with
    | contradiction hf hg hopposes hfirst =>
      obtain rfl := ChangeFilter.opposes_iff.mp hopposes
      rw [contradiction?_eq_some_iff.mpr ⟨hf, hg, fun f' hf' hg' =>
        hfirst f' hf' _ hg' (ChangeFilter.opposes_iff.mpr rfl)⟩]

theorem exists_readAuthor_iff : (∃ a, r.readAuthor = .ok a) ↔ Check.author.Passes r raw := by
  unfold readAuthor Check.Passes
  cases r.onlyBy <;> cases r.notBy <;> simp

theorem readAuthor_eq_error_iff : r.readAuthor = .error e ↔ Check.Fault r raw .author e := by
  constructor
  · intro h
    unfold readAuthor at h
    split at h
    next honly hnot =>
      cases h
      exact .authors honly hnot
    all_goals cases h
  · intro h
    cases h with
    | authors honly hnot =>
      unfold readAuthor
      rw [honly, hnot]

namespace Check

theorem run_eq_ok_iff (k : Check) : k.run r user raw = .ok () ↔ k.Passes r raw := by
  cases k with
  | kinds => exact Outcome.except_map_unit_eq_ok_iff.trans exists_readKinds_iff
  | walkName => exact Outcome.except_map_unit_eq_ok_iff.trans exists_readWalk_iff
  | walkGiven => simp [run, Passes, isPositioned, or_assoc, Option.isSome_iff_ne_none]
  | cursor => exact Outcome.except_map_unit_eq_ok_iff.trans exists_readCursor_iff
  | claim => exact Outcome.except_map_unit_eq_ok_iff.trans exists_readScope_iff
  | filters => exact Outcome.except_map_unit_eq_ok_iff.trans exists_readFilters_iff
  | author => exact Outcome.except_map_unit_eq_ok_iff.trans exists_readAuthor_iff

/-- A check fails with what is wrong. -/
theorem run_eq_error_iff (k : Check) : k.run r user raw = .error e ↔ Fault r raw k e := by
  cases k with
  | kinds => exact Outcome.except_map_eq_error_iff.trans readKinds_eq_error_iff
  | walkName => exact Outcome.except_map_eq_error_iff.trans readWalk_eq_error_iff
  | walkGiven =>
    have hpos : (r.isPositioned raw && r.walk.isNone) = true ↔
        (r.start.isSome ∨ r.stop.isSome ∨ raw.isSome) ∧ r.walk = none := by
      simp [isPositioned, or_assoc]
    simp only [run]
    split
    next h =>
      obtain ⟨hgiven, hwalk⟩ := hpos.mp h
      constructor
      · intro he
        cases he
        exact .walkGiven hgiven hwalk
      · intro he
        cases he
        rfl
    next h =>
      constructor
      · intro he
        cases he
      · intro he
        cases he with
        | walkGiven hgiven hwalk => exact absurd (hpos.mpr ⟨hgiven, hwalk⟩) h
  | cursor => exact Outcome.except_map_eq_error_iff.trans readCursor_eq_error_iff
  | claim => exact Outcome.except_map_eq_error_iff.trans readScope_eq_error_iff
  | filters => exact Outcome.except_map_eq_error_iff.trans readFilters_eq_error_iff
  | author => exact Outcome.except_map_eq_error_iff.trans readAuthor_eq_error_iff

/-- Something is wrong exactly where a check fails. -/
theorem exists_fault_iff (k : Check) : (∃ e, Fault r raw k e) ↔ ¬ k.Passes r raw := by
  have hpasses : (∃ u, k.run r default raw = .ok u) ↔ k.Passes r raw := by
    constructor
    · rintro ⟨_, h⟩
      exact k.run_eq_ok_iff.mp h
    · intro h
      exact ⟨(), k.run_eq_ok_iff.mpr h⟩
  rw [← hpasses, Outcome.exists_eq_ok_iff]
  simp only [ne_eq, run_eq_error_iff, not_forall, not_not]

/-- A fault is reported under the option that is checked. -/
theorem Fault.option_eq {k : Check} (h : Fault r raw k e) : e.option = k.option r := by
  cases h with
  | ownerAlone howner htoken => simp [Check.option, ValidationError.option, howner, htoken]
  | tokenAlone howner _ => simp [Check.option, ValidationError.option, howner]
  | unreadable _ htoken _ => simp [Check.option, ValidationError.option, htoken]
  | _ => rfl

/-- Neither namespaces nor a limit are checked. -/
theorem run_of_limit (r : FeedRequest) (namespaces : List Scalar) (limit : Option Scalar) :
    Check.run { r with namespaces, limit } user raw = Check.run r user raw := by
  funext k
  cases k <;> rfl

end Check

/-- A stage of validation is a check, and what follows it are the checks after that one. -/
theorem bind_eq_error_iff_mapM {α β : Type} {x : Except ValidationError α}
    {f : α → Except ValidationError β} {k : Check} {ks : List Check}
    (hx : k.run r user raw = x.map fun _ => ())
    (hf : ∀ a, x = .ok a → (f a = .error e ↔ ks.mapM (Check.run r user raw) = .error e)) :
    x >>= f = .error e ↔ (k :: ks).mapM (Check.run r user raw) = .error e := by
  rw [List.mapM_cons, hx]
  cases x with
  | error e' => simp [Except.map, Bind.bind, Except.bind]
  | ok a =>
    simp only [Outcome.except_bind_eq_error_iff, Outcome.except_map_eq_ok_iff,
      Outcome.except_map_eq_error_iff, ← hf a rfl, pure, Except.pure]
    simp

/-- What stops a chain is a stage of its own. -/
theorem ite_throw_bind {α β : Type} {p : Prop} [Decidable p] {e : ValidationError}
    {f : α → Except ValidationError β} {g : Except ValidationError β} :
    (if p then throw e >>= f else g)
      = (if p then .error e else .ok () : Except ValidationError Unit) >>= fun _ => g := by
  split <;> rfl

/-- Validation fails as the checks fail, made one after the other. -/
theorem validate_eq_error_iff_mapM : r.validate user raw = .error e ↔
    Check.all.mapM (Check.run r user raw) = .error e := by
  refine bind_eq_error_iff_mapM rfl fun kinds _ => ?_
  refine bind_eq_error_iff_mapM rfl fun walk hwalk => ?_
  have hgiven {β : Type} {f g : Except ValidationError β} :
      (if (r.isPositioned raw && walk.isNone) = true then f else g)
        = if (r.isPositioned raw && r.walk.isNone) = true then f else g := by
    rw [readWalk_eq_ok_iff.mp hwalk, Option.isNone_map]
  rw [hgiven, ite_throw_bind]
  refine bind_eq_error_iff_mapM (by simp only [Check.run]; split <;> rfl) fun _ _ => ?_
  refine bind_eq_error_iff_mapM rfl fun startFrom _ => ?_
  refine bind_eq_error_iff_mapM rfl fun scope _ => ?_
  refine bind_eq_error_iff_mapM rfl fun filters _ => ?_
  refine bind_eq_error_iff_mapM rfl fun author _ => ?_
  exact ⟨nofun, nofun⟩

/-- A request is accepted exactly if it passes all checks. -/
theorem exists_validate_iff :
    (∃ o, r.validate user raw = .ok o) ↔ ∀ k : Check, k.Passes r raw := by
  have hchecks : (∃ o, r.validate user raw = .ok o) ↔
      ∃ us, Check.all.mapM (Check.run r user raw) = .ok us := by
    simp only [Outcome.exists_eq_ok_iff, ne_eq, validate_eq_error_iff_mapM]
  rw [hchecks, Outcome.exists_mapM_eq_ok_iff]
  constructor
  · intro h k
    obtain ⟨_, hk⟩ := h k k.mem_all
    exact k.run_eq_ok_iff.mp hk
  · intro h k _
    exact ⟨(), k.run_eq_ok_iff.mpr (h k)⟩

/-- What is reported of a request is wrong with the first check that fails. -/
theorem validate_eq_error_iff : r.validate user raw = .error e ↔
    ∃ k : Check, k.IsFirstFault r raw ∧ Check.Fault r raw k e := by
  rw [validate_eq_error_iff_mapM, Outcome.mapM_eq_error_iff]
  constructor
  · rintro ⟨before, k, after, hall, hbefore, hk⟩
    refine ⟨k, ⟨?_, before, after, hall, ?_⟩, k.run_eq_error_iff.mp hk⟩
    · intro hpasses
      cases (k.run_eq_ok_iff.mpr hpasses).symm.trans hk
    · intro b hb
      obtain ⟨_, hb⟩ := hbefore b hb
      exact b.run_eq_ok_iff.mp hb
  · rintro ⟨k, ⟨_, before, after, hall, hbefore⟩, hk⟩
    refine ⟨before, k, after, hall, ?_, k.run_eq_error_iff.mpr hk⟩
    exact fun b hb => ⟨(), b.run_eq_ok_iff.mpr (hbefore b hb)⟩

/-- The option to blame is that of the first check that fails. -/
theorem exists_validate_eq_error_iff {option : String} :
    (∃ e, r.validate user raw = .error e ∧ e.option = option) ↔
      ∃ k : Check, k.IsFirstFault r raw ∧ k.option r = option := by
  simp only [validate_eq_error_iff]
  constructor
  · rintro ⟨e, ⟨k, hfirst, hk⟩, rfl⟩
    exact ⟨k, hfirst, hk.option_eq.symm⟩
  · rintro ⟨k, hfirst, rfl⟩
    obtain ⟨e, hk⟩ := k.exists_fault_iff.mpr hfirst.fails
    exact ⟨e, ⟨k, hfirst, hk⟩, hk.option_eq⟩

theorem Validated.author_eq_some_iff (h : r.Validated user raw o) :
    (∀ name, o.author = some (.onlyBy name) ↔ r.onlyBy = some name) ∧
      ∀ name, o.author = some (.notBy name) ↔ r.notBy = some name := by
  rcases readAuthor_eq_ok_iff.mp h.author with ⟨honly, hnot, ho⟩ | ⟨_, honly, hnot, ho⟩ |
    ⟨_, honly, hnot, ho⟩ <;> simp [honly, hnot, ho]

theorem Validated.describes (h : r.Validated user raw o) : r.Describes user raw o where
  groups g := by rw [h.groups, SortedSet.mem_ofList]
  namespaces i := by rw [h.namespaces, mem_readNamespaces_iff]
  kinds k := by
    rw [h.mem_kinds_iff]
    cases r.kinds <;> simp [Scalar.exactInt_eq_some_iff]
  walk w := h.walk_eq_some_iff
  start := by rw [h.window]
  stop := by rw [h.window]
  limited := by rw [h.limit, Option.isSome_map]
  limit := by
    intro v hv n hn
    rw [h.limit, hv] at hn
    cases hn
    exact v.toInt_toLimit
  filters f := by rw [h.filters_eq, SortedSet.mem_ofList]
  onlyBy := h.author_eq_some_iff.1
  notBy := h.author_eq_some_iff.2
  ownScope := by
    intro howner
    have hread := h.scope
    unfold readScope at hread
    cases htoken : r.ownerToken <;> simp_all
  claimedScope := by
    intro owner howner token htoken
    have hread := h.scope
    unfold readScope at hread
    rw [howner, htoken] at hread
    simp only [Outcome.mapError_eq_ok_iff, Outcome.except_map_eq_ok_iff] at hread
    obtain ⟨u, hu, hscope⟩ := hread
    exact ⟨u, hu, hscope.symm⟩
  allRevisions := h.allRevisions
  forGenerator := h.forGenerator
  fromBeginning := by
    rintro rfl
    exact h.startFrom_none
  startFrom := by
    rintro timestamp id rfl
    obtain ⟨_, _, c, hc, hstart⟩ := h.of_resumed
    obtain ⟨_, _, t, hraw, ht, rfl⟩ := Cursor.ofRaw_eq_ok_iff.mp hc
    cases hraw
    exact ⟨t, ht, hstart⟩

/-- The options of a request that passes all checks are determined by what they say of it. -/
theorem Describes.unique (hpasses : ∀ k : Check, k.Passes r raw) (h : r.Describes user raw o)
    (h' : r.Describes user raw o') : o = o' := by
  have hlimit : o.limit = o'.limit := by
    have hsome := h.limited.trans h'.limited.symm
    cases hr : r.limit with
    | none =>
      have hnone := h.limited
      have hnone' := h'.limited
      simp_all
    | some v =>
      obtain ⟨n, hn⟩ := Option.isSome_iff_exists.mp (h.limited.trans (by rw [hr]; rfl))
      obtain ⟨n', hn'⟩ := Option.isSome_iff_exists.mp (h'.limited.trans (by rw [hr]; rfl))
      have hsame := (h.limit v hr n hn).trans (h'.limit v hr n' hn').symm
      rw [hn, hn', UInt32.toNat_inj.mp (Int.ofNat_inj.mp hsame)]
  have hauthor : o.author = o'.author := by
    refine Option.ext fun rule => ?_
    cases rule with
    | onlyBy name => exact (h.onlyBy name).trans (h'.onlyBy name).symm
    | notBy name => exact (h.notBy name).trans (h'.notBy name).symm
  have hscope : o.scope = o'.scope := by
    rcases hpasses .claim with ⟨howner, _⟩ | ⟨owner, token, _, howner, htoken, _⟩
    · rw [h.ownScope howner, h'.ownScope howner]
    · obtain ⟨u, hu, hscope⟩ := h.claimedScope owner howner token htoken
      obtain ⟨u', hu', hscope'⟩ := h'.claimedScope owner howner token htoken
      rw [hscope, hscope', Except.ok.inj (hu.symm.trans hu')]
  have hstart : o.startFrom = o'.startFrom := by
    cases hraw : raw with
    | none => rw [h.fromBeginning hraw, h'.fromBeginning hraw]
    | some members =>
      obtain ⟨timestamp, id, rfl, _⟩ := hpasses .cursor members hraw
      obtain ⟨t, ht, hcursor⟩ := h.startFrom timestamp id hraw
      obtain ⟨t', ht', hcursor'⟩ := h'.startFrom timestamp id hraw
      rw [hcursor, hcursor', Option.some.inj (ht.symm.trans ht')]
  have hwindow : o.window = o'.window := by
    rw [show o.window = ⟨o.window.start, o.window.stop⟩ from rfl, h.start, h.stop, ← h'.start,
      ← h'.stop]
  have hgroups := SortedSet.ext_mem fun g => (h.groups g).trans (h'.groups g).symm
  have hnamespaces := SortedSet.ext_mem fun i => (h.namespaces i).trans (h'.namespaces i).symm
  have hkinds := SortedSet.ext_mem fun k => (h.kinds k).trans (h'.kinds k).symm
  have hfilters := SortedSet.ext_mem fun f => (h.filters f).trans (h'.filters f).symm
  have hwalk := Option.ext fun w => (h.walk w).trans (h'.walk w).symm
  have hall := h.allRevisions.trans h'.allRevisions.symm
  have hgenerator := h.forGenerator.trans h'.forGenerator.symm
  cases o
  cases o'
  rw [FeedOptions.mk.injEq]
  exact ⟨hgroups, hnamespaces, hkinds, hwalk, hwindow, hlimit, hfilters, hauthor, hscope, hall,
    hgenerator, hstart⟩

/-- Validation accepts exactly the consistent requests and describes them by their options; of any
other request it reports what is wrong with the first check that fails, under the option of that
check, whatever else is wrong. Namespaces and the limit are never refused. -/
theorem validate_reports_first_fault (r : FeedRequest) (user : User) (raw : Option (List Scalar)) :
    ((∃ o, r.validate user raw = .ok o) ↔ ∀ k : Check, k.Passes r raw) ∧
    (∀ e, r.validate user raw = .error e ↔
      ∃ k : Check, k.IsFirstFault r raw ∧ Check.Fault r raw k e) ∧
    (∀ option, (∃ e, r.validate user raw = .error e ∧ e.option = option) ↔
      ∃ k : Check, k.IsFirstFault r raw ∧ k.option r = option) ∧
    (∀ namespaces limit e, ({ r with namespaces, limit } : FeedRequest).validate user raw = .error e
      ↔ r.validate user raw = .error e) ∧
    ∀ o, r.validate user raw = .ok o ↔ (∀ k : Check, k.Passes r raw) ∧ r.Describes user raw o := by
  refine ⟨exists_validate_iff, fun _ => validate_eq_error_iff,
    fun _ => exists_validate_eq_error_iff, ?_, ?_⟩
  · intro namespaces limit e
    rw [validate_eq_error_iff_mapM, validate_eq_error_iff_mapM, Check.run_of_limit]
  · intro o
    constructor
    · intro ho
      exact ⟨exists_validate_iff.mp ⟨o, ho⟩, (validate_eq_ok_iff.mp ho).describes⟩
    · rintro ⟨hpasses, ho⟩
      obtain ⟨o', ho'⟩ := exists_validate_iff.mpr hpasses
      rwa [ho.unique hpasses (validate_eq_ok_iff.mp ho').describes]

/-- The direction is blamed, although cursor, filters and authors are wrong as well. -/
example :
    let r : FeedRequest := {
      kinds := some [.int 0, .text " +03 "], walk := some "sideways",
      filters := [.minor, .notMinor], onlyBy := some "A", notBy := some "B" }
    ((r.validate ⟨1, "MockUser"⟩ (some [.null])).mapError ValidationError.option).map (fun _ => ())
      = .error "dir" := by
  rfl

end FeedRequest

end PageWatch
