import PageWatch.Proofs.Wanted

/-! Hiding: what stays hidden from a user goes by deletion bits, and more rights hide less. -/
namespace PageWatch

section Bits

variable {n a b : Int64}

/-- All bits of two masks are set exactly if all bits of each are. -/
theorem and_or_eq_self_iff : n &&& (a ||| b) = a ||| b ↔ n &&& a = a ∧ n &&& b = b := by
  simp only [← Int64.toBitVec_inj, Int64.toBitVec_and, Int64.toBitVec_or,
    BitVec.eq_of_getLsbD_eq_iff, BitVec.getLsbD_and, BitVec.getLsbD_or]
  grind

/-- Of a mask of one bit, all bits are set or none is. -/
theorem and_eq_self_iff_ne_zero {i : Nat} (hbit : a.toBitVec = BitVec.twoPow 64 i) (ha : a ≠ 0) :
    n &&& a = a ↔ n &&& a ≠ 0 := by
  have hand := BitVec.and_twoPow n.toBitVec i
  rw [← hbit, ← Int64.toBitVec_and] at hand
  split at hand
  next =>
    rw [Int64.toBitVec_inj] at hand
    simp [hand, ha]
  next =>
    have hzero : n &&& a = 0 := Int64.toBitVec_inj.mp hand
    simp [hzero, ha.symm]

theorem ofNat_toNat_or (a b : UInt32) :
    Int64.ofNat (a ||| b).toNat = Int64.ofNat a.toNat ||| Int64.ofNat b.toNat := by
  apply Int64.toBitVec_inj.mp
  simp

end Bits

/-- A deletion bit of a change is set. -/
def Record.HasBit (r : Row) (bit : UInt32) : Prop :=
  ∃ n : Int64, r.cell "rc_deleted" = .int n ∧ n &&& Int64.ofNat bit.toNat ≠ 0

namespace Record

variable {r : Row} {bit bit' : UInt32}

/-- The bits by which something of a change is hidden. -/
def deletionBits : List UInt32 := [deletedAction, deletedUser, deletedRestricted]

theorem and_deletionBit_eq_self_iff {n : Int64} (h : bit ∈ deletionBits) :
    n &&& Int64.ofNat bit.toNat = Int64.ofNat bit.toNat ↔ n &&& Int64.ofNat bit.toNat ≠ 0 := by
  simp only [deletionBits, List.mem_cons, List.not_mem_nil, or_false] at h
  rcases h with rfl | rfl | rfl
  · exact and_eq_self_iff_ne_zero (i := 0) rfl (by decide)
  · exact and_eq_self_iff_ne_zero (i := 2) rfl (by decide)
  · exact and_eq_self_iff_ne_zero (i := 3) rfl (by decide)

/-- A change lacks a bit if its bits are known and this one is not set. -/
theorem Lacks.not_hasBit (h : r.Lacks bit) (hbit : bit ∈ deletionBits) : ¬ r.HasBit bit := by
  obtain ⟨n, hn, hlacks⟩ := h
  rintro ⟨n', hn', hset⟩
  obtain rfl : n = n' := Scalar.int.inj (hn.symm.trans hn')
  exact hlacks ((and_deletionBit_eq_self_iff hbit).mpr hset)

/-- A change lacks two bits together if its bits are known and not both of these are set. -/
theorem Lacks.not_hasBit_and_hasBit (h : r.Lacks (bit ||| bit')) (hbit : bit ∈ deletionBits)
    (hbit' : bit' ∈ deletionBits) : ¬ (r.HasBit bit ∧ r.HasBit bit') := by
  obtain ⟨n, hn, hlacks⟩ := h
  rintro ⟨⟨k, hk, hset⟩, ⟨k', hk', hset'⟩⟩
  obtain rfl : n = k := Scalar.int.inj (hn.symm.trans hk)
  obtain rfl : n = k' := Scalar.int.inj (hn.symm.trans hk')
  apply hlacks
  rw [ofNat_toNat_or, and_or_eq_self_iff]
  exact ⟨(and_deletionBit_eq_self_iff hbit).mpr hset, (and_deletionBit_eq_self_iff hbit').mpr hset'⟩

/-- A change that lacks one bit lacks it together with any other. -/
theorem Lacks.or (h : r.Lacks bit) (bit' : UInt32) : r.Lacks (bit ||| bit') := by
  obtain ⟨n, hn, hlacks⟩ := h
  refine ⟨n, hn, fun hboth => hlacks ?_⟩
  rw [ofNat_toNat_or, and_or_eq_self_iff] at hboth
  exact hboth.1

end Record

/-- Validated options have an author rule exactly if the request names an author. -/
theorem FeedRequest.Validated.author_isSome_iff {request : FeedRequest} {user : User}
    {cursor : Option (List Scalar)} {o : FeedOptions} (h : request.Validated user cursor o) :
    o.author.isSome = true ↔ request.onlyBy.isSome = true ∨ request.notBy.isSome = true := by
  rcases readAuthor_eq_ok_iff.mp h.author with ⟨honly, hnot, ho⟩ | ⟨_, honly, hnot, ho⟩ |
    ⟨_, honly, hnot, ho⟩ <;> simp [honly, hnot, ho]

/-- A user is allowed any of several things if one of them is allowed. -/
def Permissions.Disjunctive (p : Permissions) (user : User) : Prop :=
  ∀ rights, p.isAllowedAny user rights = rights.any (p.isAllowed user)

/-- Permissions under which a user holds every right held under others, and patrols as before. -/
structure Permissions.Extends (p p' : Permissions) (user : User) : Prop where
  rights : ∀ right, p.isAllowed user right = true → p'.isAllowed user right = true
  any : p'.Disjunctive user
  changePatrol : p'.usesChangePatrol user = p.usesChangePatrol user
  pagePatrol : p'.usesPagePatrol user = p.usesPagePatrol user

namespace Access

variable {c : Collaborators} {user : User} {bit : UInt32} {r : Row} {p : Permissions}

/-- Without deleted history a bit hides by itself, with it only together with the restriction, and
with a right to what is suppressed not at all. -/
theorem shows_iff : Shows c user bit r ↔
    (c.permissions.isAllowed user .deletedHistory = false → r.Lacks bit) ∧
    (c.permissions.isAllowed user .deletedHistory = true →
      c.permissions.isAllowedAny user [.suppressRevision, .viewSuppressed] = false →
        r.Lacks (bit ||| deletedRestricted)) := by
  unfold Shows hidingMask
  cases c.permissions.isAllowed user .deletedHistory <;>
    cases c.permissions.isAllowedAny user [.suppressRevision, .viewSuppressed] <;> simp

/-- A bit that hides by itself is not set in what is shown. -/
theorem Shows.not_hasBit (h : Shows c user bit r) (hbit : bit ∈ Record.deletionBits)
    (hhistory : c.permissions.isAllowed user .deletedHistory = false) : ¬ r.HasBit bit :=
  ((shows_iff.mp h).1 hhistory).not_hasBit hbit

/-- A bit that hides together with the restriction is not set with it in what is shown. -/
theorem Shows.not_restricted (h : Shows c user bit r) (hbit : bit ∈ Record.deletionBits)
    (hhistory : c.permissions.isAllowed user .deletedHistory = true)
    (hnone : c.permissions.isAllowedAny user [.suppressRevision, .viewSuppressed] = false) :
    ¬ (r.HasBit bit ∧ r.HasBit deletedRestricted) :=
  ((shows_iff.mp h).2 hhistory hnone).not_hasBit_and_hasBit hbit (by decide)

/-- What is shown to a user is shown to the user with more rights as well. -/
theorem Shows.extends (h : Shows c user bit r)
    (hany : c.permissions.Disjunctive user) (hp : c.permissions.Extends p user) :
    Shows { c with permissions := p } user bit r := by
  obtain ⟨hbase, hrestricted⟩ := shows_iff.mp h
  -- A right gained widens the mask by the restriction or drops it, so less is hidden either way.
  refine shows_iff.mpr ⟨fun hhistory => hbase ?_, fun _ hnone => ?_⟩
  · exact Bool.eq_false_iff.mpr fun hc => by simp [hp.rights _ hc] at hhistory
  · cases hc : c.permissions.isAllowed user .deletedHistory with
    | false => exact (hbase hc).or deletedRestricted
    | true =>
      apply hrestricted hc
      rw [hany, List.any_eq_false]
      intro right hright hallowed
      rw [hp.any, List.any_eq_false] at hnone
      exact hnone right hright (hp.rights right hallowed)

end Access

/-- The conditions on deletion bits are understood, whatever a user may see. -/
structure Meaning.UnderstandsHiding (m : Meaning) (x : Executor) : Prop where
  author : ∀ v : Visibility, ∀ mask ∈ v.authorMask, m.Understands x (FeedOptions.notHidden mask)
  logAction : ∀ v : Visibility, ∀ t ∈ FeedOptions.logTerms v, m.UnderstandsTerm x t

/-- The terms that hide something from someone. -/
def hidingTerms : List Term :=
  Visibility.all.flatMap fun v =>
    FeedOptions.logTerms v
      ++ v.authorMask.toList.map fun mask => .fragment (FeedOptions.notHidden mask)

/-- Where the texts of these terms are told apart, they are understood by looking them up. -/
theorem Meaning.understandsHiding_ofFragments {x : Executor} (m : Meaning)
    (hdistinct : ((Term.partsOf hidingTerms).map (Fragment.render x)).Nodup) :
    (ofFragments x m (Term.partsOf hidingTerms)).UnderstandsHiding x := by
  have hall (v : Visibility) : v ∈ Visibility.all := by cases v <;> simp [Visibility.all]
  have hnegated : ∀ t ∈ hidingTerms, t.isNegated = false := by decide
  have hread (t : Term) (ht : t ∈ hidingTerms) :=
    understandsTerm_ofFragments (m := m) hdistinct ht (hnegated t ht)
  refine ⟨fun v mask hmask => hread (.fragment (FeedOptions.notHidden mask)) ?_,
    fun v t ht => hread t ?_⟩
  · refine List.mem_flatMap.mpr ⟨v, hall v, List.mem_append_right _ ?_⟩
    exact List.mem_map.mpr ⟨mask, Option.mem_toList.mpr hmask, rfl⟩
  · exact List.mem_flatMap.mpr ⟨v, hall v, List.mem_append_left _ ht⟩

namespace FeedOptions

variable {o : FeedOptions} {c : Collaborators} {x : Executor} {config : SelectConfig} {id : UInt64}
  {v : Visibility} {filters : SortedSet ChangeFilter} {q q₀ : SelectQuery} {m : Meaning} {r : Row}

/-- A row is accepted exactly if it would be when nothing were hidden, and what is hidden does not
concern it. -/
theorem accepts_iff_of_visibility (h : o.select c x config ⟨id, v, filters⟩ = .ok q)
    (h₀ : o.select c x config ⟨id, .suppressed, filters⟩ = .ok q₀) (hm : m.UnderstandsHiding x) :
    q.accepts m r = true ↔ q₀.accepts m r = true ∧
      (o.author.isSome = true → ∀ mask ∈ v.authorMask, r.Lacks mask) ∧
      ∀ mask ∈ v.logActionMask,
        (r.cell "rc_type" ≠ .null ∧ r.cell "rc_type" ≠ .int 3) ∨ r.Lacks mask := by
  obtain ⟨owner, ho, hq⟩ := conditions_of_select h
  obtain ⟨owner₀, ho₀, hq₀⟩ := conditions_of_select h₀
  obtain rfl : owner = owner₀ := Except.ok.inj (ho.symm.trans ho₀)
  -- Of all terms only those on log entries and on authors depend on what may be seen.
  have hlog : (∀ t ∈ logTerms v, (t.condition x).truth m r = .holds) ↔
      ∀ mask ∈ v.logActionMask,
        (r.cell "rc_type" ≠ .null ∧ r.cell "rc_type" ≠ .int 3) ∨ r.Lacks mask := by
    rw [← allHold_logTerms (m := m)]
    exact forall₂_congr fun t ht => by rw [Meaning.reads_of_understands (hm.logAction v t ht) r]
  have hauthor : (∀ t ∈ o.authorTerms c v, (t.condition x).truth m r = .holds) ↔
      (∀ t ∈ o.authorTerms c .suppressed, (t.condition x).truth m r = .holds) ∧
        (o.author.isSome = true → ∀ mask ∈ v.authorMask, r.Lacks mask) := by
    have hmask (mask) (hmask : mask ∈ v.authorMask) :
        ((Term.fragment (notHidden mask)).condition x).truth m r = .holds ↔ r.Lacks mask := by
      rw [← truth_notHidden (m := m), ← Meaning.truth_render (hm.author v mask hmask)]
      rfl
    unfold authorTerms
    cases o.author with
    | none => simp
    | some rule =>
      simp only [List.forall_mem_cons, List.forall_mem_map, Option.mem_toList,
        Option.isSome_some, forall_const, Visibility.authorMask, reduceCtorEq,
        false_imp_iff, and_true]
      exact and_congr_right fun _ => forall₂_congr hmask
  rw [SelectQuery.accepts_eq_true_iff, SelectQuery.accepts_eq_true_iff, hq, hq₀]
  have hnone : logTerms .suppressed = [] := rfl
  simp only [List.forall_mem_map, terms, List.cons_append, List.forall_mem_cons,
    List.forall_mem_append, hauthor, hlog, hnone, List.append_nil]
  tauto

/-- Every select can be compiled for those from whom nothing is hidden as well. -/
theorem exists_select_of_visibility (h : o.select c x config ⟨id, v, filters⟩ = .ok q)
    (v' : Visibility) : ∃ q', o.select c x config ⟨id, v', filters⟩ = .ok q' := by
  obtain ⟨fields, owner, hf, ho, rfl⟩ := select_eq_ok_iff.mp h
  exact ⟨_, select_eq_ok_iff.mpr ⟨fields, owner, hf, ho, rfl⟩⟩

end FeedOptions

namespace Service

variable {s : Service} {user : User} {request : FeedRequest} {cursor : Option (List Scalar)}
  {o : FeedOptions} {g : Grant} {x : Executor} {q q' : SelectQuery} {m : Meaning} {r : Row}
  {p : Permissions}

/-- The service over the same host, but for its permissions. -/
def withPermissions (s : Service) (p : Permissions) : Service :=
  { s with host.collaborators.permissions := p }

/-- A row is accepted exactly if it would be when nothing were hidden, and if it shows the acting
user its author, where one is asked for, and its action, where it is a log entry. -/
theorem Compiles.accepts_iff_shows {q₀ : SelectQuery}
    (h : s.Compiles user request cursor o g x q)
    (h₀ : o.select s.host.collaborators x s.config { g with visibility := .suppressed } = .ok q₀)
    (hm : m.UnderstandsHiding x) :
    q.accepts m r = true ↔ q₀.accepts m r = true ∧
      (o.author.isSome = true → Access.Shows s.host.collaborators user deletedUser r) ∧
      ((r.cell "rc_type" ≠ .null ∧ r.cell "rc_type" ≠ .int 3) ∨
        Access.Shows s.host.collaborators user deletedAction r) := by
  obtain ⟨id, _, rfl⟩ := Access.decide_eq_ok_iff.mp h.decided
  rw [FeedOptions.accepts_iff_of_visibility h.compiled h₀ hm, Access.authorMask_visibility,
    Access.logActionMask_visibility]
  refine and_congr_right fun _ => and_congr_right fun _ => ?_
  unfold Access.Shows
  cases Access.hidingMask s.host.collaborators user deletedAction <;> simp

/-- A user with more rights is granted the same list and the same filters. -/
theorem Compiles.withPermissions (h : s.Compiles user request cursor o g x q)
    (hp : s.host.collaborators.permissions.Extends p user) :
    ∃ v q', (s.withPermissions p).Compiles user request cursor o
      { g with visibility := v } x q' := by
  obtain ⟨id, hid, rfl⟩ := Access.decide_eq_ok_iff.mp h.decided
  let c : Collaborators := { s.host.collaborators with permissions := p }
  obtain ⟨q', hq'⟩ := FeedOptions.exists_select_of_visibility h.compiled (Access.visibility c user)
  have hhonors : Access.honors s.host.collaborators user = Access.honors c user := by
    funext f
    simp [Access.honors, Access.canPatrol, c, hp.changePatrol, hp.pagePatrol]
  refine ⟨Access.visibility c user, q', h.validated, ?_, h.replica, hq'⟩
  rw [hhonors]
  exact Access.decide_eq_ok_iff.mpr ⟨id, hid, rfl⟩

/-- More rights hide no row that fewer rights show. -/
theorem Compiles.accepts_withPermissions {v : Visibility}
    (h : s.Compiles user request cursor o g x q) (hm : m.UnderstandsHiding x)
    (hany : s.host.collaborators.permissions.Disjunctive user)
    (hp : s.host.collaborators.permissions.Extends p user)
    (h' : (s.withPermissions p).Compiles user request cursor o { g with visibility := v } x q')
    (hr : q.accepts m r = true) : q'.accepts m r = true := by
  obtain ⟨q₀, h₀⟩ := FeedOptions.exists_select_of_visibility h.compiled .suppressed
  obtain ⟨haccepts, hauthor, hlog⟩ := (h.accepts_iff_shows h₀ hm).mp hr
  refine (h'.accepts_iff_shows h₀ hm).mpr ⟨haccepts, fun hasked => ?_, ?_⟩
  · exact (hauthor hasked).extends hany hp
  · exact hlog.imp_right fun hshows => hshows.extends hany hp

/-- Rows that a compiled select accepts show nothing that is hidden from the acting user: without
deleted history no log entry whose action is deleted and, where an author is asked for, no change
whose author is; without a right to what is suppressed, none where that is restricted as well. A
user with more rights is shown every row that one with fewer is shown. -/
theorem accepted_rows_respect_rights (h : s.Compiles user request cursor o g x q)
    (hm : m.UnderstandsHiding x) (hany : s.host.collaborators.permissions.Disjunctive user) :
    (∀ r, q.accepts m r = true →
      (s.host.collaborators.permissions.isAllowed user .deletedHistory = false →
        ¬ (r.cell "rc_type" = .int 3 ∧ r.HasBit 1) ∧
        (request.onlyBy.isSome = true ∨ request.notBy.isSome = true → ¬ r.HasBit 4)) ∧
      (s.host.collaborators.permissions.isAllowed user .deletedHistory = true →
        s.host.collaborators.permissions.isAllowed user .suppressRevision = false →
        s.host.collaborators.permissions.isAllowed user .viewSuppressed = false →
        ¬ (r.cell "rc_type" = .int 3 ∧ r.HasBit 1 ∧ r.HasBit 8) ∧
        (request.onlyBy.isSome = true ∨ request.notBy.isSome = true →
          ¬ (r.HasBit 4 ∧ r.HasBit 8)))) ∧
    ∀ p, s.host.collaborators.permissions.Extends p user →
      ∃ g' q', (s.withPermissions p).Compiles user request cursor o g' x q' ∧
        ∀ r, q.accepts m r = true → q'.accepts m r = true := by
  have hasked := (FeedRequest.validate_eq_ok_iff.mp h.validated).author_isSome_iff
  obtain ⟨q₀, h₀⟩ := FeedOptions.exists_select_of_visibility h.compiled .suppressed
  constructor
  · intro r hr
    obtain ⟨_, hauthor, hlog⟩ := (h.accepts_iff_shows h₀ hm).mp hr
    have haction (htype : r.cell "rc_type" = .int 3) :
        Access.Shows s.host.collaborators user deletedAction r :=
      hlog.resolve_left fun hother => hother.2 htype
    rw [hasked] at hauthor
    constructor
    · intro hhistory
      constructor
      · rintro ⟨htype, hbit⟩
        exact (haction htype).not_hasBit (by decide) hhistory hbit
      · intro hask hbit
        exact (hauthor hask).not_hasBit (by decide) hhistory hbit
    · intro hhistory hsuppress hview
      have hnone : s.host.collaborators.permissions.isAllowedAny user
          [.suppressRevision, .viewSuppressed] = false :=
        (hany _).trans (by simp [hsuppress, hview])
      constructor
      · rintro ⟨htype, hbits⟩
        exact (haction htype).not_restricted (by decide) hhistory hnone hbits
      · intro hask hbits
        exact (hauthor hask).not_restricted (by decide) hhistory hnone hbits
  · intro p hp
    obtain ⟨v, q', h'⟩ := h.withPermissions hp
    exact ⟨_, q', h', fun r hr => h.accepts_withPermissions hm hany hp h' hr⟩

/-- A user without rights asks for what another one did. A restricted change is shown, and stays
shown when the user may see more; it is hidden once its author is deleted as well. -/
theorem accepted_rows_respect_rights_deleted_author :
    let s : Service := ⟨InMemory.host { denied := Right.all }, {}, []⟩
    let p := (InMemory.collaborators { denied := [.viewSuppressed] }).permissions
    let request := FeedRequest.ofSettings [.onlyBy "Other User"]
    let change := Record.ofList [("page_latest", .int 5), ("rc_deleted", .int 8),
      ("rc_this_oldid", .int 5), ("rc_timestamp", .text "20240101000000"), ("rc_type", .int 0),
      ("wl_user", .int 1)]
    let hidden := change.insert "rc_deleted" (.int 12)
    ∃ m o g q, s.Compiles InMemory.actingUser request none o g (InMemory.executor {}) q ∧
      m.UnderstandsHiding (InMemory.executor {}) ∧ q.accepts m change = true ∧
      hidden.HasBit 4 ∧ q.accepts m hidden = false ∧
      ∃ g' q', (s.withPermissions p).Compiles InMemory.actingUser request none o g'
        (InMemory.executor {}) q' ∧ q'.accepts m change = true := by
  intro s p request change hidden
  let m := Meaning.ofFragments (InMemory.executor {}) ⟨.text, fun _ _ => .holds⟩
    (Term.partsOf hidingTerms)
  have hrun : ((request.validate InMemory.actingUser none).toOption.bind fun o =>
      (Access.decide s.host.collaborators InMemory.actingUser o).result.toOption.bind fun g =>
        (o.select s.host.collaborators (InMemory.executor {}) {} g).toOption.map fun q =>
          q.accepts m change) = some true := by decide +kernel
  obtain ⟨o, ho, hrun⟩ := Option.bind_eq_some_iff.mp hrun
  obtain ⟨g, hg, hrun⟩ := Option.bind_eq_some_iff.mp hrun
  obtain ⟨q, hq, haccepts⟩ := Option.map_eq_some_iff.mp hrun
  have hcompiles : s.Compiles InMemory.actingUser request none o g (InMemory.executor {}) q :=
    ⟨Outcome.toOption_eq_some_iff.mp ho, Outcome.toOption_eq_some_iff.mp hg, rfl,
      Outcome.toOption_eq_some_iff.mp hq⟩
  have hm : m.UnderstandsHiding (InMemory.executor {}) :=
    Meaning.understandsHiding_ofFragments _ (by decide +kernel)
  have hany (denied : List Right) :
      (InMemory.collaborators { denied }).permissions.Disjunctive InMemory.actingUser :=
    fun _ => rfl
  have hbit : hidden.HasBit 4 := ⟨12, by decide +kernel, by decide⟩
  have hp : s.host.collaborators.permissions.Extends p InMemory.actingUser :=
    ⟨fun right hright => absurd hright (by cases right <;> decide), hany _, rfl, rfl⟩
  obtain ⟨hhidden, hmore⟩ := accepted_rows_respect_rights hcompiles hm (hany _)
  obtain ⟨g', q', h', hmore⟩ := hmore p hp
  refine ⟨m, o, g, q, hcompiles, hm, haccepts, hbit, ?_, g', q', h', hmore change haccepts⟩
  refine Bool.eq_false_iff.mpr fun hr => ?_
  exact ((hhidden hidden hr).1 rfl).2 (.inl rfl) hbit

end Service

end PageWatch
