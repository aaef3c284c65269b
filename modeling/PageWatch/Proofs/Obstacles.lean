import PageWatch.Proofs.Columns
import PageWatch.Proofs.Hooks

/-! Obstacles: what can stand in the way of compiling a select. -/
namespace PageWatch

open Rank (rank)

/-- A pass over a set fails at its least member that fails. -/
theorem SortedSet.mapM_eq_error_iff {α β ε : Type} [Rank α] {f : α → Except ε β} {s : SortedSet α}
    {e : ε} : s.toList.mapM f = .error e ↔
      ∃ a ∈ s, f a = .error e ∧ ∀ b ∈ s, rank b < rank a → ∃ r, f b = .ok r := by
  rw [Outcome.mapM_eq_error_iff]
  constructor
  · rintro ⟨front, a, back, hs, hfront, ha⟩
    have hsorted := s.ascending
    rw [hs, List.pairwise_append, List.pairwise_cons] at hsorted
    have hmem (b : α) : b ∈ s ↔ b ∈ front ∨ b = a ∨ b ∈ back := by
      rw [← mem_toList, hs, List.mem_append, List.mem_cons]
    refine ⟨a, (hmem a).mpr (.inr (.inl rfl)), ha, fun b hb hlt => ?_⟩
    rcases (hmem b).mp hb with hb | rfl | hb
    · exact hfront b hb
    · exact absurd hlt (Int.lt_irrefl _)
    · have hgt := hsorted.2.1.1 b hb
      omega
  · rintro ⟨a, ha, hfails, hbefore⟩
    obtain ⟨front, back, hs⟩ := List.append_of_mem (mem_toList.mpr ha)
    have hsorted := s.ascending
    rw [hs, List.pairwise_append] at hsorted
    refine ⟨front, a, back, hs, fun b hb => hbefore b ?_ ?_, hfails⟩
    · rw [← mem_toList, hs]
      exact List.mem_append_left _ hb
    · exact hsorted.2.2 b hb a List.mem_cons_self

/-- A contribution has a field of an output name. -/
def JoinContribution.Offers (j : JoinContribution) (name : String) : Prop :=
  ∃ f ∈ j.fields, f.name = name

theorem JoinContribution.field?_eq_none_iff {j : JoinContribution} {name : String} :
    j.field? name = none ↔ ¬ j.Offers name := by
  simp [field?, Offers]

/-- What stands in the way of compiling the select of a feed: the first thing that is amiss, where
the author's name comes before the author's id and both come before the owner of the list. -/
inductive Obstacle (groups : SortedSet FieldGroup) (actor : JoinContribution) (owner : UInt64) :
    ContractError → Prop where
  | authorName (hasked : .user ∈ groups) (hmissing : ¬ actor.Offers "rc_user_text") :
      Obstacle groups actor owner (.missingActorField "rc_user_text")
  | authorId (hname : .user ∈ groups → actor.Offers "rc_user_text") (hasked : .userId ∈ groups)
      (hmissing : ¬ actor.Offers "rc_user") :
      Obstacle groups actor owner (.missingActorField "rc_user")
  | owner (hname : .user ∈ groups → actor.Offers "rc_user_text")
      (hid : .userId ∈ groups → actor.Offers "rc_user")
      (hlarge : 0x8000000000000000 ≤ owner.toNat) :
      Obstacle groups actor owner (.ownerOutOfRange owner)

namespace Obstacle

variable {groups : SortedSet FieldGroup} {actor : JoinContribution} {owner : UInt64}

theorem stage_eq {e : ContractError} (h : Obstacle groups actor owner e) : e.stage = .compiler := by
  cases h <;> rfl

/-- There is an obstacle exactly when something is amiss. -/
theorem exists_iff : (∃ e, Obstacle groups actor owner e) ↔
    .user ∈ groups ∧ ¬ actor.Offers "rc_user_text" ∨
    .userId ∈ groups ∧ ¬ actor.Offers "rc_user" ∨ 0x8000000000000000 ≤ owner.toNat := by
  constructor
  · rintro ⟨_, h⟩
    cases h with
    | authorName hasked hmissing => exact .inl ⟨hasked, hmissing⟩
    | authorId _ hasked hmissing => exact .inr (.inl ⟨hasked, hmissing⟩)
    | owner _ _ hlarge => exact .inr (.inr hlarge)
  · intro h
    by_cases hname : .user ∈ groups → actor.Offers "rc_user_text"
    · by_cases hid : .userId ∈ groups → actor.Offers "rc_user"
      · rcases h with ⟨hasked, hmissing⟩ | ⟨hasked, hmissing⟩ | hlarge
        · exact absurd (hname hasked) hmissing
        · exact absurd (hid hasked) hmissing
        · exact ⟨_, .owner hname hid hlarge⟩
      · obtain ⟨hasked, hmissing⟩ := Classical.not_imp.mp hid
        exact ⟨_, .authorId hname hasked hmissing⟩
    · obtain ⟨hasked, hmissing⟩ := Classical.not_imp.mp hname
      exact ⟨_, .authorName hasked hmissing⟩

end Obstacle

theorem storedOwner_eq_error_iff {id : UInt64} {e : ContractError} :
    storedOwner id = .error e ↔ 0x8000000000000000 ≤ id.toNat ∧ e = .ownerOutOfRange id := by
  unfold storedOwner
  split
  next hlt =>
    simp only [reduceCtorEq, false_iff]
    omega
  next hge =>
    have hlarge : 0x8000000000000000 ≤ id.toNat := by omega
    rw [Except.error.injEq, eq_comm]
    exact (and_iff_right hlarge).symm

namespace FeedOptions

variable {o : FeedOptions} {c : Collaborators} {x : Executor} {config : SelectConfig} {g : Grant}
  {e : ContractError}

theorem actorField_eq_error_iff {name : String} : actorField c name = .error e ↔
    ¬ (c.actors.join "rc_user").Offers name ∧ e = .missingActorField name := by
  rw [← JoinContribution.field?_eq_none_iff, actorField]
  split
  next hf => simp [hf]
  next hf => simp [hf, eq_comm]

/-- Only the two groups on the author of a change can be in want of a field. -/
theorem groupFields_eq_error_iff {group : FieldGroup} : groupFields c group = .error e ↔
    group = .user ∧ ¬ (c.actors.join "rc_user").Offers "rc_user_text" ∧
      e = .missingActorField "rc_user_text" ∨
    group = .userId ∧ ¬ (c.actors.join "rc_user").Offers "rc_user" ∧
      e = .missingActorField "rc_user" := by
  cases group with
  | user => simp [groupFields, Outcome.except_map_eq_error_iff, actorField_eq_error_iff]
  | userId => simp [groupFields, Outcome.except_map_eq_error_iff, actorField_eq_error_iff]
  | _ => simp [groupFields]

theorem exists_groupFields_iff {group : FieldGroup} : (∃ fs, groupFields c group = .ok fs) ↔
    (group = .user → (c.actors.join "rc_user").Offers "rc_user_text") ∧
    (group = .userId → (c.actors.join "rc_user").Offers "rc_user") := by
  rw [Outcome.exists_eq_ok_iff]
  simp only [ne_eq, groupFields_eq_error_iff]
  constructor
  · intro h
    constructor
    · intro hgroup
      by_contra hmissing
      exact h _ (.inl ⟨hgroup, hmissing, rfl⟩)
    · intro hgroup
      by_contra hmissing
      exact h _ (.inr ⟨hgroup, hmissing, rfl⟩)
  · rintro ⟨hname, hid⟩ e (⟨hgroup, hmissing, _⟩ | ⟨hgroup, hmissing, _⟩)
    · exact hmissing (hname hgroup)
    · exact hmissing (hid hgroup)

theorem fields_eq_error_iff : o.fields c = .error e ↔
    .user ∈ o.groups ∧ ¬ (c.actors.join "rc_user").Offers "rc_user_text" ∧
      e = .missingActorField "rc_user_text" ∨
    (.user ∈ o.groups → (c.actors.join "rc_user").Offers "rc_user_text") ∧
      .userId ∈ o.groups ∧ ¬ (c.actors.join "rc_user").Offers "rc_user" ∧
      e = .missingActorField "rc_user" := by
  have hpass : o.fields c = .error e ↔ o.groups.toList.mapM (groupFields c) = .error e := by
    simp [fields, Outcome.except_bind_eq_error_iff, pure, Except.pure]
  rw [hpass, SortedSet.mapM_eq_error_iff]
  simp only [groupFields_eq_error_iff, exists_groupFields_iff]
  -- The group of the name ranks before that of the id, so a missing name is met first.
  constructor
  · rintro ⟨group, hgroup, ⟨rfl, hmissing, rfl⟩ | ⟨rfl, hmissing, rfl⟩, hbefore⟩
    · exact .inl ⟨hgroup, hmissing, rfl⟩
    · refine .inr ⟨fun huser => (hbefore .user huser ?_).1 rfl, hgroup, hmissing, rfl⟩
      decide
  · rintro (⟨hgroup, hmissing, rfl⟩ | ⟨hname, hgroup, hmissing, rfl⟩)
    · refine ⟨.user, hgroup, .inl ⟨rfl, hmissing, rfl⟩, fun b _ hlt => ?_⟩
      cases b with
      | flags => simp
      | _ => exact absurd hlt (by decide)
    · refine ⟨.userId, hgroup, .inr ⟨rfl, hmissing, rfl⟩, fun b hb hlt => ?_⟩
      cases b with
      | flags => simp
      | user => exact ⟨fun _ => hname hb, by simp⟩
      | _ => exact absurd hlt (by decide)

theorem exists_fields_iff : (∃ fields, o.fields c = .ok fields) ↔
    (.user ∈ o.groups → (c.actors.join "rc_user").Offers "rc_user_text") ∧
    (.userId ∈ o.groups → (c.actors.join "rc_user").Offers "rc_user") := by
  have hpass : (∃ fields, o.fields c = .ok fields) ↔
      ∃ groups, o.groups.toList.mapM (groupFields c) = .ok groups := by
    simp [fields, Outcome.except_bind_eq_ok_iff, pure, Except.pure]
  rw [hpass, Outcome.exists_mapM_eq_ok_iff]
  simp only [exists_groupFields_iff, SortedSet.mem_toList]
  constructor
  · intro h
    exact ⟨fun hgroup => (h .user hgroup).1 rfl, fun hgroup => (h .userId hgroup).2 rfl⟩
  · rintro ⟨hname, hid⟩ group hgroup
    exact ⟨fun hg => hname (hg ▸ hgroup), fun hg => hid (hg ▸ hgroup)⟩

/-- The select of a feed cannot be compiled exactly where there is an obstacle. -/
theorem select_eq_error_iff : o.select c x config g = .error e ↔
    Obstacle o.groups (c.actors.join "rc_user") g.ownerId e := by
  have hstages : o.select c x config g = .error e ↔ o.fields c = .error e ∨
      (∃ fields, o.fields c = .ok fields) ∧ storedOwner g.ownerId = .error e := by
    simp [select, Outcome.except_bind_eq_error_iff, pure, Except.pure]
  rw [hstages, fields_eq_error_iff, exists_fields_iff, storedOwner_eq_error_iff]
  constructor
  · rintro ((⟨hasked, hmissing, rfl⟩ | ⟨hname, hasked, hmissing, rfl⟩) |
      ⟨⟨hname, hid⟩, hlarge, rfl⟩)
    · exact .authorName hasked hmissing
    · exact .authorId hname hasked hmissing
    · exact .owner hname hid hlarge
  · intro h
    cases h with
    | authorName hasked hmissing => exact .inl (.inl ⟨hasked, hmissing, rfl⟩)
    | authorId hname hasked hmissing => exact .inl (.inr ⟨hname, hasked, hmissing, rfl⟩)
    | owner hname hid hlarge => exact .inr ⟨⟨hname, hid⟩, hlarge, rfl⟩

theorem result_compile_eq_error_iff : (o.compile c x config g).result = .error e ↔
    Obstacle o.groups (c.actors.join "rc_user") g.ownerId e := by
  rw [result_compile, select_eq_error_iff]

/-- Compiling calls no hook. -/
theorem compile_calls_no_hook (o : FeedOptions) (c : Collaborators) (x : Executor)
    (config : SelectConfig) (g : Grant) :
    (o.compile c x config g).Within fun e => !e.isHook :=
  Outcome.within_rendered _ _ rfl fun _ => rfl

end FeedOptions

/-- A listing cannot be compiled exactly where the owner's id is too large. -/
theorem WatchlistOptions.result_compile_eq_error_iff {o : WatchlistOptions} {x : Executor}
    {config : SelectConfig} {id : UInt64} {e : ContractError} :
    (o.compile x config id).result = .error e ↔
      0x8000000000000000 ≤ id.toNat ∧ e = .ownerOutOfRange id := by
  rw [result_compile, ← storedOwner_eq_error_iff]
  simp [select, Outcome.except_bind_eq_error_iff, pure, Except.pure]

namespace Outcome

variable {ε α β : Type}

/-- What a chain does begins with what its first part does. -/
theorem exists_effects_bind (x : Outcome ε α) (f : α → Outcome ε β) :
    ∃ rest, (x >>= f).effects = x.effects ++ rest := by
  cases h : x.result with
  | ok a => exact ⟨_, congrArg effects (bind_of_ok h f)⟩
  | error e => exact ⟨[], by rw [bind_of_error h, List.append_nil]⟩

end Outcome

namespace Service

open Extension

variable {s : Service} {user : User} {request : FeedRequest} {cursor : Option (List Scalar)}
  {o : FeedOptions} {g : Grant} {x : Executor} {q : SelectQuery}

/-- A call that compiles its select runs the hooks before it, and no hook was called by then. -/
theorem Compiles.effects_changes (h : s.Compiles user request cursor o g x q) :
    ∃ done rest, (∀ e ∈ done, e.isHook = false) ∧ (s.changes user request cursor).effects
      = done ++ (beforeAll ⟨user, o, x⟩ s.extensions q).effects ++ rest := by
  have := Outcome.lawful (ε := CallError)
  -- Checking writes to the log at most, and compiling renders and logs, before a hook is called.
  let k := s.feedCall user request cursor
  let compiled := (o.compile s.host.collaborators x s.config g).mapError CallError.contract
  have hcompiled : compiled.result = .ok q := by
    rw [Outcome.result_mapError_eq_ok_iff, o.result_compile]
    exact h.compiled
  have hcheck : k.check.result = .ok (o, g) :=
    check_feedCall_eq_ok_iff.mpr ⟨h.validated, h.decided⟩
  obtain ⟨rest, hrest⟩ := Outcome.exists_effects_bind (beforeAll ⟨user, o, x⟩ s.extensions q)
    fun q' => x.run q' >>= k.finish (o, g) x
  refine ⟨k.check.effects ++ .replica :: compiled.effects, rest, ?_, ?_⟩
  · intro e he
    rcases List.mem_append.mp he with he | he
    · have hlog := k.check_within e he
      cases e <;> simp_all [Effect.isChecking, Effect.isHook]
    · rcases List.mem_cons.mp he with rfl | he
      · rfl
      · simpa using o.compile_calls_no_hook s.host.collaborators x s.config g e he
  · have hprepare : k.prepare (o, g) x = compiled >>= beforeAll ⟨user, o, x⟩ s.extensions := rfl
    rw [changes_eq_run, Call.run_of_replica hcheck h.replica, hprepare, bind_assoc,
      Outcome.bind_of_ok hcompiled, hrest]
    simp

/-- Compiling the select of a feed fails at an obstacle and nowhere else: where the author's name or
id is asked for and the actor store has no field for it, or where the owner's id is too large, the
first of these being told. Nothing else that was asked for, granted, configured or supplied plays a
part, so a call with a replica and with both fields, for an owner in range, comes as far as the
hooks before the select. A listing fails where the owner's id is too large. -/
theorem compiling_fails_at_obstacles (s : Service) (user : User) :
    (∀ (o : FeedOptions) c x config g e, (o.compile c x config g).result = .error e ↔
      Obstacle o.groups (c.actors.join "rc_user") g.ownerId e) ∧
    (∀ (o : FeedOptions) c x config g, (∃ e, (o.compile c x config g).result = .error e) ↔
      .user ∈ o.groups ∧ ¬ (c.actors.join "rc_user").Offers "rc_user_text" ∨
      .userId ∈ o.groups ∧ ¬ (c.actors.join "rc_user").Offers "rc_user" ∨
      0x8000000000000000 ≤ g.ownerId.toNat) ∧
    (∀ (o : FeedOptions) c x config g e, (o.compile c x config g).result = .error e →
      e.stage = .compiler) ∧
    (∀ (o : WatchlistOptions) x config id e, (o.compile x config id).result = .error e ↔
      0x8000000000000000 ≤ id.toNat ∧ e = .ownerOutOfRange id) ∧
    (∀ (o : WatchlistOptions) x config id e, (o.compile x config id).result = .error e →
      e.stage = .compiler) ∧
    (∀ (o o' : FeedOptions) c c' x x' config config' g g', o'.groups = o.groups →
      c'.actors.join "rc_user" = c.actors.join "rc_user" → g'.ownerId = g.ownerId →
      ∀ e, (o'.compile c' x' config' g').result = .error e ↔
        (o.compile c x config g).result = .error e) ∧
    ∀ request cursor o g x, request.validate user cursor = .ok o →
      (Access.decide s.host.collaborators user o).result = .ok g → s.host.replica = .ok x →
      (s.host.collaborators.actors.join "rc_user").Offers "rc_user_text" →
      (s.host.collaborators.actors.join "rc_user").Offers "rc_user" →
      g.ownerId.toNat < 0x8000000000000000 →
      ∃ q, s.Compiles user request cursor o g x q ∧
        ∃ done rest, (∀ e ∈ done, e.isHook = false) ∧ (s.changes user request cursor).effects
          = done ++ (beforeAll ⟨user, o, x⟩ s.extensions q).effects ++ rest := by
  refine ⟨fun _ _ _ _ _ _ => FeedOptions.result_compile_eq_error_iff, ?_, ?_,
    fun _ _ _ _ _ => WatchlistOptions.result_compile_eq_error_iff, ?_, ?_, ?_⟩
  · intro o c x config g
    simp only [FeedOptions.result_compile_eq_error_iff]
    exact Obstacle.exists_iff
  · intro o c x config g e h
    exact (FeedOptions.result_compile_eq_error_iff.mp h).stage_eq
  · intro o x config id e h
    obtain ⟨_, rfl⟩ := WatchlistOptions.result_compile_eq_error_iff.mp h
    rfl
  · intro o o' c c' x x' config config' g g' hgroups hactor howner e
    rw [FeedOptions.result_compile_eq_error_iff, FeedOptions.result_compile_eq_error_iff, hgroups,
      hactor, howner]
  · intro request cursor o g x hvalidated hdecided hreplica hname hid hsmall
    have hselect : ∃ q, o.select s.host.collaborators x s.config g = .ok q := by
      refine Outcome.exists_eq_ok_iff.mpr fun e he => ?_
      rcases Obstacle.exists_iff.mp ⟨e, FeedOptions.select_eq_error_iff.mp he⟩ with
        ⟨_, hmissing⟩ | ⟨_, hmissing⟩ | hlarge
      · exact hmissing hname
      · exact hmissing hid
      · omega
    obtain ⟨q, hq⟩ := hselect
    have hcompiles : s.Compiles user request cursor o g x q :=
      ⟨hvalidated, hdecided, hreplica, hq⟩
    exact ⟨q, hcompiles, hcompiles.effects_changes⟩

/-- An actor store without fields, asked for ids and names of authors on behalf of an owner with too
large an id: the name is what is told to be missing. With the fields of the store in memory, the
same request comes as far as its hook. -/
theorem compiling_fails_at_obstacles_fieldless_actors :
    let fieldless : Collaborators :=
      { InMemory.collaborators {} with actors := { InMemory.actors with join := fun _ => {} } }
    let o : FeedOptions :=
      { groups := .ofList [.userId, .user], scope := .own InMemory.actingUser }
    let audit : Extension := { name := "audit" }
    let s : Service := ⟨InMemory.host {}, {}, [audit]⟩
    let request : FeedRequest := { groups := [.userId, .user] }
    (∀ x config, (o.compile fieldless x config ⟨UInt64.ofNat 0xFFFFFFFFFFFFFFFF, .base, ∅⟩).result
      = .error (.missingActorField "rc_user_text")) ∧
    .beforeHook "audit" ∈ (s.changes InMemory.actingUser request none).effects := by
  intro fieldless o audit s request
  obtain ⟨hfails, _, _, _, _, _, hreaches⟩ := compiling_fails_at_obstacles s InMemory.actingUser
  constructor
  · intro x config
    refine (hfails o fieldless x config _ _).mpr (.authorName ?_ ?_)
    · exact SortedSet.mem_ofList.mpr (by decide)
    · rintro ⟨f, hf, _⟩
      cases hf
  · have hrun : ((request.validate InMemory.actingUser none).toOption.bind fun o =>
        (Access.decide (InMemory.collaborators {}) InMemory.actingUser o).result.toOption.map
          fun g => g.ownerId) = some 1 := by
      decide +kernel
    obtain ⟨o', ho, hrun⟩ := Option.bind_eq_some_iff.mp hrun
    obtain ⟨g, hg, howner⟩ := Option.map_eq_some_iff.mp hrun
    have hfield (name : String) (h : name ∈ ["rc_user_text", "rc_user"]) :
        ((InMemory.collaborators {}).actors.join "rc_user").Offers name := by
      rcases List.mem_pair.mp h with rfl | rfl
      · exact ⟨_, .tail _ (.head _), rfl⟩
      · exact ⟨_, .head _, rfl⟩
    obtain ⟨q, _, done, rest, _, heffects⟩ := hreaches request none o' g (InMemory.executor {})
      (Outcome.toOption_eq_some_iff.mp ho) (Outcome.toOption_eq_some_iff.mp hg) rfl
      (hfield _ (by simp)) (hfield _ (by simp)) (by rw [howner]; decide)
    rw [heffects]
    exact List.mem_append_left _ (List.mem_append_right _ (.head _))

end Service

end PageWatch
