import PageWatch.Proofs.Failures

/-! The course of a call: what it does outside, up to where it ends. -/
namespace PageWatch

namespace Effect

/-- What is done while a request is checked. -/
def isChecking : Effect → Bool
  | log _ => true
  | _ => false

/-- What is done while a select is prepared. -/
def isPreparing : Effect → Bool
  | render | beforeHook _ | log _ => true
  | _ => false

/-- What is done once rows have been fetched. -/
def isFinishing : Effect → Bool
  | afterHook _ | log _ => true
  | _ => false

end Effect

namespace Outcome

section Chains

variable {ε α β γ : Type}

/-- Chains can be regrouped: what is done, and in which order, does not change. -/
theorem bind_of_bind (x : Outcome ε α) (f : α → Outcome ε β) (g : β → Outcome ε γ) :
    x >>= f >>= g = x >>= fun a => f a >>= g := by
  cases h : x.result with
  | error e => rw [bind_of_error h, bind_of_error h, bind_of_error rfl]
  | ok a =>
    rw [bind_of_ok h, bind_of_ok h]
    cases hf : (f a).result with
    | error e => rw [bind_of_error hf, bind_of_error rfl]
    | ok b =>
      rw [bind_of_ok hf, bind_of_ok (a := b) rfl]
      simp

/-- The laws of chains. They are not an instance: elsewhere chains are opened step by step. -/
theorem lawful : LawfulMonad (Outcome ε) := LawfulMonad.mk' _
  (fun x => by
    show bind x _ = x
    obtain ⟨effects, _ | a⟩ := x <;> simp [bind])
  (fun _ _ => rfl)
  bind_of_bind

end Chains

section Views

variable {ε ε' α β : Type} {x : Outcome ε α} {p : Effect → Bool}

/-- Nothing but what is allowed is done. -/
def Within (p : Effect → Bool) (x : Outcome ε α) : Prop := ∀ e ∈ x.effects, p e = true

theorem Within.bind {f : α → Outcome ε β} (hx : x.Within p)
    (hf : ∀ a, x.result = .ok a → (f a).Within p) : (x >>= f).Within p := by
  intro e he
  rcases mem_effects_bind.mp he with he | ⟨a, ha, he⟩
  · exact hx e he
  · exact hf a ha e he

theorem Within.foldlM {f : β → α → Outcome ε β} (h : ∀ b a, (f b a).Within p) (as : List α)
    (b : β) : (as.foldlM f b).Within p := by
  intro e he
  cases hp : p e with
  | true => rfl
  | false =>
    have hstep (b : β) (a : α) : e ∉ (f b a).effects := fun he => by simp [h b a e he] at hp
    exact absurd he (not_mem_effects_foldlM hstep as b)

theorem Within.mapError {f : ε → ε'} (h : x.Within p) : (x.mapError f).Within p := h

theorem within_nil {r : Except ε α} : (⟨[], r⟩ : Outcome ε α).Within p := nofun

theorem within_singleton {e : Effect} {r : Except ε α} (h : p e = true) :
    (⟨[e], r⟩ : Outcome ε α).Within p := by
  intro e' he'
  rwa [List.mem_singleton.mp he']

theorem Within.replicas_eq_zero (h : x.Within p) (hp : p .replica = false) : x.replicas = 0 := by
  unfold replicas
  rw [List.countP_eq_zero]
  intro e he
  cases e with
  | replica => rw [h _ he] at hp; cases hp
  | _ => simp

theorem Within.selects_eq_nil (h : x.Within p) (hp : ∀ q, p (.select q) = false) :
    x.selects = [] := by
  refine List.eq_nil_iff_forall_not_mem.mpr fun q hq => ?_
  have hq := h _ (mem_selects.mp hq)
  rw [hp] at hq
  cases hq

theorem Within.not_afterHook (h : x.Within p) (hp : ∀ name, p (.afterHook name) = false)
    (name : String) : .afterHook name ∉ x.effects := by
  intro hmem
  have hq := h _ hmem
  rw [hp] at hq
  cases hq

theorem Within.touchesExecutor_eq_false (h : x.Within Effect.isChecking) :
    x.touchesExecutor = false := by
  unfold touchesExecutor
  rw [List.any_eq_false]
  intro e he
  have hlog := h e he
  cases e <;> simp_all [Effect.isChecking, Effect.touchesExecutor]

end Views

end Outcome

/-- A call in three parts, around the one replica that it asks for and the one select that it
runs. -/
structure Call (ω α : Type) where
  check : Outcome CallError ω
  prepare : ω → Executor → Outcome CallError SelectQuery
  finish : ω → Executor → List Row → Outcome CallError α
  check_within : check.Within Effect.isChecking
  check_fails : ∀ e, check.result = .error e → e.isRefusal = true
  prepare_within : ∀ o x, (prepare o x).Within Effect.isPreparing
  prepare_fails : ∀ o x e, (prepare o x).result = .error e → e.isFailureOf .compiler = true
  finish_within : ∀ o x rows, (finish o x rows).Within Effect.isFinishing
  finish_fails : ∀ o x rows e, (finish o x rows).result = .error e → e.isFailureOf .mapper = true

namespace Call

variable {ω α : Type} {k : Call ω α} {s : Service} {out : Outcome CallError α}

def run (k : Call ω α) (s : Service) : Outcome CallError α := do
  let o ← k.check
  let executor ← s.replica
  let query ← k.prepare o executor
  let rows ← executor.run query
  k.finish o executor rows

/-- Preparing the select is reached with a replica, and ends so. -/
def Prepares (k : Call ω α) (s : Service) (x : Executor) (r : Except CallError SelectQuery) :
    Prop :=
  ∃ o, k.check.result = .ok o ∧ s.host.replica = .ok x ∧ (k.prepare o x).result = r

/-- How a call can end, and what it has done by then. -/
inductive Ends (k : Call ω α) (s : Service) : Outcome CallError α → Prop where
  | refused {e : CallError} (hcheck : k.check.result = .error e) :
      Ends k s ⟨k.check.effects, .error e⟩
  | unavailable {o : ω} {e : ExecutorError} (hcheck : k.check.result = .ok o)
      (hreplica : s.host.replica = .error e) :
      Ends k s ⟨k.check.effects ++ [.replica], .error (.execution e)⟩
  | unprepared {o : ω} {x : Executor} {e : CallError} (hcheck : k.check.result = .ok o)
      (hreplica : s.host.replica = .ok x) (hprepare : (k.prepare o x).result = .error e) :
      Ends k s ⟨k.check.effects ++ .replica :: (k.prepare o x).effects, .error e⟩
  | unanswered {o : ω} {x : Executor} {q : SelectQuery} {e : ExecutorError}
      (hcheck : k.check.result = .ok o) (hreplica : s.host.replica = .ok x)
      (hprepare : (k.prepare o x).result = .ok q) (hselect : x.select q = .error e) :
      Ends k s ⟨k.check.effects ++ .replica :: (k.prepare o x).effects ++ [.select q],
        .error (.execution e)⟩
  | answered {o : ω} {x : Executor} {q : SelectQuery} {rows : List Row}
      (hcheck : k.check.result = .ok o) (hreplica : s.host.replica = .ok x)
      (hprepare : (k.prepare o x).result = .ok q) (hselect : x.select q = .ok rows) :
      Ends k s ⟨k.check.effects ++ .replica :: (k.prepare o x).effects
        ++ .select q :: (k.finish o x rows).effects, (k.finish o x rows).result⟩

theorem run_of_replica {o : ω} {x : Executor} (hcheck : k.check.result = .ok o)
    (hreplica : s.host.replica = .ok x) :
    k.run s = ⟨k.check.effects ++ .replica :: (k.prepare o x >>= fun q =>
      x.run q >>= k.finish o x).effects, (k.prepare o x >>= fun q =>
      x.run q >>= k.finish o x).result⟩ := by
  have hasked : s.replica.result = .ok x := by
    rw [Service.replica, hreplica]
    rfl
  unfold run
  rw [Outcome.bind_of_ok hcheck, Outcome.bind_of_ok hasked]
  rfl

theorem Ends.run_eq (h : k.Ends s out) : k.run s = out := by
  cases h with
  | refused hcheck => rw [run, Outcome.bind_of_error hcheck]
  | @unavailable o e hcheck hreplica =>
    have hasked : s.replica.result = .error (.execution e) := by
      rw [Service.replica, hreplica]
      rfl
    rw [run, Outcome.bind_of_ok hcheck, Outcome.bind_of_error hasked]
    rfl
  | unprepared hcheck hreplica hprepare =>
    rw [run_of_replica hcheck hreplica, Outcome.bind_of_error hprepare]
  | @unanswered o x q e hcheck hreplica hprepare hselect =>
    have hrun : (x.run q).result = .error (.execution e) := by
      rw [Executor.run, hselect]
      rfl
    rw [run_of_replica hcheck hreplica, Outcome.bind_of_ok hprepare, Outcome.bind_of_error hrun]
    simp [Executor.run]
  | @answered o x q rows hcheck hreplica hprepare hselect =>
    have hrun : (x.run q).result = .ok rows := by
      rw [Executor.run, hselect]
      rfl
    rw [run_of_replica hcheck hreplica, Outcome.bind_of_ok hprepare, Outcome.bind_of_ok hrun]
    simp [Executor.run]

/-- Every call ends in one of these ways. -/
theorem ends_run (k : Call ω α) (s : Service) : k.Ends s (k.run s) := by
  suffices h : ∃ out, k.Ends s out by
    obtain ⟨out, h⟩ := h
    rwa [h.run_eq]
  cases hcheck : k.check.result with
  | error e => exact ⟨_, .refused hcheck⟩
  | ok o =>
    cases hreplica : s.host.replica with
    | error e => exact ⟨_, .unavailable hcheck hreplica⟩
    | ok x =>
      cases hprepare : (k.prepare o x).result with
      | error e => exact ⟨_, .unprepared hcheck hreplica hprepare⟩
      | ok q =>
        cases hselect : x.select q with
        | error e => exact ⟨_, .unanswered hcheck hreplica hprepare hselect⟩
        | ok rows => exact ⟨_, .answered hcheck hreplica hprepare hselect⟩

end Call

/-- A call has asked for its replica and stopped before the select. -/
structure Outcome.StopsEarly {α : Type} (out : Outcome CallError α) : Prop where
  replicas : out.replicas = 1
  selects : out.selects = []
  hooks : ∀ name, .afterHook name ∉ out.effects

/-- A call has asked for its replica and run its select. -/
structure Outcome.Selects {α : Type} (out : Outcome CallError α) (q : SelectQuery) : Prop where
  replicas : out.replicas = 1
  selects : out.selects = [q]

theorem Outcome.StopsEarly.at_most_once {α : Type} {out : Outcome CallError α}
    (h : out.StopsEarly) : out.replicas ≤ 1 ∧ out.selects.length ≤ 1 := by
  simp [h.replicas, h.selects]

theorem Outcome.Selects.at_most_once {α : Type} {out : Outcome CallError α} {q : SelectQuery}
    (h : out.Selects q) : out.replicas ≤ 1 ∧ out.selects.length ≤ 1 := by
  simp [h.replicas, h.selects]

/-- What a call did outside goes by how it ended. A host gave it a replica or none, and with one,
preparing the select ended in a failure or in the select to run. -/
structure Outcome.Accounted {α : Type} (out : Outcome CallError α)
    (replica : Except ExecutorError Executor)
    (prepares : Executor → Except CallError SelectQuery → Prop) : Prop where
  replicas_le : out.replicas ≤ 1
  selects_le : out.selects.length ≤ 1
  invalid : ∀ e, out.result = .error (.validation e) →
    out.replicas = 0 ∧ out.touchesExecutor = false
  unauthorized : ∀ e, out.result = .error (.authorization e) →
    out.replicas = 0 ∧ out.touchesExecutor = false
  unavailable : ∀ e, replica = .error e → out.selects = []
  uncompiled : ∀ c, out.result = .error (.contract c) → c.stage = .compiler → out.StopsEarly
  unprepared : ∀ x e, prepares x (.error e) → out.result = .error e ∧ out.StopsEarly
  unanswered : ∀ x q e, prepares x (.ok q) → x.select q = .error e →
    out.result = .error (.execution e) ∧ out.Selects q ∧
      out.effects.getLast? = some (.select q)
  answered : ∀ x q rows, prepares x (.ok q) → x.select q = .ok rows → out.Selects q
  unmapped : ∀ c, out.result = .error (.contract c) → c.stage = .mapper →
    ∃ x q, prepares x (.ok q) ∧ out.Selects q
  hooked : ∀ name cause, out.result = .error (.extension name cause) →
    (∃ x, prepares x (.error (.extension name cause))) ∨
      ∃ x q, prepares x (.ok q) ∧ out.Selects q
  completed : ∀ a, out.result = .ok a → ∃ x q, prepares x (.ok q) ∧ out.Selects q

namespace Call

variable {ω α : Type} {k : Call ω α} {s : Service} {out : Outcome CallError α}

theorem stopsEarly_of_prepare (k : Call ω α) (o : ω) (x : Executor) (r : Except CallError α) :
    (⟨k.check.effects ++ .replica :: (k.prepare o x).effects, r⟩ :
      Outcome CallError α).StopsEarly where
  replicas := by
    have hcheck := k.check_within.replicas_eq_zero rfl
    have hprepare := (k.prepare_within o x).replicas_eq_zero rfl
    simp only [Outcome.replicas] at hcheck hprepare ⊢
    rw [List.countP_append, List.countP_cons, hcheck, hprepare]
    simp
  selects := by
    have hcheck := k.check_within.selects_eq_nil fun _ => rfl
    have hprepare := (k.prepare_within o x).selects_eq_nil fun _ => rfl
    simp only [Outcome.selects] at hcheck hprepare ⊢
    rw [List.filterMap_append, hcheck, List.filterMap_cons, hprepare]
    rfl
  hooks name := by
    have hcheck := k.check_within.not_afterHook (fun _ => rfl) name
    have hprepare := (k.prepare_within o x).not_afterHook (fun _ => rfl) name
    simp [hcheck, hprepare]

theorem selects_of_prepare (k : Call ω α) (o : ω) (x : Executor) (q : SelectQuery)
    (r : Except CallError α) {β : Type} {y : Outcome CallError β}
    (hy : y.Within Effect.isFinishing) :
    (⟨k.check.effects ++ .replica :: (k.prepare o x).effects ++ .select q :: y.effects, r⟩ :
      Outcome CallError α).Selects q where
  replicas := by
    have hearly := (k.stopsEarly_of_prepare o x r).replicas
    have hlate := hy.replicas_eq_zero rfl
    simp only [Outcome.replicas] at hearly hlate ⊢
    rw [List.countP_append, hearly, List.countP_cons, hlate]
    simp
  selects := by
    have hearly := (k.stopsEarly_of_prepare o x r).selects
    have hlate := hy.selects_eq_nil fun _ => rfl
    simp only [Outcome.selects] at hearly hlate ⊢
    rw [List.filterMap_append, hearly, List.filterMap_cons, hlate]
    rfl

/-- A call that was refused has done nothing but check. -/
theorem Ends.eq_of_refusal (h : k.Ends s out) {e : CallError} (hout : out.result = .error e)
    (he : e.isRefusal = true) :
    k.check.result = .error e ∧ out = ⟨k.check.effects, .error e⟩ := by
  cases h with
  | refused hcheck => cases hout; exact ⟨hcheck, rfl⟩
  | unavailable => cases hout; cases he
  | unprepared _ _ hprepare =>
    -- What fails from here on is a hook or a contract, and neither refuses a request.
    cases hout
    have := k.prepare_fails _ _ _ hprepare
    cases e <;> simp_all [CallError.isRefusal, CallError.isFailureOf]
  | unanswered => cases hout; cases he
  | answered =>
    have := k.finish_fails _ _ _ _ hout
    cases e <;> simp_all [CallError.isRefusal, CallError.isFailureOf]

theorem Ends.of_refusal (h : k.Ends s out) {e : CallError} (hout : out.result = .error e)
    (he : e.isRefusal = true) : out.replicas = 0 ∧ out.touchesExecutor = false := by
  obtain ⟨_, rfl⟩ := h.eq_of_refusal hout he
  exact ⟨k.check_within.replicas_eq_zero rfl, k.check_within.touchesExecutor_eq_false⟩

/-- Without a replica nothing is selected. -/
theorem Ends.of_unavailable (h : k.Ends s out) {e : ExecutorError}
    (hreplica : s.host.replica = .error e) : out.selects = [] := by
  have hcheck := k.check_within.selects_eq_nil fun _ => rfl
  cases h with
  | refused => exact hcheck
  | unavailable =>
    simp only [Outcome.selects] at hcheck ⊢
    rw [List.filterMap_append, hcheck]
    rfl
  | unprepared _ hx => rw [hreplica] at hx; cases hx
  | unanswered _ hx => rw [hreplica] at hx; cases hx
  | answered _ hx => rw [hreplica] at hx; cases hx

/-- A contract found broken by the compiler has stopped the call before its select. -/
theorem Ends.of_uncompiled (h : k.Ends s out) {c : ContractError}
    (hout : out.result = .error (.contract c)) (hc : c.stage = .compiler) : out.StopsEarly := by
  cases h with
  | refused hcheck => cases hout; cases k.check_fails _ hcheck
  | unavailable => cases hout
  | unprepared => exact k.stopsEarly_of_prepare _ _ _
  | unanswered => cases hout
  | answered =>
    have := k.finish_fails _ _ _ _ hout
    simp [CallError.isFailureOf, hc] at this

/-- A contract found broken by the mapper, like an answer, comes after the select. -/
theorem Ends.of_mapped (h : k.Ends s out)
    (hout : (∃ a, out.result = .ok a) ∨
      ∃ c, out.result = .error (.contract c) ∧ c.stage = .mapper) :
    ∃ x q, k.Prepares s x (.ok q) ∧ out.Selects q := by
  cases h with
  | refused hcheck =>
    rcases hout with ⟨_, hout⟩ | ⟨c, hout, _⟩ <;> cases hout
    cases k.check_fails _ hcheck
  | unavailable => rcases hout with ⟨_, hout⟩ | ⟨c, hout, _⟩ <;> cases hout
  | unprepared _ _ hprepare =>
    rcases hout with ⟨_, hout⟩ | ⟨c, hout, hc⟩ <;> cases hout
    have := k.prepare_fails _ _ _ hprepare
    simp [CallError.isFailureOf, hc] at this
  | unanswered => rcases hout with ⟨_, hout⟩ | ⟨c, hout, _⟩ <;> cases hout
  | answered hcheck hreplica hprepare _ =>
    exact ⟨_, _, ⟨_, hcheck, hreplica, hprepare⟩,
      k.selects_of_prepare _ _ _ _ (k.finish_within _ _ _)⟩

/-- A hook fails before the select, or after it. -/
theorem Ends.of_extension (h : k.Ends s out) {name cause : String}
    (hout : out.result = .error (.extension name cause)) :
    (∃ x, k.Prepares s x (.error (.extension name cause))) ∨
      ∃ x q, k.Prepares s x (.ok q) ∧ out.Selects q := by
  cases h with
  | refused hcheck => cases hout; cases k.check_fails _ hcheck
  | unavailable => cases hout
  | unprepared hcheck hreplica hprepare =>
    cases hout
    exact .inl ⟨_, _, hcheck, hreplica, hprepare⟩
  | unanswered => cases hout
  | answered hcheck hreplica hprepare _ =>
    exact .inr ⟨_, _, ⟨_, hcheck, hreplica, hprepare⟩,
      k.selects_of_prepare _ _ _ _ (k.finish_within _ _ _)⟩

/-- No call asks for a second replica or runs a second select. -/
theorem Ends.at_most_once (h : k.Ends s out) : out.replicas ≤ 1 ∧ out.selects.length ≤ 1 := by
  have hreplicas := k.check_within.replicas_eq_zero rfl
  have hselects := k.check_within.selects_eq_nil fun _ => rfl
  simp only [Outcome.replicas, Outcome.selects] at hreplicas hselects
  cases h with
  | refused => simp [Outcome.replicas, Outcome.selects, hreplicas, hselects]
  | unavailable =>
    simp only [Outcome.replicas, Outcome.selects]
    rw [List.countP_append, List.filterMap_append, hreplicas, hselects]
    exact ⟨by simp, Nat.zero_le 1⟩
  | unprepared => exact (k.stopsEarly_of_prepare _ _ _).at_most_once
  | unanswered =>
    exact (k.selects_of_prepare (y := pure ()) _ _ _ _ Outcome.within_nil).at_most_once
  | answered => exact (k.selects_of_prepare _ _ _ _ (k.finish_within _ _ _)).at_most_once

theorem accounted (k : Call ω α) (s : Service) :
    (k.run s).Accounted s.host.replica (k.Prepares s) where
  replicas_le := (k.ends_run s).at_most_once.1
  selects_le := (k.ends_run s).at_most_once.2
  invalid _ hout := (k.ends_run s).of_refusal hout rfl
  unauthorized _ hout := (k.ends_run s).of_refusal hout rfl
  unavailable _ hreplica := (k.ends_run s).of_unavailable hreplica
  uncompiled _ hout hc := (k.ends_run s).of_uncompiled hout hc
  unprepared := by
    rintro x e ⟨o, hcheck, hreplica, hprepare⟩
    rw [(Ends.unprepared hcheck hreplica hprepare).run_eq]
    exact ⟨rfl, k.stopsEarly_of_prepare o x _⟩
  unanswered := by
    rintro x q e ⟨o, hcheck, hreplica, hprepare⟩ hselect
    rw [(Ends.unanswered hcheck hreplica hprepare hselect).run_eq]
    exact ⟨rfl, k.selects_of_prepare (y := pure ()) o x q _ Outcome.within_nil,
      List.getLast?_concat⟩
  answered := by
    rintro x q rows ⟨o, hcheck, hreplica, hprepare⟩ hselect
    rw [(Ends.answered hcheck hreplica hprepare hselect).run_eq]
    exact k.selects_of_prepare o x q _ (k.finish_within o x rows)
  unmapped c hout hc := (k.ends_run s).of_mapped (.inr ⟨c, hout, hc⟩)
  hooked _ _ hout := (k.ends_run s).of_extension hout
  completed a hout := (k.ends_run s).of_mapped (.inl ⟨a, hout⟩)

end Call

end PageWatch
