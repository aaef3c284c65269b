import PageWatch.Change
import PageWatch.Cursor
import PageWatch.Select

/-! Outcomes: what a call answers together with everything it did outside, in order. -/
namespace PageWatch

inductive LogLevel where
  | debug
  | warn
  deriving DecidableEq

def LogLevel.name : LogLevel → String
  | debug => "DEBUG"
  | warn => "WARN"

/-- Something that a call notes in the log. No event carries a token. -/
inductive LogEvent where
  | tokenRejected (owner : UInt64)
  | filterDropped (filter : ChangeFilter)
  | feedCompiled (tables fields conditions joins : Nat) (limit : Option UInt32)
  | watchlistCompiled (conditions : Nat) (limit : Option UInt32)
  | rowsFetched (rows : Nat)
  | feedContinues (cursor : Cursor)
  | noWatchlist
  deriving DecidableEq

namespace LogEvent

def level : LogEvent → LogLevel
  | tokenRejected _ => .warn
  | _ => .debug

def message : LogEvent → String
  | tokenRejected _ => "rejected watchlist token"
  | filterDropped _ => "dropping patrol filter without patrol rights"
  | feedCompiled .. => "compiled change feed query"
  | watchlistCompiled .. => "compiled watchlist query"
  | rowsFetched _ => "change feed rows fetched"
  | feedContinues _ => "change feed continues"
  | noWatchlist => "anonymous user has no watchlist"

/-- A limit as logs and contexts show it. -/
def limitText : Option UInt32 → String
  | some limit => s!"Some({limit.toNat})"
  | none => "None"

/-- The named details of an event. -/
def details : LogEvent → List (String × Document)
  | tokenRejected owner => [("owner", .int owner.toNat)]
  | filterDropped filter => [("filter", .text filter.tag)]
  | feedCompiled tables fields conditions joins limit => [
      ("tables", .int tables),
      ("fields", .int fields),
      ("conditions", .int conditions),
      ("joins", .int joins),
      ("limit", .text (limitText limit))]
  | watchlistCompiled conditions limit => [
      ("conditions", .int conditions),
      ("limit", .text (limitText limit))]
  | rowsFetched rows => [("rows", .int rows)]
  | feedContinues cursor => [
      ("timestamp", .text cursor.timestamp),
      ("change_id", .int cursor.changeId.toInt)]
  | noWatchlist => []

end LogEvent

/-- Something that a call does outside: asking for a replica, handing the terms of a select to the
executor for rendering, running a select, calling a hook of an extension, writing to the log. -/
inductive Effect where
  | replica
  | render
  | select (query : SelectQuery)
  | beforeHook (extension : String)
  | afterHook (extension : String)
  | log (event : LogEvent)
  deriving DecidableEq

namespace Effect

/-- Whether the executor itself was used. -/
def touchesExecutor : Effect → Bool
  | render | select _ => true
  | _ => false

def select? : Effect → Option SelectQuery
  | select query => some query
  | _ => none

def log? : Effect → Option LogEvent
  | log event => some event
  | _ => none

end Effect

/-- A result and the effects that came before it, in order. -/
structure Outcome (ε α : Type) where
  effects : List Effect
  result : Except ε α

namespace Outcome

variable {ε ε' α β : Type}

/-- After a failure nothing is done. -/
def bind (x : Outcome ε α) (f : α → Outcome ε β) : Outcome ε β :=
  match x.result with
  | .ok a => ⟨x.effects ++ (f a).effects, (f a).result⟩
  | .error e => ⟨x.effects, .error e⟩

instance : Monad (Outcome ε) where
  pure a := ⟨[], .ok a⟩
  bind := bind

/-- A result that needs nothing from outside. -/
def ofExcept (r : Except ε α) : Outcome ε α := ⟨[], r⟩

def emit (e : Effect) : Outcome ε Unit := ⟨[e], .ok ()⟩

def log (event : LogEvent) : Outcome ε Unit := emit (.log event)

/-- An effect together with what it answers. -/
def perform (e : Effect) (r : Except ε α) : Outcome ε α := ⟨[e], r⟩

def mapError (f : ε → ε') (x : Outcome ε α) : Outcome ε' α := ⟨x.effects, x.result.mapError f⟩

/-- How often a replica was asked for. -/
def replicas (x : Outcome ε α) : Nat := x.effects.countP (· matches .replica)

/-- The selects that reached the executor, failing ones included. -/
def selects (x : Outcome ε α) : List SelectQuery := x.effects.filterMap Effect.select?

def events (x : Outcome ε α) : List LogEvent := x.effects.filterMap Effect.log?

def touchesExecutor (x : Outcome ε α) : Bool := x.effects.any Effect.touchesExecutor

@[simp] theorem effects_ofExcept (r : Except ε α) : (ofExcept r).effects = [] := rfl

@[simp] theorem result_ofExcept (r : Except ε α) : (ofExcept r).result = r := rfl

@[simp] theorem effects_pure (a : α) : (pure a : Outcome ε α).effects = [] := rfl

@[simp] theorem result_pure (a : α) : (pure a : Outcome ε α).result = .ok a := rfl

@[simp] theorem effects_emit (e : Effect) : (emit e : Outcome ε Unit).effects = [e] := rfl

@[simp] theorem result_emit (e : Effect) : (emit e : Outcome ε Unit).result = .ok () := rfl

@[simp] theorem effects_log (event : LogEvent) :
    (log event : Outcome ε Unit).effects = [.log event] := rfl

@[simp] theorem result_log (event : LogEvent) : (log event : Outcome ε Unit).result = .ok () := rfl

@[simp] theorem effects_perform (e : Effect) (r : Except ε α) : (perform e r).effects = [e] := rfl

@[simp] theorem result_perform (e : Effect) (r : Except ε α) : (perform e r).result = r := rfl

@[simp] theorem effects_mapError (f : ε → ε') (x : Outcome ε α) :
    (x.mapError f).effects = x.effects := rfl

@[simp] theorem mapError_eq_ok_iff {f : ε → ε'} {r : Except ε α} {a : α} :
    r.mapError f = .ok a ↔ r = .ok a := by
  cases r with
  | ok b =>
    show (.ok b : Except ε' α) = .ok a ↔ _
    simp
  | error e => exact ⟨nofun, nofun⟩

theorem bind_of_error {x : Outcome ε α} {e : ε} (h : x.result = .error e)
    (f : α → Outcome ε β) : x >>= f = ⟨x.effects, .error e⟩ := by
  show bind x f = _
  simp [bind, h]

theorem bind_of_ok {x : Outcome ε α} {a : α} (h : x.result = .ok a) (f : α → Outcome ε β) :
    x >>= f = ⟨x.effects ++ (f a).effects, (f a).result⟩ := by
  show bind x f = _
  simp [bind, h]

/-- A chain succeeds exactly when both of its parts do. -/
@[simp] theorem result_bind_eq_ok_iff {x : Outcome ε α} {f : α → Outcome ε β} {b : β} :
    (x >>= f).result = .ok b ↔ ∃ a, x.result = .ok a ∧ (f a).result = .ok b := by
  cases h : x.result with
  | ok a => simp [bind_of_ok h]
  | error e => simp [bind_of_error h]

theorem except_map_eq_ok_iff {r : Except ε α} {f : α → β} {b : β} :
    r.map f = .ok b ↔ ∃ a, r = .ok a ∧ f a = b := by
  cases r <;> simp [Except.map]

theorem toOption_eq_some_iff {ε α : Type} {e : Except ε α} {a : α} :
    e.toOption = some a ↔ e = .ok a := by
  cases e <;> simp [Except.toOption]

theorem except_bind_eq_ok_iff {r : Except ε α} {f : α → Except ε β} {b : β} :
    r >>= f = .ok b ↔ ∃ a, r = .ok a ∧ f a = .ok b := by
  cases r <;> simp [Bind.bind, Except.bind]

/-- What a chain does is done by its first part, or by its second part after the first succeeded. -/
@[simp] theorem mem_effects_bind {x : Outcome ε α} {f : α → Outcome ε β} {e : Effect} :
    e ∈ (x >>= f).effects ↔ e ∈ x.effects ∨ ∃ a, x.result = .ok a ∧ e ∈ (f a).effects := by
  cases h : x.result with
  | ok a => simp [bind_of_ok h]
  | error _ => simp [bind_of_error h]

/-- A fold does nothing that none of its steps can do. -/
theorem not_mem_effects_foldlM {f : β → α → Outcome ε β} {e : Effect}
    (h : ∀ b a, e ∉ (f b a).effects) (as : List α) (b : β) : e ∉ (as.foldlM f b).effects := by
  induction as generalizing b with
  | nil => simp
  | cons a as ih =>
    rw [List.foldlM_cons, mem_effects_bind]
    rintro (he | ⟨b', _, he⟩)
    · exact h b a he
    · exact ih b' he

@[simp] theorem result_mapError_eq_ok_iff {g : ε → ε'} {x : Outcome ε α} {a : α} :
    (x.mapError g).result = .ok a ↔ x.result = .ok a := mapError_eq_ok_iff

theorem mem_selects {x : Outcome ε α} {q : SelectQuery} :
    q ∈ x.selects ↔ .select q ∈ x.effects := by
  simp only [selects, List.mem_filterMap]
  constructor
  · rintro ⟨e, he, hq⟩
    cases e <;> cases hq
    exact he
  · intro h
    exact ⟨_, h, rfl⟩

end Outcome

end PageWatch
