import HistogramMonitor.Monitor.Event

/-!
# Actions and their surroundings

A monitor depends on two things outside of it: the backend, which answers calls as it likes and
remembers what it likes, and the clock. `Surroundings σ` is both, with a memory of type `σ`.

An action is what the monitor does between two requests: from a memory of the surroundings it leads to a
row of events, a new memory and, unless the thread that ran it has died, a value. Events are returned,
not added to a history, so what an action does never depends on what happened before it other than
through the memory and the values it is given.
-/

namespace HistogramMonitor

/-! ## Time -/

/-- A moment, in nanoseconds. -/
structure Instant where
  nanos : Nat
  deriving DecidableEq, Repr, Inhabited

/-- The first moment that a clock cannot hold: it counts whole seconds in 63 bits. -/
def Instant.bound : Nat := 0x8000000000000000 * 1000000000

/-- The moment a span later, if a clock can hold it. -/
def Instant.after? (t : Instant) (d : Duration) : Option Instant :=
  if t.nanos + d < Instant.bound then some ⟨t.nanos + d⟩ else none

/-! ## Surroundings -/

/-- What a call comes to, with what else happened while it was in flight. -/
structure Answer (σ : Type) where
  reply : Reply
  /-- the lines that the client logged -/
  lines : List LogLine := []
  /-- the commands that reached the worker in the meantime -/
  sendings : List Sending := []
  next : σ

/-- A backend and a clock with a common memory. -/
structure Surroundings (σ : Type) where
  answer : σ → Call → Answer σ
  now : σ → Instant × σ

/-! ## Actions -/

/-- What an action leads to. -/
structure Outcome (σ α : Type) where
  events : List Event
  next : σ
  /-- the value, unless the thread has died -/
  value : Option α

/-- Something done in surroundings with a memory of type `σ`. -/
def Action (σ α : Type) := σ → Outcome σ α

namespace Action

variable {σ α β : Type}

/-- Does nothing. -/
protected def pure (a : α) : Action σ α := fun s => ⟨[], s, some a⟩

/-- One action after the other; the second is not run if the first died. -/
protected def bind (x : Action σ α) (f : α → Action σ β) : Action σ β := fun s =>
  let first := x s
  match first.value with
  | none => ⟨first.events, first.next, none⟩
  | some a =>
    let second := f a first.next
    ⟨first.events ++ second.events, second.next, second.value⟩

instance : Monad (Action σ) where
  pure := Action.pure
  bind := Action.bind

/-- Lets events happen. -/
def tell (es : List Event) : Action σ Unit := fun s => ⟨es, s, some ()⟩

/-- The end of the thread. -/
def die : Action σ α := fun s => ⟨[], s, none⟩

/-- Reads something off the memory. -/
def look (f : σ → α) : Action σ α := fun s => ⟨[], s, some (f s)⟩

/-- Logs a diagnostic line. -/
def diagnose (level : Level) (text : String) : Action σ Unit := tell [.diagnostic level text]

/-- Reads the clock. -/
def now (w : Surroundings σ) : Action σ Instant := fun s =>
  let (t, next) := w.now s
  ⟨[], next, some t⟩

/-- Makes a call. A client that dies takes the thread with it. -/
def call (w : Surroundings σ) (c : Call) : Action σ (Except RpcError Bytes) := fun s =>
  let a := w.answer s c
  let events := .call c :: a.lines.map .log ++ a.sendings.map .sent
  match a.reply with
  | .bytes b => ⟨events, a.next, some (.ok b)⟩
  | .failure e => ⟨events, a.next, some (.error e)⟩
  | .death => ⟨events, a.next, none⟩

/-! ### Inversion -/

@[simp] theorem pure_apply (a : α) (s : σ) : (pure a : Action σ α) s = ⟨[], s, some a⟩ := rfl

theorem bind_apply (x : Action σ α) (f : α → Action σ β) (s : σ) :
    (x >>= f) s = match (x s).value with
      | none => ⟨(x s).events, (x s).next, none⟩
      | some a =>
        ⟨(x s).events ++ (f a (x s).next).events, (f a (x s).next).next,
          (f a (x s).next).value⟩ := rfl

/-- A sequence comes to a value exactly when both parts do. -/
theorem value_bind_eq_some {x : Action σ α} {f : α → Action σ β} {s : σ} {b : β} :
    ((x >>= f) s).value = some b ↔
      ∃ a, (x s).value = some a ∧ (f a (x s).next).value = some b := by
  rw [bind_apply]
  cases h : (x s).value <;> simp

end Action

end HistogramMonitor
