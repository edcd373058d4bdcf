import HistogramMonitor.Proofs.Effects

/-!
# The calls of a retrieval

A retrieval makes one call, or two that differ in their budgets only (`calls_retrieve`). This is so
whatever the backend answers, also if the client dies on the way.
-/

namespace HistogramMonitor

variable {σ α β : Type}

/-! ## Calls among events -/

/-- The call that an event is. -/
def Event.call? : Event → Option Call
  | .call c => some c
  | _ => none

/-- The calls among events. -/
def calls (es : List Event) : List Call := es.filterMap Event.call?

@[simp] theorem calls_append (es fs : List Event) : calls (es ++ fs) = calls es ++ calls fs :=
  List.filterMap_append

theorem calls_eq_nil {es : List Event} (h : ∀ e ∈ es, e.call? = none) : calls es = [] :=
  List.filterMap_eq_nil_iff.mpr h

namespace Action

/-- The calls of a sequence are those of its first part, and then those of the second, if there is one. -/
theorem calls_bind (x : Action σ α) (f : α → Action σ β) (m : σ) :
    calls ((x >>= f) m).events = calls (x m).events ++
      match (x m).value with
      | none => []
      | some a => calls (f a (x m).next).events := by
  rw [bind_apply]
  cases (x m).value with
  | none => exact (List.append_nil _).symm
  | some a => exact calls_append _ _

/-- Nothing that the action does is a call. -/
theorem calls_of_emits {x : Action σ α} (h : x.Emits fun e => e.call? = none) (m : σ) :
    calls (x m).events = [] :=
  calls_eq_nil (h m)

/-- An action that makes no call comes before or after others unnoticed. -/
theorem calls_bind_of_emits {x : Action σ α} {f : α → Action σ β} (m : σ)
    (h : ∀ a, (f a).Emits fun e => e.call? = none) :
    calls ((x >>= f) m).events = calls (x m).events := by
  rw [calls_bind]
  cases (x m).value with
  | none => exact List.append_nil _
  | some a => exact (congrArg (_ ++ ·) (calls_of_emits (h a) _)).trans (List.append_nil _)

/-- A call shows itself first, then what the client logged, and then what was sent in the meantime. -/
theorem call_events (w : Surroundings σ) (c : Call) (m : σ) : (call w c m).events =
    .call c :: ((w.answer m c).lines.map .log ++ (w.answer m c).sendings.map .sent) := by
  unfold call
  cases hr : (w.answer m c).reply <;> simp only [hr, List.cons_append]

theorem call_next (w : Surroundings σ) (c : Call) (m : σ) : (call w c m).next = (w.answer m c).next := by
  unfold call
  cases hr : (w.answer m c).reply <;> simp only [hr]

theorem calls_call (w : Surroundings σ) (c : Call) (m : σ) : calls (call w c m).events = [c] := by
  have hrest : calls ((w.answer m c).lines.map .log ++ (w.answer m c).sendings.map .sent) = [] := by
    refine calls_eq_nil fun e he => ?_
    rcases List.mem_append.mp he with he | he
    all_goals
      obtain ⟨-, -, rfl⟩ := List.mem_map.mp he
      rfl
  rw [call_events]
  exact congrArg (c :: ·) hrest

end Action

open HistogramMonitor.Action

namespace Client

/-! ## Fetching -/

/-- What is fetched with a call: the call alone, or it and a second one with the budget that the first reply
has made necessary. -/
def Attempts (c : Call) (cs : List Call) : Prop :=
  cs = [c] ∨ ∃ declared, cs = [c, { c with hint := some declared }]

theorem Attempts.length_le {c : Call} {cs : List Call} (h : Attempts c cs) : cs.length ≤ 2 := by
  rcases h with rfl | ⟨declared, rfl⟩
  · exact Nat.le_succ 1
  · exact Nat.le_refl 2

theorem check_silent (reply : Bytes) (command : String) (expected : UInt32) :
    (check reply command expected : Action σ _).Emits fun e => e.call? = none := by
  unfold check
  cases Envelope.parse reply with
  | error e => exact emits_pure _
  | ok envelope => exact (emits_pure _).tell_if rfl

theorem calls_refetch (w : Surroundings σ) (c : Call) (declared : Nat) (expected : UInt32) (m : σ) :
    calls (refetch w c declared expected m).events = [{ c with hint := some declared }] := by
  refine (calls_bind_of_emits m fun answer => ?_).trans (calls_call w _ m)
  cases answer with
  | error e => exact emits_pure _
  | ok reply =>
    refine (check_silent reply _ expected).bind fun header => ?_
    cases header with
    | error e => exact emits_pure _
    | ok envelope => exact (emits_pure _).tell_if rfl

theorem calls_fetch (w : Surroundings σ) (c : Call) (expected : UInt32) (m : σ) :
    Attempts c (calls (fetch w c expected m).events) := by
  have hfirst := calls_call w c m
  unfold fetch
  rw [calls_bind, hfirst]
  cases (call w c m).value with
  | none => exact Or.inl rfl
  | some answer =>
    cases answer with
    | error e => exact Or.inl rfl
    | ok reply =>
      dsimp only
      rw [calls_bind, calls_of_emits (check_silent reply _ expected), List.nil_append]
      rcases (check reply c.command expected (call w c m).next).value with _ | _ | envelope
      · exact Or.inl rfl
      · exact Or.inl rfl
      · dsimp only
        split
        · -- the reply was cut short, and there is a second call
          rw [calls_bind]
          exact Or.inr ⟨_, congrArg (c :: ·) (calls_refetch w c _ expected _)⟩
        · exact Or.inl rfl

/-- The first call for a histogram. -/
def request (name : String) (runs : List UInt32) (program : String) : Call :=
  ⟨program, histogramCommand, histogramArgs name runs, some histogramBudget⟩

/-- **A retrieval** asks for its histogram once, or twice with different budgets, and for nothing else. -/
theorem calls_retrieve (w : Surroundings σ) (name : String) (runs : List UInt32) (program : String) (m : σ) :
    Attempts (request name runs program) (calls (retrieve w name runs program m).events) := by
  have hcalls : calls (retrieve w name runs program m).events =
      calls (fetch w (request name runs program) Envelope.histogramType m).events := by
    refine calls_bind_of_emits m fun answer => ?_
    cases answer <;> exact emits_pure _
  rw [hcalls]
  exact calls_fetch w _ _ m

end Client

end HistogramMonitor
