import HistogramMonitor.Proofs.Scheduler.Draining
import HistogramMonitor.Proofs.Scheduler.Redirection

/-!
# Changes of sources among steps

A plot whose turn has not come can be pointed at another source before a step or after it, and it makes no
difference. What a step reads of the registry is the plot at the cursor and how many there are; so each part of
a step, started with the plot pointed at another source, shows the same and comes to the same but for that
(`Carries`), and with them the step does (`step_carries`).

In a row of steps a change can so be moved forward past every step that does not visit its plot, and those are known
beforehand (`upcoming`). It can be made first of all (`enact_change`), and hence anywhere before the visit.
Headline: `change_commutes`.
-/

namespace HistogramMonitor

variable {σ α β γ δ : Type}

namespace Action

/-- The second action shows the same and leaves the same memory as the first, and it comes to the same but for `f`. -/
def Carries (f : α → β) (x : Action σ α) (y : Action σ β) : Prop :=
  ∀ m, y m = ⟨(x m).events, (x m).next, (x m).value.map f⟩

theorem Carries.refl (x : Action σ α) : Carries id x x :=
  fun m => congrArg (Outcome.mk (x m).events (x m).next) (congrFun Option.map_id (x m).value).symm

theorem carries_pure {f : α → β} (a : α) : Carries f (pure a : Action σ α) (pure (f a)) := fun _ => rfl

theorem Carries.bind {f : α → β} {g : γ → δ} {x : Action σ α} {y : Action σ β} {k : α → Action σ γ}
    {l : β → Action σ δ} (hxy : Carries f x y) (hkl : ∀ a, Carries g (k a) (l (f a))) :
    Carries g (x >>= k) (y >>= l) := by
  intro m
  rw [bind_apply, bind_apply, hxy m]
  cases (x m).value with
  | none => rfl
  | some a =>
    dsimp only [Option.map_some]
    rw [hkl a (x m).next]

theorem Carries.ite {f : α → β} {c d : Prop} [Decidable c] [Decidable d] {x x' : Action σ α}
    {y y' : Action σ β} (hcd : c ↔ d) (h : Carries f x y) (h' : Carries f x' y') :
    Carries f (if c then x else x') (if d then y else y') := by
  by_cases hc : c
  · rw [if_pos hc, if_pos (hcd.mp hc)]
    exact h
  · rw [if_neg hc, if_neg fun hd => hc (hcd.mpr hd)]
    exact h'

/-- Something is told under a condition, and the condition is the same. -/
theorem Carries.tell_if {f : α → β} {c d : Prop} [Decidable c] [Decidable d] {es : List Event} {x : Action σ α}
    {y : Action σ β} (hcd : c ↔ d) (h : Carries f x y) :
    Carries f (if c then tell es >>= fun _ => x else x) (if d then tell es >>= fun _ => y else y) :=
  .ite hcd (.bind (.refl (tell es)) fun _ => h) h

/-- What is carried is the action itself with `f` behind it. -/
theorem Carries.eq_bind {f : α → β} {x : Action σ α} {y : Action σ β} (h : Carries f x y) :
    y = x >>= fun a => pure (f a) := by
  funext m
  rw [h m, bind_apply]
  cases (x m).value with
  | none => rfl
  | some a => exact congrArg (Outcome.mk · (x m).next (some (f a))) (List.append_nil _).symm

end Action

namespace Scheduler

open HistogramMonitor.Action

variable {τ : Type} {w : Surroundings σ} {s : Scheduler}

/-! ## The parts of a step -/

section Parts

variable (w : Surroundings σ) (plot : Nat) (source : Option PlotSource) (s : Scheduler)

theorem report_carries (done : Nat) : Carries (redirected plot source) (report done s : Action σ Scheduler)
    (report done (s.redirected plot source)) := by
  intro m
  have hsame : (s.redirected plot source).announcement done = s.announcement done := by
    rw [announcement, length_plots_redirected]
    rfl
  rw [report_apply, report_apply, hsame]
  rfl

theorem rearm_carries :
    Carries (redirected plot source) (s.rearm w) ((s.redirected plot source).rearm w) := by
  refine .ite Iff.rfl (.bind (.refl (now w)) fun t => ?_) (carries_pure _)
  dsimp only [redirected, id_eq]
  cases t.after? s.interval with
  | none => exact fun _ => rfl
  | some deadline => exact carries_pure _

theorem openCycle_carries : Carries (redirected plot source) (s.openCycle : Action σ Scheduler)
    (s.redirected plot source).openCycle :=
  .tell_if (and_congr_right fun _ => not_congr (plots_redirected_eq_nil plot source s).symm)
    (report_carries plot source { s with cycleCount := s.cycleCount + 1, cycleFailures := 0, cursor := some 0 } 0)

theorem closeCycle_carries : Carries (redirected plot source) (s.closeCycle : Action σ Scheduler)
    (s.redirected plot source).closeCycle := by
  rw [closeCycle, closeCycle, length_plots_redirected]
  exact .tell_if (and_congr_right fun _ => not_congr (plots_redirected_eq_nil plot source s).symm)
    (.tell_if Iff.rfl (carries_pure _))

theorem followUp_carries :
    Carries (redirected plot source) (s.followUp w) ((s.redirected plot source).followUp w) := by
  refine .bind (openCycle_carries plot source s) fun s => ?_
  refine .ite (plots_redirected_eq_nil plot source s).symm ?_ (carries_pure s)
  exact .bind (closeCycle_carries plot source s) (rearm_carries w plot source)

theorem finishCycle_carries :
    Carries (redirected plot source) (s.finishCycle w) ((s.redirected plot source).finishCycle w) := by
  refine .bind (closeCycle_carries plot source s) fun s => ?_
  refine .ite Iff.rfl (.ite Iff.rfl ?_ ?_) (rearm_carries w plot source s)
  · exact followUp_carries w plot source { s with rerunRequested := false }
  · exact rearm_carries w plot source { s with rerunRequested := false }

theorem settle_carries :
    Carries (redirected plot source) (s.settle w) ((s.redirected plot source).settle w) := by
  rw [settle, settle, length_plots_redirected]
  exact .ite Iff.rfl (finishCycle_carries w plot source s) (carries_pure s)

end Parts

/-! ## Steps -/

/-- The visit of another plot is the same. -/
theorem visit_redirected {plot : Nat} {source : Option PlotSource} {c : Nat} (h : c ≠ plot) :
    (s.redirected plot source).visit w c = s.visit w c :=
  visit_congr (getElem?_plots_redirected_of_ne h) rfl rfl

theorem advance_carries {plot : Nat} (h : s.cursor ≠ some plot) (w : Surroundings σ) (source : Option PlotSource) :
    Carries (redirected plot source) (s.advance w) ((s.redirected plot source).advance w) := by
  have hcursor : (s.redirected plot source).cursor = s.cursor := rfl
  rw [advance, advance, hcursor]
  cases hc : s.cursor with
  | none => exact carries_pure s
  | some c =>
    have hne : c ≠ plot := fun heq => h (heq ▸ hc)
    dsimp only
    rw [length_plots_redirected, visit_redirected hne]
    refine .ite Iff.rfl (.bind (.refl _) fun success => ?_) (carries_pure s)
    exact report_carries plot source _ (c + 1)

/-- **A step carries a change of any plot but the one at the cursor**, whatever it comes to. -/
theorem step_carries {plot : Nat} (h : s.cursor ≠ some plot) (w : Surroundings σ) (source : Option PlotSource) :
    Carries (redirected plot source) (s.step w) ((s.redirected plot source).step w) := by
  rw [step_eq_advance_settle, step_eq_advance_settle]
  exact .bind (advance_carries h w source) (settle_carries w plot source)

/-! ## Rows of steps -/

/-- A change of the source in a script. -/
def change (plot : Nat) (source : Option PlotSource) : Deed σ := .perform (.changeSource plot source false)

theorem enact_change_cons (w : Surroundings σ) (plot : Nat) (source : Option PlotSource) (ds : List (Deed σ))
    (s : Scheduler) : enact w (change plot source :: ds) s = enact w ds (s.redirected plot source) := by
  have hperform := perform_changeSource_false w plot source s
  rw [perform_eq_execute] at hperform
  rw [enact_cons, ← pure_bind (s.redirected plot source) (enact w ds), ← hperform, bind_assoc]
  rfl

/-- A change that comes before the visit of its plot can as well be made first of all. -/
theorem enact_change {plot : Nat} (w : Surroundings σ) (source : Option PlotSource) (j : Nat) :
    ∀ (i : Nat) {s : Scheduler}, Sound s → plot ∉ s.upcoming.take i →
      enact w (steps i ++ change plot source :: steps j) s =
        enact w (change plot source :: steps (i + j)) s := by
  intro i
  induction i with
  | zero =>
    intro s _ _
    rw [Nat.zero_add]
    rfl
  | succ i ih =>
    intro s hs hnot
    have hcursor : s.cursor ≠ some plot := by
      intro hc
      rw [upcoming_eq_cons hc (hs.registered plot hc)] at hnot
      exact hnot List.mem_cons_self
    have hrest : (s.step w).Gives fun s' => enact w (steps i ++ change plot source :: steps j) s' =
        enact w (steps (i + j)) (s'.redirected plot source) := by
      intro m s' hvalue
      have hstep : s.step w m = ⟨(s.step w m).events, (s.step w m).next, some s'⟩ := by rw [← hvalue]
      rw [ih (hs.step hstep), enact_change_cons]
      intro hmem
      have hvisits := step_upcoming hs hstep
      cases hc : s.cursor with
      | none =>
        rw [hc, upcoming_of_idle hc] at hvisits
        have hnone : s'.upcoming = [] := hvisits.symm
        rw [hnone, List.take_nil] at hmem
        cases hmem
      | some c =>
        rw [hvisits, hc] at hnot
        exact hnot (List.mem_cons_of_mem c hmem)
    calc enact w (steps (i + 1) ++ change plot source :: steps j) s
        = s.step w >>= enact w (steps i ++ change plot source :: steps j) := by
          rw [enact_append, enact_steps_succ, Action.bind_assoc]
          simp only [← enact_append]
      _ = s.step w >>= fun s' => enact w (steps (i + j)) (s'.redirected plot source) := Gives.bind_congr hrest
      _ = (s.redirected plot source).step w >>= enact w (steps (i + j)) := by
          rw [(step_carries hcursor w source).eq_bind, Action.bind_assoc]
          rfl
      _ = enact w (change plot source :: steps (i + 1 + j)) s := by
          rw [enact_change_cons, Nat.add_right_comm, enact_steps_succ]

/-- **A change of the source commutes with steps.** In every state that a monitor can be in, beside any backend and any
clock:

* a plot that is not at the cursor, be it because no cycle is running, can be pointed at another source before a step
  or after it, and what happens, what is left of the surroundings and the state are the same, or the thread
  dies at the same moment. It makes no difference whether the visit fails, whether the step ends the cycle
  and looks at the clock, or whether a follow-up begins;
* in a row of steps, it makes no difference between which of them the change comes, as long as none of those before it
  visits the plot. -/
theorem change_commutes {v : Surroundings τ} (hs : Reachable v s) (w : Surroundings σ) (plot : Nat)
    (source : Option PlotSource) :
    (s.cursor ≠ some plot →
      (Operation.changeSource plot source false).perform w s >>= step w =
        s.step w >>= (Operation.changeSource plot source false).perform w) ∧
    ∀ i j i' j', i + j = i' + j' → plot ∉ s.upcoming.take i → plot ∉ s.upcoming.take i' →
      enact w (steps i ++ change plot source :: steps j) s =
        enact w (steps i' ++ change plot source :: steps j') s := by
  constructor
  · intro hcursor
    have hperform : (Operation.changeSource plot source false).perform w = fun s => pure (s.redirected plot source) :=
      funext (perform_changeSource_false w plot source)
    rw [hperform]
    exact (step_carries hcursor w source).eq_bind
  · intro i j i' j' hsame hi hi'
    rw [enact_change w source j i hs.sound hi, enact_change w source j' i' hs.sound hi', hsame]

/-- The second of two plots is about to be visited, and a follow-up waits. Whether the first plot is pointed at
another source before the step that begins the follow-up or after it, the step after that asks for the series. -/
theorem change_commutes_of_resumed : Reachable stillness resumed ∧ resumed.cursor ≠ some 0 ∧
    (Operation.changeSource 0 (some single) false).perform stillness resumed >>= step stillness =
      resumed.step stillness >>= (Operation.changeSource 0 (some single) false).perform stillness ∧
    let deed : Deed Unit := change 0 (some single)
    enact stillness (steps 1 ++ deed :: steps 1) resumed = enact stillness (steps 0 ++ deed :: steps 2) resumed ∧
      acts (enact stillness (steps 0 ++ deed :: steps 2) resumed ()).events =
        [.call (Client.request "A" [0] standardProgram), .clear 0] := by
  have hcursor : resumed.cursor ≠ some 0 := by decide
  obtain ⟨hstep, hrow⟩ := change_commutes reachable_resumed stillness 0 (some single)
  exact ⟨reachable_resumed, hcursor, hstep hcursor, hrow 1 1 0 2 rfl (by decide) (by decide), rfl⟩

end Scheduler

end HistogramMonitor
