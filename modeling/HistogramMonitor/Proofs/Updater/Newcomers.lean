import HistogramMonitor.Proofs.Scheduler.Reports
import HistogramMonitor.Proofs.Scheduler.Requests
import HistogramMonitor.Proofs.Updater.Ids

/-!
# The first visit of a new plot

A step compares the cursor with the number of plots that there are by then. So a plot that is registered while a
cycle is running has its place at the end of that cycle, which does not end without having visited it. Only if no
cycle is running is the next one the first to visit it.

`Awaits` is what holds until then: the cycle that will make the visit is running and has not come to the plot, or it
is the next one to begin. A turn makes the visit or keeps that (`Turn.Occurs.awaits`), and so a run does
(`Run.firstVisit`). What the worker of an updater goes through once it has registered a plot is such a run, too.
Headline: `newcomer_joins`.
-/

namespace HistogramMonitor

namespace Scheduler

variable {σ : Type} {w : Surroundings σ} {s s' : Scheduler} {t : Turn} {turns : List Turn} {n k : Nat}

/-! ## Waiting for a visit -/

/-- The number of the cycle that is running or, if none is, of the next one. -/
def currentCycle (s : Scheduler) : Nat := if s.cycling then s.cycleCount else s.cycleCount + 1

/-- The plot is registered, and the next to visit it is the cycle with number `k`, which has yet to begin or has not
come to it. -/
structure Awaits (n k : Nat) (s : Scheduler) : Prop where
  registered : n < s.plots.length
  ahead : (s.cursor = none ∧ s.cycleCount + 1 = k) ∨ ∃ c, s.cursor = some c ∧ c ≤ n ∧ s.cycleCount = k

/-- Up to the end of these turns, the plot has first been visited by the cycle with number `k`, or is going to be. -/
inductive FirstVisit (n k : Nat) (turns : List Turn) (s' : Scheduler) : Prop
  | ahead (unvisited : ∀ t ∈ turns, t.visit? ≠ some n) (awaits : Awaits n k s')
  | made {earlier later : List Turn} {t : Turn} (split : turns = earlier ++ t :: later)
      (unvisited : ∀ u ∈ earlier, u.visit? ≠ some n) (visit : t.visit? = some n) (number : t.before.cycleCount = k)

theorem currentCycle_of_cycling (h : s.cycling) : s.currentCycle = s.cycleCount := if_pos h

theorem Sound.addPlot (hs : Sound s) (p : Plot) : Sound (s.addPlot p) := by
  have hadd : (Operation.addPlot p).perform stillness s () = ⟨[], (), some (s.addPlot p)⟩ := rfl
  exact hs.perform hadd

/-- A plot that has just been registered awaits the current cycle. -/
theorem awaits_addPlot (hs : Sound s) (p : Plot) : Awaits s.plots.length s.currentCycle (s.addPlot p) := by
  refine ⟨?_, ?_⟩
  · rw [addPlot, List.length_append]
    exact Nat.lt_succ_self _
  · cases hc : s.cursor with
    | none => exact Or.inl ⟨hc, (if_neg (not_cycling_iff.mpr hc)).symm⟩
    | some c =>
      have hcycling : s.cycling := Option.isSome_iff_exists.mpr ⟨c, hc⟩
      exact Or.inr ⟨c, hc, Nat.le_of_lt (hs.registered c hc), (currentCycle_of_cycling hcycling).symm⟩

/-! ## Turns and runs -/

/-- A turn makes the visit that a plot awaits, or the plot goes on to await it. -/
theorem Turn.Occurs.awaits (hs : Sound t.before) (h : t.Occurs w) (ha : Awaits n k t.before) :
    (t.visit? = some n ∧ t.before.cycleCount = k) ∨ (t.visit? ≠ some n ∧ Awaits n k t.after) := by
  obtain ⟨hregistered, hahead⟩ := ha
  have hstays : n < t.after.plots.length := Nat.lt_of_lt_of_le hregistered (h.frame hs).plots
  -- who visits a plot goes on to the next, and behind the last plot comes the end of the cycle
  have hvisits : ∀ c, t.operation = .step → t.before.cursor = some c → (c < n → Awaits n k t.after) →
      (t.visit? = some n ∧ t.before.cycleCount = k) ∨ (t.visit? ≠ some n ∧ Awaits n k t.after) := by
    intro c hstep hc hgoes
    rw [Turn.visit?_eq_some hstep hc]
    rcases hahead with ⟨hidle, -⟩ | ⟨c', hc', hle, hcount⟩
    · cases hidle.symm.trans hc
    · cases hc.symm.trans hc'
      rcases Nat.lt_or_eq_of_le hle with hlt | rfl
      · exact Or.inr ⟨fun heq => Nat.ne_of_lt hlt (Option.some.inj heq), hgoes hlt⟩
      · exact Or.inl ⟨rfl, hcount⟩
  cases h.kind hs with
  | aside cursor count _ _ idle =>
    have hnone : t.visit? = none := Turn.visit?_eq_none idle
    refine Or.inr ⟨hnone ▸ nofun, hstays, ?_⟩
    rw [cursor, count]
    exact hahead
  | begins idle _ _ _ cursor count =>
    have hnone : t.visit? = none := Turn.visit?_eq_none fun _ => idle
    rcases hahead with ⟨-, hnext⟩ | ⟨c, hc, -⟩
    · exact Or.inr ⟨hnone ▸ nofun, hstays, Or.inr ⟨0, cursor, Nat.zero_le n, count.trans hnext⟩⟩
    · cases idle.symm.trans hc
  | passes _ _ noPlot =>
    rw [noPlot] at hstays
    cases hstays
  | visits c step running _ _ cursor count =>
    refine hvisits c step running fun hlt => ⟨hstays, Or.inr ⟨c + 1, cursor, hlt, count.trans ?_⟩⟩
    rcases hahead with ⟨hidle, -⟩ | ⟨_, -, -, hcount⟩
    · cases hidle.symm.trans running
    · exact hcount
  | ends c step running last | renews c step running last =>
    -- the plot is registered, so it cannot lie behind the last one
    exact hvisits c step running fun hlt => absurd (Nat.lt_of_lt_of_eq hregistered last.symm) (Nat.not_lt_of_le hlt)

/-- **Nobody visits a plot before the cycle that it awaits**, and that cycle does not end without having visited it. -/
theorem Run.firstVisit (hs : Sound s) (ha : Awaits n k s) (h : Run w s turns s') : FirstVisit n k turns s' := by
  induction h with
  | nil s => exact .ahead (List.forall_mem_nil _) ha
  | @cons t turns s' ht _ ih =>
    rcases ht.awaits hs ha with ⟨hvisit, hnumber⟩ | ⟨hnot, hafter⟩
    · exact .made (List.nil_append (t :: turns)).symm (List.forall_mem_nil _) hvisit hnumber
    · cases ih (ht.sound hs) hafter with
      | ahead hunvisited hawaits => exact .ahead (List.forall_mem_cons.mpr ⟨hnot, hunvisited⟩) hawaits
      | @made earlier later u hsplit hunvisited hvisit hnumber =>
        have hmade : t :: turns = (t :: earlier) ++ u :: later := congrArg (t :: ·) hsplit
        exact .made hmade (List.forall_mem_cons.mpr ⟨hnot, hunvisited⟩) hvisit hnumber

/-- Once the cycle is over, it has visited the plot. -/
theorem FirstVisit.exists_visit (h : FirstVisit n k turns s') (hbegun : k ≤ s'.cycleCount)
    (hover : ¬ (s'.cycling ∧ s'.cycleCount = k)) : ∃ t ∈ turns, t.visit? = some n ∧ t.before.cycleCount = k := by
  cases h with
  | ahead _ hawaits =>
    rcases hawaits.ahead with ⟨-, hnext⟩ | ⟨c, hc, -, hcount⟩
    · exact absurd hbegun (Nat.not_le_of_lt (Nat.lt_of_lt_of_eq (Nat.lt_succ_self _) hnext))
    · exact absurd ⟨Option.isSome_iff_exists.mpr ⟨c, hc⟩, hcount⟩ hover
  | @made earlier later t hsplit _ hvisit hnumber =>
    exact ⟨t, hsplit ▸ List.mem_append_right earlier List.mem_cons_self, hvisit, hnumber⟩

end Scheduler

open Scheduler

/-! ## Through the updater -/

variable {σ β : Type}

/-- What the worker goes through once it has registered a plot. -/
theorem History.run_of_addPlot {w : Surroundings (Desk β)} {x y : Scene β} {earlier later : List (Move β)} {t : Move β}
    {s₀ : Scheduler} {p : Plot} (h : History w x (earlier ++ t :: later) y)
    (hx : x.updater.worker = .running s₀) (ht : t.errand? = some (.serve (.addPlot p)))
    (hy : y.updater.worker ≠ .dead) : ∃ s turns turns' s', t.before.updater.worker = .running s ∧
      Run w s₀ turns s ∧ Run w (s.addPlot p) turns' s' ∧
      turns'.map (·.operation.errand?) = (errands later).map some ∧
      (y.updater.alive → y.updater.worker = .running s') := by
  obtain ⟨hearlier, hoccurs, hlater⟩ := h.split
  obtain ⟨s, hrunning, -⟩ := hoccurs.serving ht
  obtain ⟨s₁, turns, hrun, -, hs₁⟩ := hearlier.run hx (hrunning ▸ nofun)
  have hsame : s₁ = s := by
    have halive : t.before.updater.alive := by
      rw [Updater.alive, hrunning]
    exact Worker.running.inj ((hs₁ halive).symm.trans hrunning)
  obtain ⟨s', turns', hrun', herrands, hs'⟩ := hlater.run (hoccurs.registers ht hrunning) hy
  exact ⟨s, turns, turns', s', hrunning, hsame ▸ hrun, hrun', herrands, hs'⟩

/-- **A new plot joins the running cycle.** In whatever state a plot is registered, and whatever is done then, its
first visit is made by the cycle that was running when it was registered, or by the next one if none was. A cycle that
was running does not end without that visit.

The same holds of a plot that is registered through an updater: what the worker goes through after it has registered
the plot is a run with one turn for every errand, whatever the handle, the backend and the clock do in between. -/
theorem newcomer_joins (v : Surroundings σ) (w : Surroundings β) (meanwhile : β → Call → List Message) :
    (∀ (s s' : Scheduler) (p : Plot) (turns : List Turn), Reachable v s → Run v (s.addPlot p) turns s' →
      FirstVisit s.plots.length s.currentCycle turns s' ∧
      (s.cycling → ¬ (s'.cycling ∧ s'.cycleCount = s.cycleCount) →
        ∃ t ∈ turns, t.visit? = some s.plots.length ∧ t.before.cycleCount = s.cycleCount)) ∧
    ∀ (s₀ : Scheduler) (outside : β) (earlier later : List (Move β)) (t : Move β) (x : Scene β) (p : Plot),
      Reachable v s₀ → History (w.withMail meanwhile) (.spawn s₀ outside) (earlier ++ t :: later) x →
      t.errand? = some (.serve (.addPlot p)) → x.updater.worker ≠ .dead →
      ∃ s turns s', t.before.updater.worker = .running s ∧ Run (w.withMail meanwhile) (s.addPlot p) turns s' ∧
        turns.map (·.operation.errand?) = (errands later).map some ∧
        (x.updater.alive → x.updater.worker = .running s') ∧
        FirstVisit s.plots.length s.currentCycle turns s' := by
  constructor
  · intro s s' p turns hs h
    have hsound := hs.sound.addPlot p
    have hcount := h.count_le hsound
    have hfirst := h.firstVisit hsound (awaits_addPlot hs.sound p)
    refine ⟨hfirst, fun hcycling hover => ?_⟩
    rw [currentCycle_of_cycling hcycling] at hfirst
    exact hfirst.exists_visit hcount hover
  · intro s₀ outside earlier later t x p hs₀ h ht hx
    obtain ⟨s, turns, turns', s', hrunning, hrun, hrun', herrands, hs'⟩ := h.run_of_addPlot rfl ht hx
    have hs := hs₀.sound.run hrun
    exact ⟨s, turns', s', hrunning, hrun', herrands, hs', hrun'.firstVisit (hs.addPlot p) (awaits_addPlot hs p)⟩

/-- Before the only plot is visited, a second one is registered, and two steps are taken. -/
def overtaking : List Turn :=
  let joined : Scheduler := { plots := [barePlot, barePlot], cursor := some 0, cycleCount := 1 }
  [⟨.step, joined, [], { joined with cursor := some 1 }⟩,
    ⟨.step, { joined with cursor := some 1 }, [], { joined with cursor := none }⟩]

theorem run_overtaking : Run stillness (onlyPlot.addPlot barePlot) overtaking
    { plots := [barePlot, barePlot], cycleCount := 1 } :=
  .cons (t := overtaking[0]) ⟨(), (), rfl⟩ <| .cons (t := overtaking[1]) ⟨(), (), rfl⟩ (.nil _)

/-- A cycle over one plot begins, a second plot is registered, and the worker visits both. -/
def joining : List Deed × List Deed :=
  ([.post (.request .refreshAll), .look, .work, .post (.request (.addPlot barePlot)), .look],
    [.look, .work, .look, .work])

theorem newcomer_joins_overtaking :
    (Reachable stillness onlyPlot ∧ onlyPlot.cycling ∧
      ∃ t ∈ overtaking, t.visit? = some 1 ∧ t.before.cycleCount = 1) ∧
    let w := stillness.withMail fun _ _ => []
    ∃ earlier t later x, History w (.spawn { plots := [barePlot] } ()) (earlier ++ t :: later) x ∧
      t.errand? = some (.serve (.addPlot barePlot)) ∧ errands later = [.visit, .visit] ∧
      x.updater.worker = .running { plots := [barePlot, barePlot], cycleCount := 1 } ∧
      ∃ s turns s', t.before.updater.worker = .running s ∧ Run w (s.addPlot barePlot) turns s' ∧
        FirstVisit s.plots.length s.currentCycle turns s' := by
  obtain ⟨hdirect, hupdater⟩ := newcomer_joins stillness stillness fun _ _ => []
  refine ⟨⟨reachable_onlyPlot, rfl, ?_⟩, ?_⟩
  · obtain ⟨-, hvisited⟩ := hdirect onlyPlot _ barePlot overtaking reachable_onlyPlot run_overtaking
    exact hvisited rfl (by decide)
  · intro w
    obtain ⟨earlier, y, hearlier, hworker⟩ : ∃ earlier y,
        play w joining.1 (.spawn { plots := [barePlot] } ()) = some (earlier, y) ∧
        y = ⟨⟨.running onlyPlot, ⟨⟨[], 2, true⟩, ()⟩⟩, some (.serve (.addPlot barePlot))⟩ := ⟨_, _, rfl, rfl⟩
    subst hworker
    have hregistered := occurs_work w (.serve (.addPlot barePlot)) onlyPlot ⟨⟨[], 2, true⟩, ()⟩
    obtain ⟨later, x, hlater, herrands, hrunning⟩ : ∃ later x,
        play w joining.2 ⟨⟨.running (onlyPlot.addPlot barePlot), ⟨⟨[], 2, true⟩, ()⟩⟩, none⟩ = some (later, x) ∧
        errands later = [.visit, .visit] ∧
        x.updater.worker = .running { plots := [barePlot, barePlot], cycleCount := 1 } := ⟨_, _, rfl, rfl, rfl⟩
    have hhistory := (history_of_play hearlier).append
      ((History.single hregistered).append (history_of_play hlater))
    have hspawned : Reachable stillness ({ plots := [barePlot] } : Scheduler) :=
      (Reachable.fresh false false .absent).perform (.addPlot barePlot) (m := ()) rfl
    obtain ⟨s, turns, s', hbefore, hrun, -, -, hfirst⟩ :=
      hupdater _ () earlier later _ x barePlot hspawned hhistory rfl (hrunning ▸ nofun)
    exact ⟨earlier, _, later, x, hhistory, rfl, herrands, hrunning, s, turns, s', hbefore, hrun, hfirst⟩

/-- It is not the next cycle that first visits a plot which is registered while one is running. -/
theorem not_first_visited_by_next_cycle :
    ¬ ∀ (s s' : Scheduler) (p : Plot) (turns : List Turn), Reachable stillness s → s.cycling →
        Run stillness (s.addPlot p) turns s' →
        ∀ t ∈ turns, t.visit? = some s.plots.length → s.cycleCount < t.before.cycleCount := by
  intro h
  have hlater := h onlyPlot _ barePlot overtaking reachable_onlyPlot rfl run_overtaking overtaking[1]
    (List.getElem_mem _) (by decide)
  exact absurd hlater (by decide)

end HistogramMonitor
