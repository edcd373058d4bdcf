import HistogramMonitor.Proofs.Scheduler.Asking
import HistogramMonitor.Proofs.Scheduler.Deadlines
import HistogramMonitor.Proofs.Scheduler.FollowUp
import HistogramMonitor.Proofs.Transport.Likeness

/-!
# What comes to an end

Two things can bring a monitor down: a call that the client does not survive, and a deadline that the clock
cannot hold. Where every call is answered (`Surroundings.Answers`), only the clock is left, and whoever fails to
come to an end has looked at it last (`Surroundings.RunsOut`): when a cycle begins (`runsOut_of_beginCycle`), and
in a step (`runsOut_of_step`). If the clock can hold the next deadline (`Surroundings.Holds`), there is less left to
visit after a step (`step_ends`).
-/

namespace HistogramMonitor

variable {σ : Type}

/-- The clock can hold a deadline that is one such span away. -/
def Surroundings.Holds (w : Surroundings σ) (d : Duration) : Prop :=
  ∀ m, ∃ deadline, (w.now m).1.after? d = some deadline

/-- The clock, with the surroundings as in `m`, cannot hold such a deadline. It was looked at, and that was the
last thing that has happened, up to `m'`. -/
structure Surroundings.RunsOut (w : Surroundings σ) (d : Duration) (m m' : σ) : Prop where
  overflow : (w.now m).1.after? d = none
  last : m' = (w.now m).2

theorem Surroundings.Holds.not_runsOut {w : Surroundings σ} {d : Duration} {m m' : σ} (h : w.Holds d) :
    ¬ w.RunsOut d m m' := by
  intro hout
  obtain ⟨deadline, hdeadline⟩ := h m
  cases hdeadline.symm.trans hout.overflow

/-- A clock that runs out is late, unless it goes back. -/
theorem Surroundings.RunsOut.bound_le {w : Surroundings σ} {time : σ → Nat} {d : Duration} {m m' : σ}
    (hkeeps : w.Keeps time) (h : w.RunsOut d m m') : Instant.bound ≤ time m' + d := by
  obtain ⟨hover, rfl⟩ := h
  have hlt : ¬ (w.now m).1.nanos + d < Instant.bound := by
    intro hfits
    cases hover.symm.trans (if_pos hfits)
  exact Nat.le_trans (Nat.le_of_not_lt hlt) (Nat.add_le_add_right (hkeeps.passed m) d)

namespace Scheduler

open HistogramMonitor.Action

variable {w : Surroundings σ} {s : Scheduler} {m m' : σ} {es : List Event}

/-! ## The timer and the ends of cycles -/

theorem runsOut_of_rearm (h : s.rearm w m = ⟨es, m', none⟩) : w.RunsOut s.interval m m' := by
  unfold rearm at h
  dsimp only at h
  split at h
  · obtain ⟨es₂, hset⟩ := bind_eq_none_of_eq (rfl : Action.now w m = ⟨[], (w.now m).2, some (w.now m).1⟩) h
    cases hafter : (w.now m).1.after? s.interval with
    | none =>
      rw [hafter] at hset
      cases hset
      exact ⟨hafter, rfl⟩
    | some deadline =>
      rw [hafter] at hset
      cases hset
  · cases h

theorem openCycle_eq (s : Scheduler) (m : σ) :
    s.openCycle m = ⟨(s.openCycle m).events, m, some s.opened⟩ := by
  rw [← openCycle_value s m]
  conv => rhs; arg 2; rw [← openCycle_next s m]

theorem runsOut_of_followUp (h : s.followUp w m = ⟨es, m', none⟩) : w.RunsOut s.interval m m' := by
  obtain ⟨es₁, hrest⟩ := bind_eq_none_of_eq (s.openCycle_eq m) h
  by_cases hp : s.opened.plots = []
  · rw [if_pos hp] at hrest
    obtain ⟨fs, hclosed, -⟩ := s.opened.closeCycle_apply m
    obtain ⟨es₂, hset⟩ := bind_eq_none_of_eq hclosed hrest
    exact runsOut_of_rearm (s := { s.opened with cursor := none }) hset
  · rw [if_neg hp] at hrest
    cases hrest

theorem runsOut_of_finishCycle (h : s.finishCycle w m = ⟨es, m', none⟩) : w.RunsOut s.interval m m' := by
  obtain ⟨fs, hclosed, -⟩ := s.closeCycle_apply m
  obtain ⟨es₁, hrest⟩ := bind_eq_none_of_eq hclosed h
  split at hrest
  · dsimp only at hrest
    split at hrest
    · exact runsOut_of_followUp (s := s.rested) hrest
    · exact runsOut_of_rearm (s := s.rested) hrest
  · exact runsOut_of_rearm (s := { s with cursor := none }) hrest

theorem runsOut_of_beginCycle (h : s.beginCycle w m = ⟨es, m', none⟩) : w.RunsOut s.interval m m' := by
  unfold beginCycle at h
  split at h
  · cases h
  · obtain ⟨es₁, hrest⟩ := bind_eq_none_of_eq (s.openCycle_eq m) h
    split at hrest
    · exact runsOut_of_finishCycle (s := s.opened) hrest
    · cases hrest

theorem runsOut_of_fireTimer {t : Instant} (h : s.fireTimer w t m = ⟨es, m', none⟩) :
    w.RunsOut s.interval m m' := by
  unfold fireTimer at h
  cases hd : s.timer with
  | none =>
    rw [hd] at h
    cases h
  | some deadline =>
    rw [hd] at h
    dsimp only at h
    split at h
    · rcases bind_eq_none h with hbegin | ⟨_, _, _, _, -, hpure⟩
      · exact runsOut_of_beginCycle (s := { s with timer := none }) hbegin
      · cases hpure
    · cases h

/-! ## Visits and steps -/

theorem drawSeries_value (hw : w.Answers) (s : Scheduler) (plot : Nat) (items : List SeriesSource) :
    ∀ i m, ∃ success, (s.drawSeries w plot i items m).value = some success := by
  induction items with
  | nil => exact fun _ _ => ⟨true, rfl⟩
  | cons item rest ih =>
    intro i m
    obtain ⟨answer, hanswer⟩ := Client.retrieve_value hw item.name
      (item.runs.getD s.defaultRuns) (item.program.getD s.defaultProgram) m
    cases answer with
    | ok h =>
      obtain ⟨success, hrest⟩ := ih (i + 1) (Client.retrieve w item.name (item.runs.getD s.defaultRuns)
        (item.program.getD s.defaultProgram) m).next
      exact ⟨success, value_bind_eq_some.mpr ⟨_, hanswer, value_bind_eq_some.mpr ⟨(), rfl, hrest⟩⟩⟩
    | error e => exact ⟨false, value_bind_eq_some.mpr ⟨_, hanswer, rfl⟩⟩

theorem visit_value (hw : w.Answers) (s : Scheduler) (plot : Nat) (m : σ) :
    ∃ success, (s.visit w plot m).value = some success := by
  obtain ⟨before, after, -, hvisit⟩ := visit_apply w s plot m
  rw [hvisit]
  exact drawSeries_value hw s plot _ 0 m

theorem visitsLeft_of_cycling {c : Nat} (hc : s.cursor = some c) :
    s.visitsLeft = (s.plots.length - c) + if s.rerunRequested then s.plots.length else 0 := by
  rw [visitsLeft, hc]

/-- Only the clock can keep a step of a running cycle from coming to an end. -/
theorem runsOut_of_step (hw : w.Answers) {c : Nat} (hc : s.cursor = some c) (hlt : c < s.plots.length)
    (h : s.step w m = ⟨es, m', none⟩) : ∃ m₁, w.RunsOut s.interval m₁ m' := by
  obtain ⟨success, hsuccess⟩ := visit_value hw s c m
  have hvisit : s.visit w c m = ⟨(s.visit w c m).events, (s.visit w c m).next, some success⟩ := by rw [← hsuccess]
  unfold step at h
  rw [hc] at h
  dsimp only at h
  rw [if_pos hlt] at h
  obtain ⟨es₁, hreport⟩ := bind_eq_none_of_eq hvisit h
  obtain ⟨es₂, hrest⟩ := bind_eq_none_of_eq (report_apply ..) hreport
  have hend : (if s.plots.length ≤ c + 1 then (s.visited c success).finishCycle w
      else pure (s.visited c success)) (s.visit w c m).next = ⟨es₂, m', none⟩ := by
    simpa [visited] using hrest
  split at hend
  · exact ⟨_, runsOut_of_finishCycle (s := s.visited c success) hend⟩
  · cases hend

/-- A step of a running cycle comes to an end, and there is less left to visit. -/
theorem step_ends (hw : w.Answers) (hclock : w.Holds s.interval) (hs : Sound s) {c : Nat}
    (hc : s.cursor = some c) (m : σ) :
    ∃ es m' s', s.step w m = ⟨es, m', some s'⟩ ∧ s'.interval = s.interval ∧
      (s'.cycling → s'.visitsLeft < s.visitsLeft ∧
        s'.cycleCount + s'.rerunRequested.toNat ≤ s.cycleCount + s.rerunRequested.toNat) := by
  have hlt := hs.registered c hc
  have hne := hs.plots_ne_nil hc
  rcases hstep : s.step w m with ⟨es, m', _ | s'⟩
  · obtain ⟨m₁, hout⟩ := runsOut_of_step hw hc hlt hstep
    exact absurd hout hclock.not_runsOut
  refine ⟨_, _, s', rfl, ?_⟩
  obtain ⟨es₁, m₁, success', es₂, -, -, -, ⟨hmore, rfl, -⟩ | ⟨hlast, es₃, hfinish, -⟩⟩ :=
    step_eq_some hc hlt hstep
  · refine ⟨rfl, fun _ => ⟨?_, Nat.le_refl _⟩⟩
    have hleft := visitsLeft_of_cycling (s := s.visited c success') rfl
    rw [hleft, visitsLeft_of_cycling hc]
    exact Nat.add_lt_add_right (Nat.sub_lt_sub_left hlt (Nat.lt_succ_self c)) _
  · rcases finishCycle_eq_some (s := s.visited c success') hne hfinish with
      ⟨hr, -, rfl, -⟩ | ⟨-, -, timer, rfl, -⟩
    · have hqueued : s.rerunRequested = true := hr
      refine ⟨rfl, fun _ => ⟨?_, ?_⟩⟩
      · -- the plots of the follow-up are left, and the visit is behind
        have hleft : (s.visited c success').rested.opened.visitsLeft = s.plots.length := rfl
        rw [hleft, visitsLeft_of_cycling hc, if_pos hqueued]
        exact Nat.lt_add_of_pos_left (Nat.sub_pos_of_lt hlt)
      · rw [hqueued]
        exact Nat.le_refl _
    · exact ⟨rfl, fun hcycling => by cases hcycling⟩

end Scheduler

end HistogramMonitor
