import HistogramMonitor.Proofs.Scheduler.Turns

/-!
# One follow-up for any number of requests

While a cycle is running, requests are noted and nothing more: until a step visits the last plot no cycle
begins, and a follow-up is queued exactly if one was queued before or somebody has asked since
(`Run.goes_on`). The step that visits the last plot then begins exactly one, if anybody can see it.

The step that begins the follow-up needs nothing but its visit. It sets no timer, so there is no clock
that could fail it (`step_value_of_visit`). Headline: `requests_coalesce`.
-/

namespace HistogramMonitor.Scheduler

open HistogramMonitor.Action

variable {σ : Type} {w : Surroundings σ} {s s₁ s' : Scheduler} {t : Turn} {turns : List Turn}

/-! ## Until the last plot -/

/-- The turn is a step that visits the last plot. -/
def Turn.VisitsLast (t : Turn) : Prop :=
  t.operation = .step ∧ ∃ c, t.before.cursor = some c ∧ c + 1 = t.before.plots.length

/-- Before the last plot a cycle goes on, whatever is done. -/
theorem Turn.Kind.goes_on (hk : t.Kind) (hc : t.before.cycling) (hgo : ¬ t.VisitsLast) :
    t.after.cycling ∧ t.after.cycleCount = t.before.cycleCount ∧
      t.after.rerunRequested = (t.before.rerunRequested || t.requests) ∧ boundaries t.events = [] := by
  unfold cycling at hc ⊢
  cases hk with
  | aside cursor count queue _ _ told =>
    rw [cursor]
    exact ⟨hc, count, queue, told⟩
  | begins idle | passes idle =>
    rw [idle] at hc
    cases hc
  | visits c step _ _ _ cursor count queue told =>
    rw [cursor, queue, Turn.not_requests_of_step step, Bool.or_false]
    exact ⟨rfl, count, rfl, told⟩
  | ends c step running last | renews c step running last =>
    -- these are the turns that visit the last plot
    exact absurd ⟨step, c, running, last⟩ hgo

theorem Run.goes_on (hs : Sound s) (hc : s.cycling) (h : Run w s turns s')
    (hgo : ∀ t ∈ turns, ¬ t.VisitsLast) :
    s'.cycling ∧ s'.cycleCount = s.cycleCount ∧
      (s'.rerunRequested ↔ s.rerunRequested ∨ ∃ t ∈ turns, t.requests) ∧
      ∀ t ∈ turns, boundaries t.events = [] := by
  induction h with
  | nil s => exact ⟨hc, rfl, by simp, by simp⟩
  | @cons t turns s' ht _ ih =>
    obtain ⟨hc₁, hcount₁, hqueue₁, htold₁⟩ :=
      (ht.kind hs).goes_on hc (hgo t List.mem_cons_self)
    obtain ⟨hc₂, hcount₂, hqueue₂, htold₂⟩ :=
      ih (ht.sound hs) hc₁ fun u hu => hgo u (List.mem_cons_of_mem t hu)
    refine ⟨hc₂, hcount₂.trans hcount₁, ?_, ?_⟩
    · rw [hqueue₂, hqueue₁]
      simp [or_assoc]
    · exact List.forall_mem_cons.mpr ⟨htold₁, htold₂⟩

/-! ## The last step -/

theorem closeCycle_value (s : Scheduler) (m : σ) :
    (s.closeCycle m).value = some { s with cursor := none } := by
  unfold closeCycle
  dsimp only
  split <;> split <;> rfl

theorem openCycle_value (s : Scheduler) (m : σ) : (s.openCycle m).value = some s.opened := by
  unfold openCycle
  dsimp only
  split <;> exact congrArg Outcome.value (report_apply 0 _ m)

theorem finishCycle_value (hp : s.plots ≠ []) (hr : s.rerunRequested) (hv : s.visible) (m : σ) :
    (s.finishCycle w m).value = some s.rested.opened := by
  refine value_bind_eq_some.mpr ⟨_, closeCycle_value s m, ?_⟩
  rw [if_pos (by exact hr), if_pos (by exact hv)]
  refine value_bind_eq_some.mpr ⟨_, openCycle_value _ _, ?_⟩
  rw [if_neg (by exact hp)]
  rfl

/-- With a follow-up queued, the step that visits the last plot comes to an end if its visit does. -/
theorem step_value_of_visit {c : Nat} {m : σ} {success : Bool} (hc : s.cursor = some c)
    (hlast : c + 1 = s.plots.length) (hr : s.rerunRequested) (hv : s.visible)
    (h : (s.visit w c m).value = some success) :
    (s.step w m).value = some ((s.visited c success).rested.opened) := by
  have hlt : c < s.plots.length := Nat.lt_of_succ_le (Nat.le_of_eq hlast)
  have hne : s.plots ≠ [] := List.ne_nil_of_length_eq_add_one hlast.symm
  unfold step
  rw [hc]
  dsimp only
  rw [if_pos hlt]
  refine value_bind_eq_some.mpr ⟨success, h, ?_⟩
  refine value_bind_eq_some.mpr ⟨s.visited c success, congrArg Outcome.value (report_apply _ _ _), ?_⟩
  rw [if_pos (by simp [visited, hlast])]
  exact finishCycle_value (s := s.visited c success) hne hr hv _

/-- **Requests are coalesced.** From a state in which a cycle is running, and with whatever is done
before its last plot is visited:

* no cycle begins, and nobody is told that one does;
* if the monitor is visible when the last plot is visited, exactly one cycle begins in that very step if
  one had been queued or anybody has asked for one, as often as it may have been, and none if nobody has.

Whoever runs a whole cycle asks for one and then takes steps (`Run.of_runCycle`). -/
theorem requests_coalesce (hs : Reachable w s) (hc : s.cycling) (h : Run w s turns s₁)
    (hgo : ∀ t ∈ turns, ¬ t.VisitsLast) :
    (s₁.cycling ∧ s₁.cycleCount = s.cycleCount ∧ ∀ t ∈ turns, .cycleStart ∉ t.events) ∧
      ∀ c m, s₁.cursor = some c → c + 1 = s₁.plots.length → s₁.visible →
        ((s.rerunRequested ∨ ∃ t ∈ turns, t.requests) →
          ∀ success, (s₁.visit w c m).value = some success →
            ∃ s', (s₁.step w m).value = some s' ∧ s'.cycleCount = s.cycleCount + 1 ∧
              s'.cursor = some 0 ∧ s'.rerunRequested = false) ∧
        (¬ (s.rerunRequested ∨ ∃ t ∈ turns, t.requests) →
          ∀ s', (s₁.step w m).value = some s' →
            s'.cycleCount = s.cycleCount ∧ s'.cursor = none) := by
  obtain ⟨hc₁, hcount, hqueue, htold⟩ := h.goes_on hs.sound hc hgo
  refine ⟨⟨hc₁, hcount, fun t ht hmem => ?_⟩, fun c m hcur hlast hv => ⟨fun hr => ?_, fun hr => ?_⟩⟩
  · have : Event.cycleStart ∈ boundaries t.events := List.mem_filter.mpr ⟨hmem, rfl⟩
    rw [htold t ht] at this
    cases this
  · intro success hvisit
    refine ⟨_, step_value_of_visit hcur hlast (hqueue.mpr hr) hv hvisit, ?_, rfl, rfl⟩
    exact congrArg (· + 1) hcount
  · -- nobody has asked, so of all turns this can only be one that ends the cycle
    intro s' hstep
    have ht : Turn.Occurs w ⟨.step, s₁, (s₁.step w m).events, s'⟩ :=
      ⟨m, (s₁.step w m).next, by rw [← hstep]; rfl⟩
    cases ht.kind (hs.sound.run h) with
    | aside _ _ _ _ idle _ =>
      rw [show s₁.cursor = none from idle rfl] at hcur
      cases hcur
    | begins idle | passes idle =>
      rw [show s₁.cursor = none from idle] at hcur
      cases hcur
    | visits c' _ running more =>
      cases (show s₁.cursor = some c' from running).symm.trans hcur
      exact absurd hlast (Nat.ne_of_lt more)
    | ends c' _ _ _ _ _ cursor count => exact ⟨count.trans hcount, cursor⟩
    | renews c' _ _ _ _ asked => exact absurd (hqueue.mp asked) hr

theorem requests_coalesce_of_refreshes :
    Reachable stillness onlyPlot ∧
      ∃ s', (Scheduler.step stillness { onlyPlot with rerunRequested := true } ()).value = some s' ∧
        s'.cycleCount = 2 ∧ s'.cursor = some 0 ∧ s'.rerunRequested = false := by
  -- two refreshes, of which the second finds the first one queued
  let queued : Scheduler := { onlyPlot with rerunRequested := true }
  have hrun : Run stillness onlyPlot
      [⟨.refreshAll, onlyPlot, [], queued⟩, ⟨.refreshAll, queued, [], queued⟩] queued :=
    .cons (t := ⟨.refreshAll, onlyPlot, [], queued⟩) ⟨(), (), rfl⟩ <|
      .cons (t := ⟨.refreshAll, queued, [], queued⟩) ⟨(), (), rfl⟩ (.nil _)
  have hgo : ∀ t ∈ [(⟨.refreshAll, onlyPlot, [], queued⟩ : Turn), ⟨.refreshAll, queued, [], queued⟩],
      ¬ t.VisitsLast := by
    simp [Turn.VisitsLast]
  obtain ⟨-, hlast⟩ := requests_coalesce reachable_onlyPlot rfl hrun hgo
  exact ⟨reachable_onlyPlot, (hlast 0 () rfl rfl rfl).1 (Or.inr ⟨_, List.mem_cons_self, rfl⟩) true rfl⟩

end HistogramMonitor.Scheduler
