import HistogramMonitor.Proofs.Scheduler.Deadlines
import HistogramMonitor.Proofs.Updater.Order

/-!
# Timed updates are never early

A worker waits for its timer, and the wait can end too early or too late. Either way the worker looks at the
clock, and begins a cycle only if the deadline lies behind. The deadline, in turn, is one interval after all
cycles had ended (`Scheduler.Timely`). So a cycle that a timer begins keeps its distance, the interval that
holds when it begins, from every cycle before it, whatever commands were served in between
(`timed_updates_never_early`).

What time is, is told by the memory of the surroundings; a message that arrives takes none
(`Surroundings.Keeps.withMail`).
-/

namespace HistogramMonitor

variable {β : Type}

theorem Surroundings.Keeps.withMail {w : Surroundings β} {time : β → Nat} (hkeeps : w.Keeps time)
    (meanwhile : β → Call → List Message) : (w.withMail meanwhile).Keeps fun d => time d.outside where
  answer d c := hkeeps.answer d.outside c
  shown d := hkeeps.shown d.outside
  passed d := hkeeps.passed d.outside

/-! ## The ends of cycles -/

/-- How the surroundings are when cycles end and the timer is set: a visit is over by then, and who was woken
has looked at the clock. -/
def Errand.closing (w : Surroundings (Desk β)) : Errand → Scheduler → Desk β → Desk β
  | visit, s, d => s.afterVisit w d
  | errand, _, d => errand.outset w d

theorem Errand.closing_eq {w : Surroundings (Desk β)} {op : Scheduler.Operation} {errand : Errand}
    (h : op.errand? = some errand) (s : Scheduler) (d : Desk β) :
    op.closing w s (errand.outset w d) = errand.closing w s d := by
  cases op <;> cases h <;> rfl

/-- The times at which cycles have ended in a move. That takes an errand from which the worker has returned. -/
def Move.endings (w : Surroundings (Desk β)) (time : β → Nat) (t : Move β) : List Nat :=
  match t.errand?, t.before.updater.worker, t.after.updater.worker with
  | some errand, .running s, .running s' =>
    s.endings s' (time (errand.closing w s t.before.updater.desk).outside)
  | _, _, _ => []

/-- The times at which cycles have ended. -/
def endings (w : Surroundings (Desk β)) (time : β → Nat) (moves : List (Move β)) : List Nat :=
  moves.flatMap (·.endings w time)

section Timely

variable {w : Surroundings β} {meanwhile : β → Call → List Message} {time : β → Nat} {x : Scene β}
  {t : Move β} {moves : List (Move β)} {ended : List Nat}

/-! ## What every move keeps -/

/-- The scheduler of a running worker is timely, and one that goes to look at the clock is in no cycle. -/
structure Scene.Timely (time : β → Nat) (ended : List Nat) (x : Scene β) : Prop where
  scheduler : ∀ s, x.updater.worker = .running s → s.Timely (time x.updater.desk.outside) ended
  waking : x.errand = some .wake → ∀ s, x.updater.worker = .running s → s.cursor = none

theorem Errand.time_le_outset (hkeeps : w.Keeps time) (meanwhile : β → Call → List Message)
    (errand : Errand) (d : Desk β) :
    time d.outside ≤ time (errand.outset (w.withMail meanwhile) d).outside := by
  cases errand with
  | wake => exact Nat.le_trans (hkeeps.shown d.outside) (hkeeps.passed d.outside)
  | serve | visit => exact Nat.le_refl _

theorem Move.Occurs.timely (hkeeps : w.Keeps time) (hx : t.before.Timely time ended)
    (h : t.Occurs (w.withMail meanwhile)) :
    t.after.Timely time (ended ++ t.endings (w.withMail meanwhile) time) := by
  cases h.kind with
  | posts | takes | departs =>
    refine ⟨fun s hs => ?_, ?_⟩
    · exact (List.append_nil ended).symm ▸ hx.scheduler s hs
    · first
        | exact hx.waking
        | exact nofun
  | stops => exact ⟨nofun, nofun⟩
  | expires queue idle armed =>
    refine ⟨fun s hs => ?_, fun _ s hs => ?_⟩
    · exact (List.append_nil ended).symm ▸ hx.scheduler s hs
    · cases hs
      exact Scheduler.not_cycling_iff.mp idle
  | @returns errand s s' d d' es done =>
    refine ⟨fun s₁ hs₁ => ?_, nofun⟩
    cases hs₁
    obtain ⟨op, es', herrand, hop⟩ := Errand.exists_perform done
    have hout := (hx.scheduler s rfl).later (errand.time_le_outset hkeeps meanwhile d)
    have hdone := hout.perform (hkeeps.withMail meanwhile) hop
    rw [Errand.closing_eq herrand] at hdone
    exact hdone
  | dies => exact ⟨nofun, nofun⟩

/-- **The deadlines of a worker are timely**, whatever it serves and however long it waits. -/
theorem History.timely (hkeeps : w.Keeps time) (hx : x.Timely time ended) {y : Scene β}
    (h : History (w.withMail meanwhile) x moves y) :
    y.Timely time (ended ++ endings (w.withMail meanwhile) time moves) := by
  induction h with
  | nil => exact (List.append_nil ended).symm ▸ hx
  | @snoc moves t _ ht ih =>
    have hafter := ht.timely hkeeps ih
    rw [endings, List.flatMap_append, List.flatMap_singleton, ← List.append_assoc]
    exact hafter

/-! ## Waking up -/

/-- Before the deadline, waking up comes to nothing. -/
theorem Errand.wake_early {w : Surroundings (Desk β)} {s : Scheduler} {d : Desk β}
    (hdue : (Scheduler.Operation.fireTimer (w.now d).1).requests s = false) :
    Errand.wake.action w s d = ⟨[], (w.now d).2, some s⟩ := by
  change (s.fireTimer w (w.now d).1 >>= fun r => pure r.1) (w.now d).2 = _
  cases hd : s.timer with
  | none =>
    simp only [Scheduler.fireTimer, hd]
    rfl
  | some deadline =>
    have hlt : ¬ deadline.nanos ≤ (w.now d).1.nanos := by
      simpa [Scheduler.Operation.requests, hd] using hdue
    simp only [Scheduler.fireTimer, hd, if_neg hlt]
    rfl

/-- Waking up between two cycles comes to nothing, or the timer was due and a cycle begins, unless the worker
dies of it. -/
theorem Errand.wakes {w : Surroundings (Desk β)} {s : Scheduler} {d d' : Desk β} {es : List Event}
    {v : Option Scheduler} {moment : Nat} (hs : s.Timely moment ended) (hc : s.cursor = none)
    (h : Errand.wake.action w s d = ⟨es, d', v⟩) :
    v = some s ∨ (∀ s', v = some s' → s'.cycleCount = s.cycleCount + 1) ∧
      ∀ e ∈ ended, e + s.interval ≤ (w.now d).1.nanos := by
  cases hdue : (Scheduler.Operation.fireTimer (w.now d).1).requests s with
  | false =>
    rw [Errand.wake_early hdue] at h
    cases h
    exact Or.inl rfl
  | true =>
    refine Or.inr ⟨fun s' hs' => ?_, hs.due hc hdue⟩
    subst hs'
    obtain ⟨es₁, d₁, r, es₂, hnow, hfire, -⟩ := Action.bind_eq_some h
    cases hnow
    have hturn : Scheduler.Turn.Occurs w ⟨.fireTimer (w.now d).1, s, es₂, s'⟩ := ⟨_, _, hfire⟩
    exact (hturn.kind hs.sound).count_of_requests hc hdue

/-- What becomes of a worker that goes to look at the clock. -/
theorem Move.Occurs.wakes (hx : t.before.Timely time ended) (h : t.Occurs (w.withMail meanwhile))
    (hwake : t.errand? = some .wake) : ∃ s, t.before.updater.worker = .running s ∧ ¬ s.cycling ∧
      (t.after.updater.worker = .running s ∨
        (∀ s', t.after.updater.worker = .running s' → s'.cycleCount = s.cycleCount + 1) ∧
          ∀ e ∈ ended, e + s.interval ≤ (w.now t.before.updater.desk.outside).1.nanos) := by
  cases h.kind with
  | posts | takes | stops | departs | expires => cases hwake
  | @returns errand s s' d d' es done =>
    obtain rfl : errand = .wake := Option.some.inj hwake
    have hc := hx.waking rfl s rfl
    refine ⟨s, rfl, Scheduler.not_cycling_iff.mpr hc, ?_⟩
    rcases Errand.wakes (hx.scheduler s rfl) hc done with hsame | ⟨hcount, hended⟩
    · cases hsame
      exact Or.inl rfl
    · refine Or.inr ⟨fun s₁ hs₁ => ?_, hended⟩
      cases hs₁
      exact hcount s' rfl
  | @dies errand s d d' es done =>
    obtain rfl : errand = .wake := Option.some.inj hwake
    have hc := hx.waking rfl s rfl
    refine ⟨s, rfl, Scheduler.not_cycling_iff.mpr hc, ?_⟩
    rcases Errand.wakes (hx.scheduler s rfl) hc done with hsame | ⟨-, hended⟩
    · cases hsame
    · exact Or.inr ⟨nofun, hended⟩

/-- **Timed updates are never early and never go by an old interval**, whatever is asked of a worker and
whenever its waits end, as long as the clock does not go back. The scheduler may have been driven by
somebody else before, through the cycles that have ended in the `past`.

* Every cycle that has begun has ended or is running. Between two cycles, a pending deadline is one interval,
  the one that holds now, after a time at which all of them had ended.
* When a wait is over, no cycle is running. Either nothing happens, or a cycle begins, and by the clock it
  does so at least one interval after the end of every cycle before it. -/
theorem timed_updates_never_early {s₀ : Scheduler} {m₀ outside : β} {past : List Nat} (hkeeps : w.Keeps time)
    (hpast : Scheduler.Driven w time s₀ m₀ past) (hlater : time m₀ ≤ time outside)
    (h : History (w.withMail meanwhile) (.spawn s₀ outside) moves x) :
    (∀ s, x.updater.worker = .running s →
      (past ++ endings (w.withMail meanwhile) time moves).length + s.cycling.toNat = s.cycleCount ∧
      (¬ s.cycling → ∀ d, s.timer = some d → ∃ t ≤ time x.updater.desk.outside, d.nanos = t + s.interval ∧
        ∀ e ∈ past ++ endings (w.withMail meanwhile) time moves, e ≤ t)) ∧
    ∀ earlier t later, moves = earlier ++ t :: later → t.errand? = some .wake →
      ∃ s, t.before.updater.worker = .running s ∧ ¬ s.cycling ∧
        (t.after.updater.worker = .running s ∨
          (∀ s', t.after.updater.worker = .running s' → s'.cycleCount = s.cycleCount + 1) ∧
            ∀ e ∈ past ++ endings (w.withMail meanwhile) time earlier,
              e + s.interval ≤ (w.now t.before.updater.desk.outside).1.nanos) := by
  have hstart : (Scene.spawn s₀ outside).Timely time past := by
    refine ⟨fun s hs => ?_, nofun⟩
    cases hs
    exact (hpast.timely hkeeps).later hlater
  refine ⟨fun s hs => ?_, ?_⟩
  · have htimely := (h.timely hkeeps hstart).scheduler s hs
    exact ⟨htimely.count, fun hc => htimely.deadline (Scheduler.not_cycling_iff.mp hc)⟩
  · rintro earlier t later rfl hwake
    obtain ⟨hearlier, ht, -⟩ := h.split
    exact ht.wakes (hearlier.timely hkeeps hstart) hwake

end Timely

/-- A clock that goes on by ten whenever somebody looks at it. -/
def ticking : Surroundings Nat where
  answer n _ := { reply := .bytes [], next := n + 1 }
  now n := (⟨n⟩, n + 10)

/-- One wait ends too early and the next too late, and during the cycle that then begins the interval is made
shorter. -/
def impatience : List Deed :=
  [.post (.request (.start 15)), .look, .work, .look, .work, .expire, .work, .expire, .work,
    .post (.request (.setInterval 7)), .look, .work, .look, .work]

/-- The second cycle ends at forty, and the next one is due seven later. -/
theorem impatience_never_early : ∃ moves x s,
    play (ticking.withMail fun _ _ => []) impatience (.spawn { plots := [Scheduler.barePlot] } 0) =
      some (moves, x) ∧
    x.updater.worker = .running s ∧ s.timer = some ⟨47⟩ ∧ s.interval = 7 ∧
    errands moves = [.serve (.start 15), .visit, .wake, .wake, .serve (.setInterval 7), .visit] ∧
    endings (ticking.withMail fun _ _ => []) id moves = [0, 40] ∧
    ∃ t, 47 = t + 7 ∧ ∀ e ∈ [0, 40], e ≤ t := by
  have hkeeps : ticking.Keeps id :=
    ⟨fun m _ => Nat.le_add_right m 1, fun m => Nat.le_refl m, fun m => Nat.le_add_right m 10⟩
  have hpast : Scheduler.Driven ticking id { plots := [Scheduler.barePlot] } 0 [] :=
    (Scheduler.Driven.fresh false false .absent 0).perform (.addPlot Scheduler.barePlot) (Nat.le_refl 0) rfl
  obtain ⟨moves, x, s, hplay, hrunning, hidle, htimer, hinterval, herrands, hends⟩ : ∃ moves x s,
      play (ticking.withMail fun _ _ => []) impatience (.spawn { plots := [Scheduler.barePlot] } 0) =
        some (moves, x) ∧
      x.updater.worker = .running s ∧ s.cycling = false ∧ s.timer = some ⟨47⟩ ∧ s.interval = 7 ∧
      errands moves = [.serve (.start 15), .visit, .wake, .wake, .serve (.setInterval 7), .visit] ∧
      endings (ticking.withMail fun _ _ => []) id moves = [0, 40] :=
    ⟨_, _, _, rfl, rfl, rfl, rfl, rfl, rfl, rfl⟩
  obtain ⟨hrun, -⟩ := timed_updates_never_early hkeeps hpast (Nat.le_refl 0) (history_of_play hplay)
  obtain ⟨t, -, hdeadline, hended⟩ := (hrun s hrunning).2 (hidle ▸ Bool.false_ne_true) _ htimer
  rw [hinterval] at hdeadline
  rw [hends] at hended
  exact ⟨moves, x, s, hplay, hrunning, htimer, hinterval, herrands, hends, t, hdeadline, hended⟩

end HistogramMonitor
