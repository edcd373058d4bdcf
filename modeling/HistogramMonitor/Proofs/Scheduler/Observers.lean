import HistogramMonitor.Proofs.Scheduler.Invariant
import HistogramMonitor.Proofs.Scheduler.Shadows

/-!
# Observers are passive

A script says what happens to a scheduler: operations are performed, the surroundings change, and the receiver
of the statuses goes away. Its tale is what comes of it (`play`). Without observers it has the same tale
(`play_bare`), for each deed shadows what it does to the bare scheduler; and where there is no receiver, nothing is
reported (`play_mute`).

The receiver may go away at any moment, but that shows when the next status is reported and not before. The
only operation that reports more than once is a step, and so a script can also take a step in two halves.
Headline: `observers_passive`.
-/

namespace HistogramMonitor.Scheduler

open HistogramMonitor.Action

variable {σ α β : Type} {w : Surroundings σ} {s : Scheduler}

/-! ## Scripts -/

/-- What whoever drives a scheduler gets back. -/
inductive Returned
  | nothing
  /-- the plot has this id -/
  | registered (plot : Nat)
  /-- there is no such plot -/
  | unknown (plot : Nat)
  | flag (b : Bool)
  deriving DecidableEq

/-- Does it, and says what is returned. Nobody asks for the receiver to go away, and so nobody gets anything
back then. -/
def Operation.execute (w : Surroundings σ) : Operation → Scheduler → Action σ (Option Returned × Scheduler)
  | addPlot p, s => return (some (.registered s.plots.length), s.addPlot p)
  | changeSource plot source refreshNow, s => do
    match ← s.changeSource w plot source refreshNow with
    | none => return (some (.unknown plot), s)
    | some s => return (some .nothing, s)
  | fireTimer time, s => do
    let (s, fired) ← s.fireTimer w time
    return (some (.flag fired), s)
  | step, s => do
    let s ← s.step w
    return (some (.flag s.cycling), s)
  | loseReceiver, s => do return (none, ← loseReceiver.perform w s)
  | op, s => do return (some .nothing, ← op.perform w s)

/-- What an operation comes to is the state, whatever is returned besides. -/
theorem perform_eq_execute (w : Surroundings σ) (op : Operation) (s : Scheduler) :
    op.perform w s = op.execute w s >>= fun r => pure r.2 := by
  cases op with
  | changeSource plot source refreshNow =>
    simp only [Operation.perform, Operation.execute, bind_assoc]
    refine congrArg (Action.bind _) (funext fun r => ?_)
    cases r <;> rfl
  | start | refreshAll | setInterval | setVisible | fireTimer | step =>
    simp only [Operation.perform, Operation.execute, bind_assoc, pure_bind, bind_pure]
  | addPlot | setDefaultRuns | setDefaultProgram | loseReceiver => rfl

/-- Something that happens to a scheduler. -/
inductive Deed (σ : Type)
  /-- an operation is performed -/
  | perform (op : Operation)
  /-- the first half of a step -/
  | advance
  /-- the second half of a step -/
  | settle
  /-- the surroundings change by themselves -/
  | elapse (change : σ → σ)

namespace Deed

def run (w : Surroundings σ) : Deed σ → Scheduler → Action σ (Option Returned × Scheduler)
  | perform op, s => op.execute w s
  | advance, s => do return (some .nothing, ← s.advance w)
  | settle, s => do
    let s ← s.settle w
    return (some (.flag s.cycling), s)
  | elapse change, s => fun m => ⟨[], change m, some (some .nothing, s)⟩

/-- What is left of it without observers. -/
def bare : Deed σ → Option (Deed σ)
  | perform .loseReceiver => none
  | perform (.addPlot p) => some (perform (.addPlot p.bare))
  | d => some d

end Deed

/-- What becomes of a script. -/
structure Tale (σ : Type) where
  events : List Event
  next : σ
  /-- what was returned, each time with the state then -/
  records : List (Returned × Scheduler)
  /-- the state in the end, unless the thread has died -/
  last : Option Scheduler

/-- One deed is done after the other, until one dies. -/
def play (w : Surroundings σ) : List (Deed σ) → Scheduler → σ → Tale σ
  | [], s, m => ⟨[], m, [], some s⟩
  | d :: ds, s, m =>
    let o := d.run w s m
    match o.value with
    | none => ⟨o.events, o.next, [], none⟩
    | some (returned, s) =>
      let rest := play w ds s o.next
      ⟨o.events ++ rest.events, rest.next, (returned.map (·, s)).toList ++ rest.records, rest.last⟩

/-- The tale without observers. -/
def Tale.bare (t : Tale σ) : Tale σ :=
  ⟨work t.events, t.next, t.records.map fun r => (r.1, r.2.bare), t.last.map Scheduler.bare⟩

/-- Observers are no part of what is returned. -/
theorem shadows_returning {x y : Action σ Scheduler} (f : Scheduler → Option Returned) (h : Shadows bare x y)
    (hf : ∀ s : Scheduler, f s.bare = f s) :
    Shadows (fun r => (r.1, r.2.bare)) (x >>= fun s => pure (f s, s)) (y >>= fun s => pure (f s, s)) := by
  refine .bind h fun s => ?_
  rw [hf s]
  exact shadows_pure (f s, s)

theorem Deed.run_shadows (w : Surroundings σ) {d d' : Deed σ} (h : d.bare = some d') (s : Scheduler) :
    Shadows (fun r => (r.1, r.2.bare)) (d.run w s) (d'.run w s.bare) := by
  cases d with
  | perform op =>
    cases op with
    | loseReceiver => cases h
    | addPlot p =>
      cases h
      have hadd : (s.addPlot p).bare = s.bare.addPlot p.bare := by
        simp only [addPlot, Scheduler.bare, List.map_append, List.map_cons, List.map_nil]
      have hid : s.bare.plots.length = s.plots.length := length_plots_bare s
      change Shadows _ (pure (some (Returned.registered s.plots.length), s.addPlot p))
        (pure (some (Returned.registered s.bare.plots.length), s.bare.addPlot p.bare))
      rw [← hadd, hid]
      exact shadows_pure (some (Returned.registered s.plots.length), s.addPlot p)
    | changeSource plot source refreshNow =>
      cases h
      refine .bind (changeSource_shadows w plot source refreshNow s) fun r => ?_
      cases r with
      | none => exact shadows_pure (some (Returned.unknown plot), s)
      | some s => exact shadows_pure (some Returned.nothing, s)
    | fireTimer time =>
      cases h
      exact .bind (fireTimer_shadows w time s) fun r => shadows_pure (some (Returned.flag r.2), r.1)
    | step =>
      cases h
      exact shadows_returning (fun s => some (.flag s.cycling)) (step_shadows w s) fun _ => rfl
    | setVisible visible =>
      cases h
      exact shadows_returning (fun _ => some .nothing) (setVisible_shadows w visible s) fun _ => rfl
    | setInterval interval =>
      cases h
      exact shadows_returning (fun _ => some .nothing) (rearm_shadows w _) fun _ => rfl
    | start interval =>
      cases h
      exact shadows_returning (fun _ => some .nothing) (beginCycle_shadows w _) fun _ => rfl
    | refreshAll =>
      cases h
      exact shadows_returning (fun _ => some .nothing) (beginCycle_shadows w s) fun _ => rfl
    | setDefaultRuns runs =>
      cases h
      exact shadows_pure (some Returned.nothing, s.setDefaultRuns runs)
    | setDefaultProgram program =>
      cases h
      exact shadows_pure (some Returned.nothing, s.setDefaultProgram program)
  | advance =>
    cases h
    exact shadows_returning (fun _ => some .nothing) (advance_shadows w s) fun _ => rfl
  | settle =>
    cases h
    exact shadows_returning (fun s => some (.flag s.cycling)) (settle_shadows w s) fun _ => rfl
  | elapse change =>
    cases h
    exact fun m => ⟨rfl, rfl, rfl⟩

/-- Whether there is a receiver at all is nothing that a bare scheduler would know. -/
theorem Deed.run_of_bare_eq_none (w : Surroundings σ) {d : Deed σ} (h : d.bare = none) (s : Scheduler) (m : σ) :
    ∃ s', d.run w s m = ⟨[], m, some (none, s')⟩ ∧ s'.bare = s.bare := by
  cases d with
  | perform op =>
    cases op with
    | loseReceiver => exact ⟨_, rfl, rfl⟩
    | _ => cases h
  | _ => cases h

/-- Without observers a script has the same tale. -/
theorem play_bare (w : Surroundings σ) (ds : List (Deed σ)) :
    ∀ (s : Scheduler) (m : σ), let t := play w ds s m
      let u := play w (ds.filterMap Deed.bare) s.bare m
      work t.events = work u.events ∧ t.next = u.next ∧
        t.records.map (fun r => (r.1, r.2.bare)) = u.records ∧ t.last.map Scheduler.bare = u.last := by
  induction ds with
  | nil => exact fun s m => ⟨rfl, rfl, rfl, rfl⟩
  | cons d ds ih =>
    intro s m
    cases hd : d.bare with
    | none =>
      -- the receiver goes away, and nothing else happens
      obtain ⟨s', hrun, hs'⟩ := Deed.run_of_bare_eq_none w hd s m
      rw [List.filterMap_cons_none hd, ← hs']
      simp only [play, hrun]
      exact ih s' m
    | some d' =>
      obtain ⟨hwork, hnext, hvalue⟩ := Deed.run_shadows w hd s m
      rw [List.filterMap_cons_some hd]
      simp only [play]
      rw [← hvalue, ← hnext]
      cases (d.run w s m).value with
      | none => exact ⟨hwork, rfl, rfl, rfl⟩
      | some r =>
        obtain ⟨hevents, hrest⟩ := ih r.2 (d.run w s m).next
        dsimp only [Option.map_some]
        refine ⟨?_, hrest.1, ?_, hrest.2.2⟩
        · rw [work_append, work_append, hwork, hevents]
        · rw [List.map_append, hrest.2.1]
          cases r.1 <;> rfl

/-! ## Without a receiver -/

/-- Nothing is reported, and nobody would receive a report from the state that the action comes to. -/
def Mute (f : α → Scheduler) (x : Action σ α) : Prop :=
  ∀ m, statuses (x m).events = [] ∧ ∀ a, (x m).value = some a → (f a).statusLink ≠ .attached

theorem mute_pure {f : α → Scheduler} {a : α} (h : (f a).statusLink ≠ .attached) :
    Mute f (pure a : Action σ α) := by
  refine fun m => ⟨rfl, fun b hb => ?_⟩
  cases hb
  exact h

theorem Mute.bind {f : α → Scheduler} {g : β → Scheduler} {x : Action σ α} {k : α → Action σ β} (hx : Mute f x)
    (hk : ∀ a, (f a).statusLink ≠ .attached → Mute g (k a)) : Mute g (x >>= k) := by
  intro m
  obtain ⟨hfirst, hlink⟩ := hx m
  rw [bind_apply]
  cases hvalue : (x m).value with
  | none => exact ⟨hfirst, nofun⟩
  | some a =>
    obtain ⟨hsecond, hlast⟩ := hk a (hlink a hvalue) (x m).next
    refine ⟨?_, hlast⟩
    dsimp only
    rw [statuses_append, hfirst, hsecond, List.append_nil]

/-- What reports nothing may come first. -/
theorem Mute.after {g : β → Scheduler} {x : Action σ α} {k : α → Action σ β}
    (hx : ∀ m, statuses (x m).events = []) (hk : ∀ a, Mute g (k a)) : Mute g (x >>= k) := by
  intro m
  rw [bind_apply]
  cases (x m).value with
  | none => exact ⟨hx m, nofun⟩
  | some a =>
    obtain ⟨hsecond, hlast⟩ := hk a (x m).next
    refine ⟨?_, hlast⟩
    dsimp only
    rw [statuses_append, hx m, hsecond, List.append_nil]

theorem Mute.ite {f : α → Scheduler} {c : Prop} [Decidable c] {x y : Action σ α} (hx : Mute f x)
    (hy : Mute f y) : Mute f (if c then x else y) := by
  split
  · exact hx
  · exact hy

theorem report_mute (done : Nat) (h : s.statusLink ≠ .attached) :
    Mute id (report done s : Action σ Scheduler) := by
  intro m
  rw [report_apply]
  refine ⟨?_, fun s' hs' => ?_⟩
  · unfold announcement
    split
    · rfl
    · exact absurd ‹_› h
    · rfl
  · cases hs'
    cases hlink : s.statusLink with
    | attached => exact absurd hlink h
    | absent | abandoned => exact nofun

theorem rearm_mute (h : s.statusLink ≠ .attached) : Mute id (s.rearm w) := by
  refine fun m => ⟨statuses_rearm s m, fun s' hs' => ?_⟩
  have hrearm : s.rearm w m = ⟨(s.rearm w m).events, (s.rearm w m).next, some s'⟩ := by rw [← hs']
  obtain ⟨-, timer, rfl, -⟩ := rearm_eq_some hrearm
  exact h

theorem openCycle_mute (h : s.statusLink ≠ .attached) : Mute id (s.openCycle : Action σ Scheduler) :=
  .ite (.after (fun _ => rfl) fun _ => report_mute 0 h) (report_mute 0 h)

theorem closeCycle_mute (h : s.statusLink ≠ .attached) : Mute id (s.closeCycle : Action σ Scheduler) := by
  intro m
  obtain ⟨es, hclose, hquiet⟩ := s.closeCycle_apply m
  rw [hclose]
  refine ⟨hquiet, fun s' hs' => ?_⟩
  cases hs'
  exact h

theorem followUp_mute (h : s.statusLink ≠ .attached) : Mute id (s.followUp w) :=
  (openCycle_mute h).bind fun _ h =>
    .ite ((closeCycle_mute h).bind fun _ h => rearm_mute h) (mute_pure h)

theorem finishCycle_mute (h : s.statusLink ≠ .attached) : Mute id (s.finishCycle w) :=
  (closeCycle_mute h).bind fun _ h => .ite (.ite (followUp_mute h) (rearm_mute h)) (rearm_mute h)

theorem beginCycle_mute (h : s.statusLink ≠ .attached) : Mute id (s.beginCycle w) :=
  .ite (mute_pure h) ((openCycle_mute h).bind fun _ h => .ite (finishCycle_mute h) (mute_pure h))

theorem advance_mute (h : s.statusLink ≠ .attached) : Mute id (s.advance w) := by
  unfold advance
  cases s.cursor with
  | none => exact mute_pure h
  | some c => exact .ite (.after (statuses_visit s c) fun _ => report_mute (c + 1) h) (mute_pure h)

theorem settle_mute (h : s.statusLink ≠ .attached) : Mute id (s.settle w) :=
  .ite (finishCycle_mute h) (mute_pure h)

theorem execute_mute (op : Operation) (h : s.statusLink ≠ .attached) : Mute Prod.snd (op.execute w s) := by
  cases op with
  | addPlot | setDefaultRuns | setDefaultProgram => exact mute_pure h
  | changeSource plot source refreshNow =>
    refine Mute.bind (f := fun r => r.getD s) (fun m => ⟨statuses_changeSource s plot source refreshNow m, ?_⟩)
      fun r hr => ?_
    · intro r hr
      have hchange : s.changeSource w plot source refreshNow m =
          ⟨(s.changeSource w plot source refreshNow m).events,
            (s.changeSource w plot source refreshNow m).next, some r⟩ := by rw [← hr]
      obtain ⟨-, rfl | ⟨p, rfl⟩⟩ := changeSource_eq_some hchange
      · exact h
      · exact h
    · cases r with
      | none => exact mute_pure h
      | some s => exact mute_pure hr
  | fireTimer time =>
    refine Mute.bind (f := Prod.fst) ?_ fun _ h => mute_pure h
    unfold fireTimer
    cases s.timer with
    | none => exact mute_pure h
    | some deadline =>
      refine .ite (Mute.bind (f := id) (beginCycle_mute ?_) fun _ h => mute_pure h) (mute_pure h)
      exact h
  | step =>
    change Mute _ (s.step w >>= _)
    rw [step_eq_advance_settle]
    exact ((advance_mute h).bind fun _ h => settle_mute h).bind fun _ h => mute_pure h
  | start interval =>
    exact (beginCycle_mute (s := { s with interval := interval, timer := none }) h).bind fun _ h => mute_pure h
  | refreshAll => exact (beginCycle_mute h).bind fun _ h => mute_pure h
  | setInterval interval =>
    exact (rearm_mute (s := { s with interval := interval }) h).bind fun _ h => mute_pure h
  | setVisible visible =>
    refine Mute.bind (f := id) (.ite (mute_pure h) (.ite (.ite ?_ (mute_pure h)) ?_)) fun _ h => mute_pure h
    · exact .after (fun _ => rfl) fun _ => beginCycle_mute h
    · exact .after (fun _ => rfl) fun _ => mute_pure h
  | loseReceiver =>
    refine mute_pure ?_
    dsimp only
    split
    · exact nofun
    · exact h

theorem Deed.run_mute (d : Deed σ) (h : s.statusLink ≠ .attached) : Mute Prod.snd (d.run w s) := by
  cases d with
  | perform op => exact execute_mute op h
  | advance => exact (advance_mute h).bind fun _ h => mute_pure h
  | settle => exact (settle_mute h).bind fun _ h => mute_pure h
  | elapse change =>
    refine fun m => ⟨rfl, fun r hr => ?_⟩
    cases hr
    exact h

/-- Without a receiver nothing is reported. -/
theorem play_mute (ds : List (Deed σ)) : ∀ {s : Scheduler}, s.statusLink ≠ .attached →
    ∀ m, statuses (play w ds s m).events = [] := by
  induction ds with
  | nil => exact fun _ _ => rfl
  | cons d ds ih =>
    intro s h m
    obtain ⟨hquiet, hlink⟩ := d.run_mute (w := w) h m
    simp only [play]
    cases hvalue : (d.run w s m).value with
    | none => exact hquiet
    | some r =>
      dsimp only
      rw [statuses_append, hquiet, ih (hlink r hvalue), List.append_nil]

/-! ## Scripts as actions -/

/-- What a script comes to. -/
def enact (w : Surroundings σ) (ds : List (Deed σ)) (s : Scheduler) : Action σ Scheduler := fun m =>
  let t := play w ds s m
  ⟨t.events, t.next, t.last⟩

theorem enact_nil (w : Surroundings σ) (s : Scheduler) : enact w [] s = pure s := rfl

theorem enact_cons (w : Surroundings σ) (d : Deed σ) (ds : List (Deed σ)) (s : Scheduler) :
    enact w (d :: ds) s = d.run w s >>= fun r => enact w ds r.2 := by
  funext m
  rw [bind_apply]
  simp only [enact, play]
  cases (d.run w s m).value <;> rfl

/-- What comes behind a script goes on from where the script has ended. -/
theorem enact_append (w : Surroundings σ) (ds more : List (Deed σ)) :
    ∀ s, enact w (ds ++ more) s = enact w ds s >>= enact w more := by
  induction ds with
  | nil => exact fun s => rfl
  | cons d ds ih =>
    intro s
    rw [List.cons_append, enact_cons, enact_cons, bind_assoc]
    simp only [ih]

/-- Once the receiver has gone, nothing is reported any more. -/
theorem statuses_after_loss (w : Surroundings σ) (before after : List (Deed σ)) (s : Scheduler) (m : σ) :
    statuses (play w (before ++ .perform .loseReceiver :: after) s m).events =
      statuses (play w before s m).events := by
  change statuses (enact w _ s m).events = statuses (enact w before s m).events
  rw [enact_append, bind_apply]
  cases (enact w before s m).value with
  | none => rfl
  | some s' =>
    have hgone : (if s'.statusLink = .attached then StatusLink.abandoned else s'.statusLink) ≠ .attached := by
      split
      · exact nofun
      · assumption
    dsimp only
    rw [statuses_append]
    exact (congrArg (_ ++ ·) (play_mute after hgone _)).trans (List.append_nil _)

/-- A row of steps, each in two halves. -/
def steps (k : Nat) : List (Deed σ) := (List.replicate k [.advance, .settle]).flatten

theorem enact_halves (w : Surroundings σ) (s : Scheduler) : enact w [.advance, .settle] s = s.step w := by
  simp only [enact_cons, enact_nil, Deed.run, bind_assoc, pure_bind, bind_pure]
  exact (step_eq_advance_settle w s).symm

theorem enact_steps_succ (w : Surroundings σ) (k : Nat) (s : Scheduler) :
    enact w (steps (k + 1)) s = s.step w >>= enact w (steps k) := by
  rw [steps, List.replicate_succ, List.flatten_cons, enact_append, enact_halves, ← steps]

theorem enact_stepWhileCycling (w : Surroundings σ) (fuel : Nat) : ∀ (n : Nat) (s : Scheduler) (m : σ),
    ∃ k, enact w (steps k) s m = (stepWhileCycling w fuel n s >>= fun r => pure r.1) m := by
  induction fuel with
  | zero => exact fun n s m => ⟨0, rfl⟩
  | succ fuel ih =>
    intro n s m
    unfold stepWhileCycling
    rw [bind_assoc, bind_apply]
    cases hvalue : (s.step w m).value with
    | none =>
      refine ⟨1, ?_⟩
      rw [enact_steps_succ, bind_apply, hvalue]
    | some s' =>
      dsimp only
      by_cases hc : s'.cycling
      · obtain ⟨k, hk⟩ := ih (n + 1) s' (s.step w m).next
        refine ⟨k + 1, ?_⟩
        rw [enact_steps_succ, bind_apply, hvalue, if_pos hc, ← hk]
      · refine ⟨1, ?_⟩
        rw [enact_steps_succ, bind_apply, hvalue, if_neg hc]
        rfl

/-- Running a whole cycle is a script. -/
theorem enact_runCycle (w : Surroundings σ) (s : Scheduler) (m : σ) :
    ∃ k, enact w (.perform .refreshAll :: steps k) s m = s.runCycle w m := by
  have hbegin : ∀ k, enact w (.perform .refreshAll :: steps k) s = s.beginCycle w >>= enact w (steps k) := by
    intro k
    simp only [enact_cons, Deed.run, Operation.execute, Operation.perform, refreshAll, bind_assoc, pure_bind]
  unfold runCycle
  simp only [hbegin, bind_apply (s.beginCycle w)]
  cases (s.beginCycle w m).value with
  | none => exact ⟨0, rfl⟩
  | some s' =>
    obtain ⟨k, hk⟩ := enact_stepWhileCycling w (s'.visitsLeft + 1) 0 s' (s.beginCycle w m).next
    refine ⟨k, ?_⟩
    dsimp only
    rw [hk]
    rfl

/-- **Observers are passive.** Two monitors go on from states that are the same but for their observers, with
scripts that are the same but for the callbacks of new plots and for when the receiver of the statuses goes
away, be it in the middle of a step.

* Their tales are the same without observers: they make the same calls, draw and wipe the same in the same
  order, log the same, look at the clock as often, get the same back, go through the same states and die at
  the same moment if they die.
* Once the receiver has gone, nothing is reported any more.

A whole step is its two halves, and a whole cycle a refresh followed by steps, so that the receiver may go away
anywhere in them. -/
theorem observers_passive (w : Surroundings σ) {s t : Scheduler} {x y : List (Deed σ)}
    (hstates : s.bare = t.bare) (hscripts : x.filterMap Deed.bare = y.filterMap Deed.bare) (m : σ) :
    (play w x s m).bare = (play w y t m).bare ∧
      (∀ before after, x = before ++ .perform .loseReceiver :: after →
        statuses (play w x s m).events = statuses (play w before s m).events) ∧
      (∀ s : Scheduler, s.step w = s.advance w >>= settle w) ∧
      ∀ (s : Scheduler) (m : σ), ∃ k, enact w (.perform .refreshAll :: steps k) s m = s.runCycle w m := by
  refine ⟨?_, ?_, step_eq_advance_settle w, enact_runCycle w⟩
  · obtain ⟨hwork, hnext, hrecords, hlast⟩ := play_bare w x s m
    obtain ⟨hwork', hnext', hrecords', hlast'⟩ := play_bare w y t m
    rw [hscripts, hstates] at hwork hnext hrecords hlast
    simp only [Tale.bare, hwork, hwork', hnext, hnext', hrecords, hrecords', hlast, hlast']
  · rintro before after rfl
    exact statuses_after_loss w before after s m

/-- A plot is registered, and a cycle over it begins and is asked for again. -/
def beginning (plot : Plot) : List (Deed Unit) :=
  [.perform (.addPlot plot), .perform .refreshAll, .perform .refreshAll, .advance]

/-- The receiver goes away in the middle of the step, and does not hear of the follow-up. -/
theorem observers_passive_of_loss :
    let told := beginning ⟨none, true, true⟩
    let t := play stillness (told ++ .perform .loseReceiver :: [.settle]) (fresh true true .attached) ()
    t.bare = (play stillness (beginning barePlot ++ [.settle]) (fresh false false .absent) ()).bare ∧
      statuses t.events = [⟨1, 0, 1, 0⟩, ⟨1, 1, 1, 0⟩] := by
  intro told t
  obtain ⟨hbare, hlost, -⟩ := observers_passive stillness (s := fresh true true .attached)
    (t := fresh false false .absent) (x := told ++ .perform .loseReceiver :: [.settle])
    (y := beginning barePlot ++ [.settle]) rfl rfl ()
  exact ⟨hbare, hlost told [.settle] rfl⟩

end HistogramMonitor.Scheduler
