import HistogramMonitor.Proofs.Scheduler.Drawings
import HistogramMonitor.Proofs.Scheduler.Isolation
import HistogramMonitor.Proofs.Scheduler.Requests

/-!
# A hidden monitor goes quiet

While nobody can see the monitor, a cycle can only begin if somebody asks for it: with a start, with a refresh or
by showing the monitor again (`Operation.rouses`). A follow-up that waits behind the running cycle is dropped
when that ends, and whatever is done with the interval, no timer is set.

What is left are the visits of the running cycle, which goes through the plots that are left and ends
(`Turn.Occurs.quiet`), and refreshes that were asked for with a new source. Headline: `hidden_goes_quiet`.
-/

namespace HistogramMonitor.Scheduler

open HistogramMonitor.Action

variable {σ : Type} {w : Surroundings σ} {s s' : Scheduler} {t : Turn} {turns : List Turn}

/-! ## One turn -/

/-- Whether an operation can make a hidden monitor begin a cycle. -/
def Operation.rouses : Operation → Bool
  | start _ | refreshAll => true
  | setVisible visible => visible
  | _ => false

theorem Sound.timer_eq_none (hs : Sound s) (hv : s.visible = false) : s.timer = none := by
  refine Option.not_isSome_iff_eq_none.mp fun ht => ?_
  have hseen := (hs.pending ht).1
  rw [hv] at hseen
  cases hseen

/-- Without a timer nothing is due. -/
theorem fireTimer_eq_of_untimed (h : s.timer = none) (time : Instant) (m : σ) :
    s.fireTimer w time m = ⟨[], m, some (s, false)⟩ := by
  unfold fireTimer
  rw [h]
  rfl

theorem Operation.requests_of_untimed {op : Operation} (ht : s.timer = none)
    (hop : op.rouses = false) : op.requests s = false := by
  cases op with
  | start | refreshAll => cases hop
  | setVisible visible =>
    rw [show visible = false from hop]
    rfl
  | fireTimer time => simp [requests, ht]
  | _ => rfl

/-- What a turn of a hidden monitor comes to if nobody rouses it. -/
structure Turn.Quiet (t : Turn) : Prop where
  hidden : t.after.visible = false
  /-- no cycle begins -/
  count : t.after.cycleCount = t.before.cycleCount
  /-- and nobody is told that one does -/
  untold : .cycleStart ∉ t.events
  /-- the cycle stays where it is, or goes on by one plot and ends with the last one -/
  cursor : (t.visit? = none ∧ t.after.cursor = t.before.cursor) ∨
    ∃ c, t.visit? = some c ∧ t.before.cursor = some c ∧
      (t.after.cursor = some (c + 1) ∨ (t.after.cursor = none ∧ t.VisitsLast))

theorem Turn.Occurs.quiet (hs : Sound t.before) (h : t.Occurs w) (hv : t.before.visible = false)
    (hop : t.operation.rouses = false) : t.Quiet := by
  have hunasked : t.requests = false := Operation.requests_of_untimed (hs.timer_eq_none hv) hop
  have hhidden : t.after.visible = false := by
    refine Bool.eq_false_iff.mpr fun hshown => ?_
    have hshows := Operation.eq_setVisible_of_shows ((h.frame hs).visible.symm.trans hshown) hv
    rw [hshows] at hop
    cases hop
  -- the beginning of a cycle is a boundary, and so it shows among the boundaries
  have hnews : .cycleStart ∈ t.events → .cycleStart ∈ boundaries t.events :=
    fun hmem => List.mem_filter.mpr ⟨hmem, rfl⟩
  cases h.kind hs with
  | aside cursor count _ _ idle told =>
    rw [told] at hnews
    exact ⟨hhidden, count, fun hmem => List.not_mem_nil (hnews hmem), Or.inl ⟨Turn.visit?_eq_none idle, cursor⟩⟩
  | begins _ asked | passes _ asked =>
    rw [hunasked] at asked
    cases asked
  | visits c step running _ _ cursor count _ told =>
    rw [told] at hnews
    exact ⟨hhidden, count, fun hmem => List.not_mem_nil (hnews hmem),
      Or.inr ⟨c, Turn.visit?_eq_some step running, running, Or.inl cursor⟩⟩
  | ends c step running last _ _ cursor count told =>
    have huntold : .cycleStart ∉ t.before.completeNotice := by
      unfold completeNotice
      split <;> simp
    rw [told] at hnews
    exact ⟨hhidden, count, fun hmem => huntold (hnews hmem),
      Or.inr ⟨c, Turn.visit?_eq_some step running, running, Or.inr ⟨cursor, step, c, running, last⟩⟩⟩
  | renews _ _ _ _ _ _ seen =>
    -- nobody could see the follow-up
    rw [hv] at seen
    cases seen

/-- What is done for a plot is done in a visit of the running cycle or because its source was changed so. -/
theorem Turn.Occurs.act (h : t.Occurs w) {e : Event} (he : e ∈ t.events) (hact : e.IsAct) :
    (∃ c, t.visit? = some c) ∨ ∃ plot source, t.operation = .changeSource plot source true := by
  obtain ⟨op, x, es, y⟩ := t
  obtain ⟨m, m', h⟩ := h
  cases hrefreshes : op.refreshes? x with
  | none =>
    have hnotice : e.IsNotice := perform_emits w hrefreshes m e (by rw [h]; exact he)
    rw [hnotice.not_act] at hact
    cases hact
  | some c =>
    cases op with
    | step => exact Or.inl ⟨c, Turn.visit?_eq_some rfl hrefreshes⟩
    | changeSource plot source refreshNow =>
      cases refreshNow with
      | true => exact Or.inr ⟨plot, source, rfl⟩
      | false => cases hrefreshes
    | _ => cases hrefreshes

/-! ## Over a run -/

/-- As long as nobody rouses it, a hidden monitor stays hidden, and every turn of it is quiet. -/
theorem Run.quiet (hs : Sound s) (hv : s.visible = false) (h : Run w s turns s')
    (hops : ∀ t ∈ turns, t.operation.rouses = false) :
    ∀ t ∈ turns, t.Quiet ∧ Sound t.after ∧ t.after.cycleCount = s.cycleCount := by
  induction h with
  | nil => exact fun t ht => absurd ht List.not_mem_nil
  | @cons t turns s' ht _ ih =>
    obtain ⟨hop, hops⟩ := List.forall_mem_cons.mp hops
    have hquiet := ht.quiet hs hv hop
    refine List.forall_mem_cons.mpr ⟨⟨hquiet, ht.sound hs, hquiet.count⟩, fun u hu => ?_⟩
    obtain ⟨hu₁, hu₂, hu₃⟩ := ih (ht.sound hs) hquiet.hidden hops u hu
    exact ⟨hu₁, hu₂, hu₃.trans hquiet.count⟩

/-- In quiet turns the running cycle goes through the plots that are left, and no other visit is made. -/
theorem Run.visits_of_quiet (h : Run w s turns s') (hquiet : ∀ t ∈ turns, t.Quiet) :
    (s.cursor = none → turns.filterMap Turn.visit? = [] ∧ s'.cursor = none) ∧
    ∀ c, s.cursor = some c → ∃ k, turns.filterMap Turn.visit? = List.range' c k ∧
      (s'.cursor = some (c + k) ∨
        (s'.cursor = none ∧ ∃ t ∈ turns, t.VisitsLast ∧ t.before.plots.length = c + k)) := by
  induction h with
  | nil s => exact ⟨fun hc => ⟨rfl, hc⟩, fun c hc => ⟨0, rfl, Or.inl hc⟩⟩
  | @cons t turns s' _ _ ih =>
    obtain ⟨ht, hquiet⟩ := List.forall_mem_cons.mp hquiet
    obtain ⟨hidle, hrunning⟩ := ih hquiet
    rcases ht.cursor with ⟨hvisit, hcursor⟩ | ⟨c, hvisit, hc, hgo | ⟨hend, hlast⟩⟩
    · rw [List.filterMap_cons_none hvisit, ← hcursor]
      refine ⟨hidle, fun c hc => ?_⟩
      obtain ⟨k, hvisits, hafter⟩ := hrunning c hc
      refine ⟨k, hvisits, hafter.imp_right fun ⟨hnone, u, hu, hlast⟩ => ?_⟩
      exact ⟨hnone, u, List.mem_cons_of_mem t hu, hlast⟩
    · rw [List.filterMap_cons_some hvisit, hc]
      refine ⟨nofun, fun c' hc' => ?_⟩
      cases hc'
      obtain ⟨k, hvisits, hafter⟩ := hrunning (c + 1) hgo
      rw [Nat.add_assoc, Nat.add_comm 1 k] at hafter
      refine ⟨k + 1, by rw [hvisits, List.range'_succ], hafter.imp_right fun ⟨hnone, u, hu, hlast⟩ => ?_⟩
      exact ⟨hnone, u, List.mem_cons_of_mem t hu, hlast⟩
    · rw [List.filterMap_cons_some hvisit, hc]
      refine ⟨nofun, fun c' hc' => ?_⟩
      cases hc'
      obtain ⟨hnone, hafter⟩ := hidle hend
      have hlength : t.before.plots.length = c + 1 := by
        obtain ⟨-, c', hc', hlast⟩ := hlast
        cases hc.symm.trans hc'
        exact hlast.symm
      exact ⟨1, by rw [hnone]; rfl, Or.inr ⟨hafter, t, List.mem_cons_self, hlast, hlength⟩⟩

/-- **A hidden monitor goes quiet.** From any reachable state in which the monitor is hidden, and with
whatever is done short of starting, refreshing everything or showing it:

* in every state that it comes to, it is hidden, no further cycle has begun, no timer is pending, and firing the
  timer does nothing at any time;
* nobody is told that a cycle begins;
* if no cycle was running, no plot is visited; else the running cycle goes on through the plots from the cursor
  on, in order, each once, until it has visited the last plot that is registered by then;
* a call, a drawing, a wiping or telling about a refresh belongs to such a visit, or to a plot whose source was
  changed with a refresh at once.

It makes no difference whether a follow-up was waiting. Running a whole cycle begins with a refresh of
everything (`Run.of_runCycle`), and so that rouses the monitor, too. -/
theorem hidden_goes_quiet (hs : Reachable w s) (hv : s.visible = false) (h : Run w s turns s')
    (hops : ∀ t ∈ turns, t.operation.rouses = false) :
    (∀ x ∈ s :: turns.map Turn.after, x.visible = false ∧ x.cycleCount = s.cycleCount ∧ x.timer = none ∧
      ∀ time m, x.fireTimer w time m = ⟨[], m, some (x, false)⟩) ∧
    (∀ t ∈ turns, .cycleStart ∉ t.events) ∧
    ((s.cursor = none → turns.filterMap Turn.visit? = [] ∧ s'.cursor = none) ∧
      ∀ c, s.cursor = some c → ∃ k, turns.filterMap Turn.visit? = List.range' c k ∧
        (s'.cursor = some (c + k) ∨
          (s'.cursor = none ∧ ∃ t ∈ turns, t.VisitsLast ∧ t.before.plots.length = c + k))) ∧
    ∀ t ∈ turns, ∀ e ∈ t.events, e.IsAct →
      (∃ c, t.visit? = some c) ∨ ∃ plot source, t.operation = .changeSource plot source true := by
  have hquiet := h.quiet hs.sound hv hops
  have hstill : ∀ x : Scheduler, Sound x → x.visible = false → x.timer = none ∧
      ∀ time m, x.fireTimer w time m = ⟨[], m, some (x, false)⟩ := by
    intro x hx hhidden
    have htimer := hx.timer_eq_none hhidden
    exact ⟨htimer, fireTimer_eq_of_untimed htimer⟩
  refine ⟨List.forall_mem_cons.mpr ⟨⟨hv, rfl, hstill s hs.sound hv⟩, fun x hx => ?_⟩,
    fun t ht => (hquiet t ht).1.untold, h.visits_of_quiet fun t ht => (hquiet t ht).1, fun t ht e he hact => ?_⟩
  · obtain ⟨t, ht, rfl⟩ := List.mem_map.mp hx
    obtain ⟨hturn, hsound, hcount⟩ := hquiet t ht
    exact ⟨hturn.hidden, hcount, hstill t.after hsound hturn.hidden⟩
  · obtain ⟨hoccurs, -⟩ := h.mem hs.sound t ht
    exact hoccurs.act he hact

/-- Two plots are registered, a cycle stands before the second one, a follow-up waits, and nobody can see it. -/
def unseen : Scheduler :=
  { plots := [barePlot, barePlot], cursor := some 1, rerunRequested := true, visible := false, cycleCount := 1 }

theorem reachable_unseen : Reachable stillness unseen :=
  reachable_resumed.perform (.setVisible false) (m := ()) rfl

/-- The interval is set, and a step ends the cycle. -/
def fading : List Turn :=
  let timed : Scheduler := { unseen with interval := 5 }
  [⟨.setInterval 5, unseen, [], timed⟩,
    ⟨.step, timed, [], { timed with cursor := none, rerunRequested := false }⟩]

theorem fading_goes_quiet : Reachable stillness unseen ∧ unseen.visible = false ∧
    (∀ t ∈ fading, t.operation.rouses = false) ∧ fading.filterMap Turn.visit? = [1] ∧
    ∀ x ∈ unseen :: fading.map Turn.after, x.visible = false ∧ x.cycleCount = 1 ∧ x.timer = none ∧
      ∀ time m, x.fireTimer stillness time m = ⟨[], m, some (x, false)⟩ := by
  have hrun : Run stillness unseen fading { unseen with interval := 5, cursor := none, rerunRequested := false } :=
    .cons (t := fading[0]) ⟨(), (), rfl⟩ <| .cons (t := fading[1]) ⟨(), (), rfl⟩ (.nil _)
  have hops : ∀ t ∈ fading, t.operation.rouses = false := by decide
  exact ⟨reachable_unseen, rfl, hops, by decide, (hidden_goes_quiet reachable_unseen rfl hrun hops).1⟩

end HistogramMonitor.Scheduler
