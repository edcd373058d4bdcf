import Mathlib.Algebra.GroupWithZero.Nat
import Mathlib.Data.List.TakeWhile
import HistogramMonitor.Proofs.Scheduler.Visits
import HistogramMonitor.Proofs.Updater.Landing

/-!
# The last calls of a worker

A worker reads its mail only between two errands. So when it is told to stop while a call is in flight, that call
need not be the last one: the visit or the refresh that the call belongs to goes on to its end, and the commands
that were sent earlier are served first, refreshes included. That is all, and it is bounded
(`calls_after_shutdown`). It can be more than nothing, and so the call in flight is not in general the last
one (`calls_go_on_after_shutdown`).

The series of an errand are told by the state in which the worker sets to it (`Errand.series`), and they are
retrieved one after the other, up to the first from which nothing comes back (`Errand.retrieves`).
-/

namespace HistogramMonitor

variable {β σ : Type}

/-! ## What an errand asks for -/

/-- The series of the refresh that comes with a command, if one does. -/
def Command.series : Command → List SeriesSource
  | .changeSource _ source true => (source.map PlotSource.series).getD []
  | _ => []

/-- The series that the worker asks for on an errand: those of the plot that it visits for a cycle, or those of
the plot whose source it was told to change and refresh, if that is registered. -/
def Errand.series (s : Scheduler) : Errand → List SeriesSource
  | visit => (s.cursor.map s.series).getD []
  | serve (.changeSource plot source true) =>
    if plot < s.plots.length then (source.map PlotSource.series).getD [] else []
  | _ => []

section Retrieving

open Scheduler HistogramMonitor.Action

theorem calls_eq_nil_of_notices {α : Type} {x : Action σ α} (h : x.Emits Event.IsNotice) (m : σ) :
    calls (x m).events = [] :=
  calls_of_emits (h.mono fun _ => Event.IsNotice.silent) m

/-- A change of a source retrieves the series of the new one, if it refreshes a plot that is registered. -/
theorem Scheduler.changeSource_retrieves (w : Surroundings σ) (s : Scheduler) (plot : Nat)
    (source : Option PlotSource) (refreshNow : Bool) (m : σ) :
    Retrieves w s.defaultRuns s.defaultProgram (Errand.series s (.serve (.changeSource plot source refreshNow))) m
      (calls (s.changeSource w plot source refreshNow m).events) := by
  unfold changeSource
  cases hp : s.plots[plot]? with
  | none =>
    have hnot : ¬ plot < s.plots.length := Nat.not_lt.mpr (List.getElem?_eq_none_iff.mp hp)
    have hseries : Errand.series s (.serve (.changeSource plot source refreshNow)) = [] := by
      cases refreshNow with
      | false => rfl
      | true => exact if_neg hnot
    rw [hseries]
    exact .nil w _ _ m
  | some p =>
    have hlt : plot < s.plots.length := (List.getElem?_eq_some_iff.mp hp).1
    cases refreshNow with
    | false => exact .nil w _ _ m
    | true =>
      -- the visit finds the new source
      have hseries : Errand.series s (.serve (.changeSource plot source true)) =
          ({ s with plots := s.plots.set plot { p with source := source } } : Scheduler).series plot := by
        have hnew : (s.plots.set plot { p with source := source })[plot]? = some { p with source := source } :=
          List.getElem?_set_self hlt
        rw [Scheduler.series, source?, hnew]
        exact if_pos hlt
      rw [hseries]
      dsimp only
      rw [if_pos rfl, calls_bind_of_emits m fun _ => emits_pure _]
      exact visit_retrieves w { s with plots := s.plots.set plot { p with source := source } } plot m

/-- **What an errand asks for**, also if the worker dies on it: its series are retrieved, and there are no other
calls. -/
theorem Errand.retrieves (w : Surroundings σ) (errand : Errand) (s : Scheduler) (m : σ) :
    Retrieves w s.defaultRuns s.defaultProgram (errand.series s) m (calls (errand.action w s m).events) := by
  have hsilent : ∀ op : Operation, op.refreshes? s = none →
      Retrieves w s.defaultRuns s.defaultProgram [] m (calls (op.perform w s m).events) := by
    intro op hop
    rw [calls_eq_nil_of_notices (perform_emits w hop)]
    exact .nil w _ _ m
  cases errand with
  | visit =>
    cases hc : s.cursor with
    | none =>
      rw [Errand.series, hc]
      exact hsilent .step hc
    | some c =>
      rw [Errand.series, hc]
      change Retrieves w _ _ (s.series c) m (calls (s.step w m).events)
      rw [calls_step_eq w hc]
      exact visit_retrieves w s c m
  | wake =>
    have hwake : (Errand.wake.action w s).Emits Event.IsNotice := by
      have hfire : ∀ t, (Operation.perform w (.fireTimer t) s).Emits Event.IsNotice := fun t => perform_emits w rfl
      refine Emits.bind (fun m e he => ?_) hfire
      cases he
    rw [calls_eq_nil_of_notices hwake]
    exact .nil w _ _ m
  | serve c =>
    cases c with
    | changeSource plot source refreshNow =>
      have hcalls : calls ((Errand.serve (.changeSource plot source refreshNow)).action w s m).events =
          calls (s.changeSource w plot source refreshNow m).events := by
        refine calls_bind_of_emits m fun r => ?_
        cases r with
        | some s' => exact emits_pure _
        | none => exact (emits_diagnose (P := fun e => e.call? = none) rfl).bind fun _ => emits_pure _
      rw [hcalls]
      exact s.changeSource_retrieves w plot source refreshNow m
    | start interval => exact hsilent (.start interval) rfl
    | refreshAll => exact hsilent .refreshAll rfl
    | setInterval interval => exact hsilent (.setInterval interval) rfl
    | setVisible visible => exact hsilent (.setVisible visible) rfl
    | addPlot | setDefaultRuns | setDefaultProgram => exact .nil w _ _ m

end Retrieving

/-! ## What a move asks for -/

section Moves

variable {w : Surroundings (Desk β)} {t : Move β} {errand : Errand} {x y : Scene β} {moves : List (Move β)}

/-- With this move the worker retrieves the series of an errand, with the defaults that are in force where it sets to
it, and asks for nothing else. -/
def Move.Retrieves (w : Surroundings (Desk β)) (t : Move β) (errand : Errand) : Prop :=
  ∃ s, t.before.updater.worker = .running s ∧
    HistogramMonitor.Retrieves w s.defaultRuns s.defaultProgram (errand.series s) t.before.updater.desk
      (calls t.events)

theorem Move.Occurs.retrieves (h : t.Occurs w) (ht : t.errand? = some errand) : t.Retrieves w errand := by
  have hrunning : ∃ s, t.before.updater.worker = .running s := by
    cases h.kind with
    | returns | dies => exact ⟨_, rfl⟩
    | posts | takes | stops | departs | expires => cases ht
  obtain ⟨s, hs⟩ := hrunning
  refine ⟨s, hs, ?_⟩
  rw [h.events_eq ht hs]
  exact errand.retrieves w s _

/-- Without an errand nothing is seen of a move. -/
theorem Move.Occurs.events_eq_nil (h : t.Occurs w) (ht : t.errand? = none) : t.events = [] := by
  cases h.kind with
  | posts | takes | stops | departs | expires => rfl
  | returns | dies => cases ht

theorem History.occurs (h : History w x moves y) : ∀ t ∈ moves, t.Occurs w := by
  intro t ht
  obtain ⟨earlier, later, rfl⟩ := List.append_of_mem ht
  exact h.split.2.1

/-- A move that is no visit for a cycle makes at most two calls for each series of the command that it
serves. -/
theorem Move.Occurs.calls_le (h : t.Occurs w) (ht : t.errand? ≠ some .visit) :
    (calls t.events).length ≤ 2 * ((served [t]).map fun c => c.series.length).sum := by
  rw [served_singleton]
  cases herrand : t.errand? with
  | none =>
    rw [h.events_eq_nil herrand]
    exact Nat.zero_le _
  | some errand =>
    obtain ⟨s, -, hretrieves⟩ := h.retrieves herrand
    have hle := hretrieves.length_le
    cases errand with
    | visit => exact absurd herrand ht
    | wake => exact hle
    | serve c =>
      have hseries : (Errand.series s (.serve c)).length ≤ c.series.length := by
        unfold Errand.series
        split
        · rename_i hsame
          cases hsame
        · rename_i hsame
          cases hsame
          split
          · exact Nat.le_refl _
          · exact Nat.zero_le _
        · exact Nat.zero_le _
      exact Nat.le_trans hle (Nat.mul_le_mul_left 2 (by simpa [Errand.command?] using hseries))

theorem calls_le_of_served (hmoves : ∀ t ∈ moves, t.Occurs w) (hvisit : .visit ∉ errands moves) :
    (calls (moves.flatMap (·.events))).length ≤ 2 * ((served moves).map fun c => c.series.length).sum := by
  induction moves with
  | nil => exact Nat.le_refl 0
  | cons t moves ih =>
    obtain ⟨ht, hmoves⟩ := List.forall_mem_cons.mp hmoves
    rw [← List.singleton_append, errands_append, List.mem_append, not_or, errands_singleton,
      Option.mem_toList] at hvisit
    have hfirst := ht.calls_le hvisit.1
    have hrest := ih hmoves hvisit.2
    rw [List.flatMap_cons, calls_append, List.length_append, ← List.singleton_append (l := moves), served_append,
      List.map_append, List.sum_append]
    omega

end Moves

/-! ## Behind the message to stop -/

/-- The commands that a worker comes to before it is told to stop. -/
def commandsAhead (msgs : List Message) : List Command := commands (msgs.takeWhile (· ≠ .shutdown))

variable {w : Surroundings β} {meanwhile : β → Call → List Message} {x y : Scene β} {t : Move β}
  {moves : List (Move β)}

/-- A worker serves nothing that stands behind the message to stop. -/
theorem Delivery.served_prefix (h : Delivery x moves y) (hstop : .shutdown ∈ x.pending) :
    served moves <+: commandsAhead x.pending := by
  have hahead : (x.pending ++ arrivals moves).takeWhile (· ≠ .shutdown) =
      x.pending.takeWhile (· ≠ .shutdown) := by
    rw [List.takeWhile_append, if_neg]
    intro hall
    have hwhole := (List.takeWhile_prefix (l := x.pending) (· ≠ .shutdown)).eq_of_length hall
    simpa using List.takeWhile_eq_self_iff.mp hwhole _ hstop
  have hserved : ∀ msg ∈ (served moves).map Message.request, decide (msg ≠ .shutdown) = true := by
    intro msg hmsg
    obtain ⟨c, -, rfl⟩ := List.mem_map.mp hmsg
    rfl
  rw [h.pending, List.takeWhile_append_of_pos hserved] at hahead
  rw [commandsAhead, ← hahead, commands_append, commands_map_request]
  exact List.prefix_append _ _

/-- With a message to stop in its mailbox, a worker that is on no errand goes on none any more but to serve a
command. -/
theorem History.exists_serve (hs : x.Sound) (hback : x.errand = none) (hstop : .shutdown ∈ x.pending)
    (h : History (w.withMail meanwhile) x moves y) : ∀ errand ∈ errands moves, ∃ c, errand = .serve c := by
  have hcount := h.unbidden_le hs hstop
  rw [Scene.unbidden_eq_zero hback] at hcount
  have hnone := List.countP_eq_zero.mp (Nat.le_zero.mp (Nat.le_trans (Nat.le_add_right _ _) hcount))
  intro errand herrand
  cases errand with
  | serve c => exact ⟨c, rfl⟩
  | visit | wake => exact absurd rfl (hnone _ herrand)

/-- **The last calls of a worker.** Let the handle be dropped while the worker is on an errand, and so while a call
is in flight.

* The errand goes on to its end. Its series are retrieved one after the other, up to the first from which nothing
  comes back, each with one call, or two if the first reply was cut short. There are no other calls.
* After that the worker serves only commands that were sent before the handle was dropped, oldest first. It makes
  no visit for a cycle, and does not look at the clock.
* A command that it serves has its refresh, and that goes on to its end as well. Else no call is made. All
  in all there are at most two calls for each series of the commands that were sent before.
* The worker is not stuck, and stops after so many looks into its mailbox as there are messages before the one
  to stop. -/
theorem calls_after_shutdown {s₀ : Scheduler} {outside : β} {earlier later : List (Move β)} {errand : Errand}
    (h : History (w.withMail meanwhile) (.spawn s₀ outside) (earlier ++ t :: later) x)
    (herrand : t.errand? = some errand) (hstop : .shutdown ∈ t.arrivals) :
    t.Retrieves (w.withMail meanwhile) errand ∧
    served later <+: commandsAhead t.after.mailbox.queue ∧ .visit ∉ errands later ∧ .wake ∉ errands later ∧
    (∀ u ∈ later, (u.errand? = none ∧ calls u.events = []) ∨
      ∃ c, u.errand? = some (.serve c) ∧ u.Retrieves (w.withMail meanwhile) (.serve c)) ∧
    (calls (later.flatMap (·.events))).length ≤
      2 * ((commandsAhead t.after.mailbox.queue).map fun c => c.series.length).sum ∧
    (x.updater.alive → (x.look.isSome ∨ (x.work (w.withMail meanwhile)).isSome) ∧
      later.countP (·.deed = .look) ≤ t.after.mailbox.queue.idxOf .shutdown) ∧
    later.countP (·.deed = .look) ≤ t.after.mailbox.queue.idxOf .shutdown + 1 := by
  obtain ⟨hafter, hpending⟩ := h.shutdown_pending (sound_spawn s₀ outside) hstop
  obtain ⟨-, ht, hlater⟩ := h.split
  have hback : t.after.errand = none := ht.errand_eq_none (herrand ▸ nofun)
  have hqueue : t.after.pending = t.after.mailbox.queue := by
    rw [Scene.pending, hback]
    rfl
  have hdelivery := (hlater.mail hafter).2
  have hserved : served later <+: commandsAhead t.after.mailbox.queue := hqueue ▸ hdelivery.served_prefix hpending
  have hserve := hlater.exists_serve hafter hback hpending
  have hvisit : .visit ∉ errands later := fun hmem => by
    obtain ⟨c, hc⟩ := hserve _ hmem
    cases hc
  have hwake : .wake ∉ errands later := fun hmem => by
    obtain ⟨c, hc⟩ := hserve _ hmem
    cases hc
  have hlooks := hlater.looks_le hafter hpending
  have hleft := t.after.looksLeft_le
  refine ⟨ht.retrieves herrand, hserved, hvisit, hwake, fun u hu => ?_, ?_, fun halive => ⟨?_, ?_⟩, by omega⟩
  · have hoccurs := hlater.occurs u hu
    cases hue : u.errand? with
    | none => exact Or.inl ⟨rfl, congrArg calls (hoccurs.events_eq_nil hue)⟩
    | some errand =>
      obtain ⟨c, rfl⟩ := hserve errand (List.mem_filterMap.mpr ⟨u, hu, hue⟩)
      exact Or.inr ⟨c, rfl, hoccurs.retrieves hue⟩
  · have hle := calls_le_of_served hlater.occurs hvisit
    obtain ⟨unserved, hsplit⟩ := hserved
    rw [← hsplit, List.map_append, List.sum_append]
    exact Nat.le_trans hle (Nat.mul_le_mul_left 2 (Nat.le_add_right _ _))
  · exact Scene.goes_on _ (hdelivery.shutdown (List.mem_append_left _ hpending)) halive
  · -- a worker that is not gone has a look left
    have hlook : 0 < x.looksLeft := by
      rw [Scene.looksLeft, if_pos halive]
      exact Nat.succ_pos _
    omega

/-! ## A worker that goes on -/

/-- The same histogram comes back for everybody, and the calls are counted. -/
def tally : Surroundings Nat where
  answer n _ :=
    { reply := .bytes (Envelope.wrap Envelope.histogramType Scheduler.emptySeries.encode), next := n + 1 }
  now n := (⟨n⟩, n)

/-- The plot is given its source once more, with a refresh at once, and then the handle is dropped. -/
def parting : List Message := [.request (.changeSource 0 Scheduler.pair true), .shutdown]

/-- That happens while the first call is in flight. -/
def leave (n : Nat) (_ : Call) : List Message := if n = 0 then parting else []

/-- A plot is visited, and what was sent meanwhile is dealt with. -/
def lastOrders : List Deed := [.post (.request .refreshAll), .look, .work, .look, .work, .look, .work, .look]

/-- Both series of the plot are asked for. -/
def bothSeries : List Call :=
  [Client.request "A" [0] standardProgram, Client.request "B" [0] standardProgram]

/-- The visit asks for the second series as well, and then comes the refresh. -/
theorem history_of_lastOrders : ∃ earlier t later x,
    History (tally.withMail leave) (.spawn (Scheduler.pointed Scheduler.pair) 0) (earlier ++ t :: later) x ∧
    t.errand? = some .visit ∧ t.arrivals = parting ∧ t.before.updater.desk.outside = 0 ∧
    commandsAhead t.after.mailbox.queue = [.changeSource 0 Scheduler.pair true] ∧ calls t.events = bothSeries ∧
    (later.map fun u => calls u.events) = [[], bothSeries, []] ∧ x.updater.alive = false := by
  have hplayed : (play (tally.withMail leave) lastOrders (.spawn (Scheduler.pointed Scheduler.pair) 0)).any
      (fun p => (p.1[4]?.any fun t => t.errand? = some .visit ∧ t.arrivals = parting ∧
          t.before.updater.desk.outside = 0 ∧
          commandsAhead t.after.mailbox.queue = [.changeSource 0 Scheduler.pair true] ∧
          calls t.events = bothSeries) ∧
        ((p.1.drop 5).map fun u => calls u.events) = [[], bothSeries, []] ∧ p.2.updater.alive = false) = true := by
    decide +kernel
  obtain ⟨⟨moves, x⟩, hplay, hresults⟩ := (Option.any_eq_true _ _).mp hplayed
  obtain ⟨hmove, hlater⟩ := of_decide_eq_true hresults
  obtain ⟨t, ht, hresults⟩ := (Option.any_eq_true _ _).mp hmove
  obtain ⟨hlt, rfl⟩ := List.getElem?_eq_some_iff.mp ht
  obtain ⟨hvisit, harrivals, houtside, hahead, hcalls⟩ := of_decide_eq_true hresults
  refine ⟨moves.take 4, moves[4], moves.drop 5, x, ?_, hvisit, harrivals, houtside, hahead, hcalls, hlater⟩
  rw [← List.drop_eq_getElem_cons, List.take_append_drop]
  exact history_of_play hplay

/-- The visit and the refresh go on to their ends, and nothing comes between them and the end of the worker. -/
theorem calls_of_lastOrders : ∃ earlier t later x,
    History (tally.withMail leave) (.spawn (Scheduler.pointed Scheduler.pair) 0) (earlier ++ t :: later) x ∧
    t.errand? = some .visit ∧ .shutdown ∈ t.arrivals ∧ x.updater.alive = false ∧
    calls t.events = bothSeries ∧ t.Retrieves (tally.withMail leave) .visit ∧
    (later.map fun u => calls u.events) = [[], bothSeries, []] ∧
    served later <+: [.changeSource 0 Scheduler.pair true] ∧ .visit ∉ errands later ∧ .wake ∉ errands later ∧
    (calls (later.flatMap (·.events))).length ≤ 4 := by
  obtain ⟨earlier, t, later, x, h, hvisit, harrivals, -, hahead, hcalls, hlater, hgone⟩ := history_of_lastOrders
  have hstop : .shutdown ∈ t.arrivals := harrivals ▸ List.mem_cons_of_mem _ List.mem_cons_self
  obtain ⟨hretrieves, hserved, hnoVisit, hnoWake, -, hbound, -⟩ := calls_after_shutdown h hvisit hstop
  rw [hahead] at hserved hbound
  exact ⟨earlier, t, later, x, h, hvisit, hstop, hgone, hcalls, hretrieves, hlater, hserved, hnoVisit, hnoWake, hbound⟩

/-- The call in flight need not be the last one: a visit with two series makes its second call after the handle
was dropped during the first one. -/
theorem calls_go_on_after_shutdown : ¬ ∀ (w : Surroundings Nat) (meanwhile : Nat → Call → List Message)
    (s₀ : Scheduler) (outside : Nat) (earlier later : List (Move Nat)) (t : Move Nat) (x : Scene Nat) (c : Call)
    (rest : List Call), History (w.withMail meanwhile) (.spawn s₀ outside) (earlier ++ t :: later) x →
      calls t.events = c :: rest → .shutdown ∈ meanwhile t.before.updater.desk.outside c →
      rest = [] ∧ ∀ u ∈ later, calls u.events = [] := by
  intro hlast
  obtain ⟨earlier, t, later, x, h, -, -, houtside, -, hcalls, -⟩ := history_of_lastOrders
  have hstop : .shutdown ∈ leave t.before.updater.desk.outside (Client.request "A" [0] standardProgram) := by
    rw [houtside]
    exact List.mem_cons_of_mem _ List.mem_cons_self
  obtain ⟨hrest, -⟩ := hlast _ _ _ _ _ _ _ _ _ _ h hcalls hstop
  cases hrest

end HistogramMonitor
