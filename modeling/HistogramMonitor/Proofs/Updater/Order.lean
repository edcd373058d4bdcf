import HistogramMonitor.Proofs.Scheduler.Run
import HistogramMonitor.Proofs.Updater.History

/-!
# The order of commands

A worker serves the commands in the order in which they were sent, each of them once, and a worker that was
told to stop has served all that were sent before (`commands_in_order`).

* What the worker does to its scheduler is a run of the scheduler, with one operation for every errand
  (`History.run`).
* A message to stop is never overtaken and never lost. Once it is there, the worker sets out for no visit any more,
  and not to look at the clock either (`History.unbidden_le`), and every look brings it nearer to the message
  (`History.looks_le`).
* A worker that is gone changes nothing any more (`Move.Occurs.gone`).
-/

namespace HistogramMonitor

variable {β : Type}

/-! ## What the scheduler goes through -/

/-- The errand that an operation is. Nobody sends a receiver away. -/
def Scheduler.Operation.errand? : Scheduler.Operation → Option Errand
  | .addPlot p => some (.serve (.addPlot p))
  | .changeSource plot source refreshNow => some (.serve (.changeSource plot source refreshNow))
  | .setDefaultRuns runs => some (.serve (.setDefaultRuns runs))
  | .setDefaultProgram program => some (.serve (.setDefaultProgram program))
  | .start interval => some (.serve (.start interval))
  | .refreshAll => some (.serve .refreshAll)
  | .setInterval interval => some (.serve (.setInterval interval))
  | .setVisible visible => some (.serve (.setVisible visible))
  | .fireTimer _ => some .wake
  | .step => some .visit
  | .loseReceiver => none

section Run

open Scheduler HistogramMonitor.Action

variable {w : Surroundings (Desk β)} {x y : Scene β} {moves : List (Move β)}

/-- Where the worker is when it sets to work: it may have looked at the clock. -/
def Errand.outset (w : Surroundings (Desk β)) : Errand → Desk β → Desk β
  | wake, d => (w.now d).2
  | _, d => d

/-- An errand that the worker returns from is an operation on its scheduler. -/
theorem Errand.exists_perform {errand : Errand} {s s' : Scheduler} {d d' : Desk β} {es : List Event}
    (h : errand.action w s d = ⟨es, d', some s'⟩) :
    ∃ op es', Operation.errand? op = some errand ∧
      op.perform w s (errand.outset w d) = ⟨es', d', some s'⟩ := by
  cases errand with
  | visit => exact ⟨.step, es, rfl, h⟩
  | wake =>
    obtain ⟨es₁, d₁, t, es₂, hnow, hfire, rfl⟩ := bind_eq_some h
    cases hnow
    exact ⟨.fireTimer (w.now d).1, es₂, rfl, hfire⟩
  | serve c =>
    cases c with
    | addPlot p => exact ⟨.addPlot p, es, rfl, h⟩
    | setDefaultRuns runs => exact ⟨.setDefaultRuns runs, es, rfl, h⟩
    | setDefaultProgram program => exact ⟨.setDefaultProgram program, es, rfl, h⟩
    | start interval => exact ⟨.start interval, es, rfl, h⟩
    | refreshAll => exact ⟨.refreshAll, es, rfl, h⟩
    | setInterval interval => exact ⟨.setInterval interval, es, rfl, h⟩
    | setVisible visible => exact ⟨.setVisible visible, es, rfl, h⟩
    | changeSource plot source refreshNow =>
      obtain ⟨es₁, d₁, r, es₂, hchange, hrest, rfl⟩ := bind_eq_some h
      have hvalue : r.getD s = s' ∧ d' = d₁ := by
        cases r with
        | some s₁ =>
          obtain ⟨-, hd, rfl⟩ := pure_eq_some hrest
          exact ⟨rfl, hd⟩
        | none =>
          -- the refusal is logged, and the scheduler stays as it was
          obtain ⟨es₃, d₃, u, es₄, hlog, hpure, -⟩ := bind_eq_some hrest
          cases hlog
          obtain ⟨-, hd, rfl⟩ := pure_eq_some hpure
          exact ⟨rfl, hd⟩
      obtain ⟨hvalue, rfl⟩ := hvalue
      refine ⟨.changeSource plot source refreshNow, es₁ ++ [], rfl, ?_⟩
      change (s.changeSource w plot source refreshNow >>= fun r => pure (r.getD s)) d = _
      rw [bind_apply, hchange, ← hvalue]
      rfl

/-- An errand that the worker returns from is a turn of its scheduler. -/
theorem Errand.exists_turn {errand : Errand} {s s' : Scheduler} {d d' : Desk β} {es : List Event}
    (h : errand.action w s d = ⟨es, d', some s'⟩) :
    ∃ t : Turn, t.Occurs w ∧ t.before = s ∧ t.after = s' ∧ t.operation.errand? = some errand := by
  obtain ⟨op, es', herrand, hperform⟩ := Errand.exists_perform h
  exact ⟨⟨op, s, es', s'⟩, ⟨_, _, hperform⟩, rfl, rfl, herrand⟩

/-- **What the scheduler of a worker goes through** is a run, with one operation for every errand of the
worker. -/
theorem History.run {s₀ : Scheduler} (h : History w x moves y) (hx : x.updater.worker = .running s₀) :
    y.updater.worker ≠ .dead → ∃ s turns, Run w s₀ turns s ∧
      turns.map (·.operation.errand?) = (errands moves).map some ∧
      (y.updater.alive → y.updater.worker = .running s) := by
  induction h with
  | nil => exact fun _ => ⟨s₀, [], .nil s₀, rfl, fun _ => hx⟩
  | @snoc moves t _ ht ih =>
    intro hdead
    rw [errands_append, errands_singleton]
    -- most moves leave the scheduler alone
    have haside : t.errand? = none → t.after.updater.worker = t.before.updater.worker →
        ∃ s turns, Run w s₀ turns s ∧
          turns.map (·.operation.errand?) = (errands moves ++ t.errand?.toList).map some ∧
          (t.after.updater.alive → t.after.updater.worker = .running s) := by
      intro hnone hsame
      obtain ⟨s, turns, hrun, hmap, hrunning⟩ := ih (hsame ▸ hdead)
      refine ⟨s, turns, hrun, ?_, ?_⟩
      · rw [hnone, Option.toList_none, List.append_nil, hmap]
      · simpa only [Updater.alive, hsame] using hrunning
    cases ht.kind with
    | posts | takes | departs | expires => exact haside rfl rfl
    | stops s queue =>
      obtain ⟨s', turns, hrun, hmap, -⟩ := ih fun h => by cases h
      exact ⟨s', turns, hrun, hmap.trans (congrArg (List.map some) (List.append_nil _).symm), fun h => by cases h⟩
    | @returns errand s s' d d' es done =>
      obtain ⟨s₁, turns, hrun, hmap, hrunning⟩ := ih fun h => by cases h
      obtain rfl : s = s₁ := Worker.running.inj (hrunning rfl)
      obtain ⟨u, hu, rfl, rfl, herrand⟩ := Errand.exists_turn done
      refine ⟨u.after, turns ++ [u], hrun.append (.cons hu (.nil _)), ?_, fun _ => rfl⟩
      rw [List.map_append, List.map_append, hmap, List.map_singleton, herrand]
      rfl
    | dies => exact absurd rfl hdead

end Run

/-! ## The end of a worker -/

variable {w : Surroundings β} {meanwhile : β → Call → List Message} {x y : Scene β} {t : Move β}
  {moves more : List (Move β)}

/-- A worker that is gone changes nothing any more, and whatever is sent to it is refused. -/
theorem Move.Occurs.gone (hs : t.before.Sound) (hgone : t.before.updater.alive = false)
    (h : t.Occurs (w.withMail meanwhile)) :
    t.after = t.before ∧ t.errand? = none ∧ t.deed ≠ .look ∧ ∀ z ∈ t.sendings, z.result = .refused := by
  cases h.kind with
  | posts msg x =>
    have hpost := Mailbox.postAll_singleton msg x.mailbox
    rw [Mailbox.postAll_of_closed (hs.receiving.trans hgone)] at hpost
    refine ⟨?_, rfl, nofun, ?_⟩
    · rw [← hpost]
      rfl
    · change ∀ z ∈ (x.mailbox.post msg).2, _
      rw [← hpost]
      intro z hz
      obtain ⟨c, -, rfl⟩ := List.mem_map.mp hz
      rfl
  | takes | stops | departs | expires | returns | dies => cases hgone

theorem History.gone (hs : x.Sound) (hgone : x.updater.alive = false)
    (h : History (w.withMail meanwhile) x moves y) :
    y = x ∧ ∀ u ∈ moves, u.errand? = none ∧ u.deed ≠ .look ∧ ∀ z ∈ u.sendings, z.result = .refused := by
  induction h with
  | nil => exact ⟨rfl, List.forall_mem_nil _⟩
  | @snoc moves u _ hu ih =>
    obtain ⟨hsame, hall⟩ := ih
    obtain ⟨hafter, hu⟩ := hu.gone (hsame ▸ hs) (hsame ▸ hgone)
    refine ⟨hafter.trans hsame, fun v hv => ?_⟩
    rcases List.mem_append.mp hv with hv | hv
    · exact hall v hv
    · rw [List.mem_singleton.mp hv]
      exact hu

/-- A worker stops because it was told to. -/
theorem History.stopped (hs : x.Sound) (hx : x.updater.alive)
    (h : History (w.withMail meanwhile) x moves y) :
    y.updater.worker = .stopped → ∃ rest, y.pending = .shutdown :: rest := by
  induction h with
  | nil =>
    intro hstopped
    rw [Updater.alive, hstopped] at hx
    cases hx
  | @snoc moves t hmoves ht ih =>
    intro hstopped
    cases hbefore : t.before.updater.alive with
    | false =>
      obtain ⟨hsame, -⟩ := ht.gone (hmoves.mail hs).1 hbefore
      rw [hsame] at hstopped ⊢
      exact ih hstopped
    | true =>
      cases ht.kind with
      | posts msg x =>
        rw [Updater.alive, show x.updater.worker = .stopped from hstopped] at hbefore
        cases hbefore
      | @stops s d rest queue => exact ⟨rest, queue⟩
      | takes | departs | expires | returns | dies => cases hstopped

/-! ## Once the worker was told to stop -/

/-- An errand for which nobody has sent: a visit, or a look at the clock. -/
def Errand.unbidden (errand : Errand) : Bool := errand.command?.isNone

/-- Whether the worker has set out on an errand for which nobody has sent. -/
def Scene.unbidden (x : Scene β) : Nat := x.errand.toList.countP Errand.unbidden

/-- The looks into the mailbox that are left until the worker is told to stop, where it will be. -/
def Scene.looksLeft (x : Scene β) : Nat :=
  if x.updater.alive then x.mailbox.queue.idxOf .shutdown + 1 else 0

/-- There are no more looks left than messages up to the one to stop. -/
theorem Scene.looksLeft_le (x : Scene β) : x.looksLeft ≤ x.mailbox.queue.idxOf .shutdown + 1 := by
  unfold looksLeft
  split
  · exact Nat.le_refl _
  · exact Nat.zero_le _

/-- A message to stop is in the mailbox, never in hand. -/
theorem Scene.shutdown_mem_iff : .shutdown ∈ x.pending ↔ .shutdown ∈ x.mailbox.queue := by
  simp [pending]

theorem Delivery.shutdown (h : Delivery x moves y) (hx : .shutdown ∈ x.pending ++ arrivals moves) :
    .shutdown ∈ y.pending := by
  rw [h.pending] at hx
  simpa using hx

/-- With the move in which a message to stop arrives it is there. -/
theorem History.shutdown_pending {earlier later : List (Move β)} (hs : x.Sound)
    (h : History (w.withMail meanwhile) x (earlier ++ t :: later) y) (hstop : .shutdown ∈ t.arrivals) :
    t.after.Sound ∧ .shutdown ∈ t.after.pending := by
  obtain ⟨hearlier, ht, -⟩ := h.split
  obtain ⟨hafter, harrived⟩ := (History.single ht).mail (hearlier.mail hs).1
  exact ⟨hafter, harrived.shutdown (List.mem_append_right _ ((arrivals_singleton t).symm ▸ hstop))⟩

/-- With a message to stop in its mailbox, a worker sets out on no errand but those for which somebody has sent. -/
theorem Move.Occurs.unbidden_le (hstop : .shutdown ∈ t.before.pending) (h : t.Occurs (w.withMail meanwhile)) :
    (errands [t]).countP Errand.unbidden + t.after.unbidden ≤ t.before.unbidden := by
  rw [errands_singleton]
  cases h.kind with
  | posts msg x => exact Nat.le_of_eq (Nat.zero_add _)
  | departs queue | expires queue =>
    rw [Scene.shutdown_mem_iff] at hstop
    exact absurd hstop (queue ▸ List.not_mem_nil)
  | takes | stops => exact Nat.le_refl 0
  | returns | dies => exact Nat.le_refl _

theorem History.unbidden_le (hs : x.Sound) (hstop : .shutdown ∈ x.pending)
    (h : History (w.withMail meanwhile) x moves y) :
    (errands moves).countP Errand.unbidden + y.unbidden ≤ x.unbidden := by
  induction h with
  | nil => exact Nat.le_of_eq (Nat.zero_add _)
  | @snoc moves t hmoves ht ih =>
    obtain ⟨-, hdelivery⟩ := hmoves.mail hs
    have hone := ht.unbidden_le (hdelivery.shutdown (List.mem_append_left _ hstop))
    rw [errands_append, List.countP_append]
    omega

/-- A worker that comes back from an errand is on none. -/
theorem Scene.unbidden_eq_zero (hback : x.errand = none) : x.unbidden = 0 := by
  rw [unbidden, hback]
  rfl

/-- A worker does one errand in a move at the most, and is on none when it comes back from one. -/
theorem Move.Occurs.unbidden_le_one (h : t.Occurs (w.withMail meanwhile)) :
    (errands [t]).countP Errand.unbidden + t.after.unbidden ≤ 1 := by
  have hone : ∀ o : Option Errand, o.toList.countP Errand.unbidden ≤ 1 :=
    fun o => Nat.le_trans List.countP_le_length Option.length_toList_le
  rw [errands_singleton]
  cases herrand : t.errand? with
  | none =>
    rw [Option.toList_none, List.countP_nil, Nat.zero_add]
    exact hone t.after.errand
  | some errand =>
    rw [Scene.unbidden_eq_zero (h.errand_eq_none (herrand ▸ nofun))]
    exact hone (some errand)

/-- A visit is one of the errands for which nobody has sent. -/
theorem count_visit_le (all : List Errand) : all.count .visit ≤ all.countP Errand.unbidden := by
  refine List.countP_mono_left fun errand _ h => ?_
  obtain rfl := eq_of_beq h
  rfl

/-- With a message to stop in its mailbox, every look brings a worker nearer to it. -/
theorem Move.Occurs.looks_le (hs : t.before.Sound) (hstop : .shutdown ∈ t.before.pending)
    (h : t.Occurs (w.withMail meanwhile)) :
    [t].countP (·.deed = .look) + t.after.looksLeft ≤ t.before.looksLeft := by
  rw [Scene.shutdown_mem_iff] at hstop
  have hkept : t.deed ≠ .look → t.after.mailbox.queue.idxOf .shutdown =
      t.before.mailbox.queue.idxOf .shutdown := by
    intro hlook
    rw [(h.mail hs).2.queue hlook, List.idxOf_append, if_pos hstop]
  unfold Scene.looksLeft
  cases h.kind with
  | posts msg x =>
    rw [hkept nofun]
    exact Nat.le_of_eq (Nat.zero_add _)
  | departs queue cycling => exact absurd hstop (queue ▸ List.not_mem_nil)
  | @takes s d c rest queue =>
    have hhead : d.mailbox.queue.idxOf .shutdown = rest.idxOf .shutdown + 1 := by
      rw [queue, List.idxOf_cons]
      rfl
    change 1 + (rest.idxOf .shutdown + 1) ≤ d.mailbox.queue.idxOf .shutdown + 1
    omega
  | @stops s d => exact Nat.le_add_left 1 (d.mailbox.queue.idxOf .shutdown)
  | expires => exact Nat.le_of_eq (Nat.zero_add _)
  | returns done =>
    rw [hkept nofun]
    exact Nat.le_of_eq (Nat.zero_add _)
  | dies => exact Nat.zero_le _

theorem History.looks_le (hs : x.Sound) (hstop : .shutdown ∈ x.pending)
    (h : History (w.withMail meanwhile) x moves y) :
    moves.countP (·.deed = .look) + y.looksLeft ≤ x.looksLeft := by
  induction h with
  | nil => exact Nat.le_of_eq (Nat.zero_add _)
  | @snoc moves t hmoves ht ih =>
    obtain ⟨hsound, hdelivery⟩ := hmoves.mail hs
    have hone := ht.looks_le hsound (hdelivery.shutdown (List.mem_append_left _ hstop))
    rw [List.countP_append]
    omega

/-- A worker with a message to stop in its mailbox is never stuck: it can do its errand, or look. -/
theorem Scene.goes_on (w : Surroundings (Desk β)) (hstop : .shutdown ∈ x.pending)
    (halive : x.updater.alive) : x.look.isSome ∨ (x.work w).isSome := by
  rw [shutdown_mem_iff] at hstop
  obtain ⟨⟨worker, d⟩, errand⟩ := x
  cases worker with
  | running s =>
    cases errand with
    | some errand => exact Or.inr rfl
    | none =>
      left
      change .shutdown ∈ d.mailbox.queue at hstop
      unfold look
      dsimp only
      rcases hqueue : d.mailbox.queue with _ | ⟨_ | _, rest⟩
      · rw [hqueue] at hstop
        cases hstop
      · rfl
      · rfl
  | stopped | dead => cases halive

/-! ## In the order of their sending -/

/-- **Commands are served in the order in which they were sent**, each of them once, whatever the backend
answers, whenever waits end, and however the moves of handle and worker come after each other.

* The commands that were sent and not refused are those that were served, and then those that are still to be
  dealt with. The same holds of all messages, the one to stop included.
* Unless the worker has died, what its scheduler went through is a run with one operation for every errand,
  and so with one for every command that was served.
* A worker that has stopped has served all that had arrived before the message to stop.
* From the move on with which a message to stop arrives, there is at most one visit for a running cycle. The
  worker is not stuck, and stops after so many looks as there are messages before that one. -/
theorem commands_in_order {s₀ : Scheduler} {outside : β}
    (h : History (w.withMail meanwhile) (.spawn s₀ outside) moves x) :
    (sent moves).map Sending.command = served moves ++ commands x.pending ∧
    arrivals moves = (served moves).map .request ++ x.pending ∧
    (x.updater.worker ≠ .dead → ∃ s turns, Scheduler.Run (w.withMail meanwhile) s₀ turns s ∧
      turns.map (·.operation.errand?) = (errands moves).map some ∧
      (x.updater.alive → x.updater.worker = .running s)) ∧
    (x.updater.worker = .stopped →
      ∃ rest, arrivals moves = (served moves).map .request ++ .shutdown :: rest) ∧
    ∀ earlier t later, moves = earlier ++ t :: later → .shutdown ∈ t.arrivals →
      (errands (t :: later)).count .visit ≤ 1 ∧
      (x.updater.alive → x.look.isSome ∨ (x.work (w.withMail meanwhile)).isSome) ∧
      later.countP (·.deed = .look) ≤ t.after.mailbox.queue.idxOf .shutdown + 1 := by
  have hs := sound_spawn s₀ outside
  obtain ⟨-, hdelivery⟩ := h.mail hs
  have harrivals := hdelivery.arrivals_eq rfl
  refine ⟨?_, harrivals, h.run rfl, fun hstopped => ?_, ?_⟩
  · rw [hdelivery.sent, map_command_answers, hdelivery.commands_eq rfl]
  · obtain ⟨rest, hrest⟩ := h.stopped hs rfl hstopped
    exact ⟨rest, hrest ▸ harrivals⟩
  · rintro earlier t later rfl hstop
    obtain ⟨hafter, hpending⟩ := h.shutdown_pending hs hstop
    obtain ⟨-, ht, hlater⟩ := h.split
    refine ⟨?_, ?_, ?_⟩
    · have hrest := hlater.unbidden_le hafter hpending
      have hone := ht.unbidden_le_one
      refine Nat.le_trans (count_visit_le _) ?_
      rw [← List.singleton_append, errands_append, List.countP_append]
      omega
    · exact Scene.goes_on _ ((hlater.mail hafter).2.shutdown (List.mem_append_left _ hpending))
    · have hlooks := hlater.looks_le hafter hpending
      have hleft := t.after.looksLeft_le
      omega

/-- A worker is told to stop when it has just set out for a visit, and something was sent before. -/
def farewell : List Deed :=
  [.post (.request .refreshAll), .look, .work, .look, .post (.request (.setDefaultRuns [7])),
    .post .shutdown, .work, .look, .work, .look]

/-- It visits the plot, serves what was sent, and stops. -/
theorem farewell_in_order : ∃ moves x,
    play (Scheduler.stillness.withMail fun _ _ => []) farewell
      (.spawn { plots := [Scheduler.barePlot] } ()) = some (moves, x) ∧
    x.updater.worker = .stopped ∧
    errands moves = [.serve .refreshAll, .visit, .serve (.setDefaultRuns [7])] ∧
    (sent moves).map Sending.command = [.refreshAll, .setDefaultRuns [7]] := by
  obtain ⟨moves, x, hplay, hstopped, herrands, hpending⟩ : ∃ moves x,
      play (Scheduler.stillness.withMail fun _ _ => []) farewell
        (.spawn { plots := [Scheduler.barePlot] } ()) = some (moves, x) ∧
      x.updater.worker = .stopped ∧
      errands moves = [.serve .refreshAll, .visit, .serve (.setDefaultRuns [7])] ∧
      x.pending = [.shutdown] := ⟨_, _, rfl, rfl, rfl, rfl⟩
  refine ⟨moves, x, hplay, hstopped, herrands, ?_⟩
  rw [(commands_in_order (history_of_play hplay)).1, served, herrands, hpending]
  rfl

end HistogramMonitor
