import HistogramMonitor.Proofs.Updater.Mail

/-!
# Moves of an updater

An updater is a handle, a worker and a timer that act in any order. Their *moves* are the finest steps that
the others can come between:

* the handle posts a message;
* the worker looks into its mailbox and sets out on an *errand*: to serve the message that it has taken out,
  or, with an empty mailbox and a running cycle, to visit the next plot;
* with an empty mailbox and no cycle, the worker waits for its timer; the wait ends, and it sets out to look at
  the clock;
* the worker does its errand. While it does, messages can arrive with every call.

A turn of the worker (`Updater.turn`) is a look followed by the errand, and a timeout is the end of a wait
followed by its errand, with nothing in between (`turn_eq`, `timeout_eq`). A *history* is a row of moves, and
so every interleaving of handle, worker, backend and clock is one.

`Move.Occurs.kind` lists all that a move can do, and `Move.Occurs.mail` says what it does to the mail: what was
there and what arrives is what was served and what is left.
-/

namespace HistogramMonitor

variable {β : Type}

/-! ## Errands and scenes -/

/-- What a worker has set out to do. -/
inductive Errand
  /-- to serve a command that it has taken out of its mailbox -/
  | serve (c : Command)
  /-- to visit the next plot of the running cycle, since it has found its mailbox empty -/
  | visit
  /-- to look at the clock, since its wait is over -/
  | wake
  deriving DecidableEq

namespace Errand

variable {σ : Type}

/-- What the errand comes to. -/
def action (w : Surroundings σ) : Errand → Scheduler → Action σ Scheduler
  | serve c, s => s.apply w c
  | visit, s => s.step w
  | wake, s => do
    let t ← Action.now w
    let (s, _) ← s.fireTimer w t
    return s

/-- The command that is served. -/
def command? : Errand → Option Command
  | serve c => some c
  | _ => none

end Errand

/-- An updater whose worker may be on an errand. -/
structure Scene (β : Type) where
  updater : Updater β
  errand : Option Errand

namespace Scene

/-- The mailbox between the handle and the worker. -/
def mailbox (x : Scene β) : Mailbox := x.updater.desk.mailbox

/-- The scene with another mailbox. -/
def withMailbox (m : Mailbox) (x : Scene β) : Scene β :=
  { x with updater := { x.updater with desk := { x.updater.desk with mailbox := m } } }

/-- The messages that are still to be dealt with: the one that the worker has in hand, and those in its
mailbox. -/
def pending (x : Scene β) : List Message :=
  (x.errand.bind Errand.command?).toList.map .request ++ x.mailbox.queue

/-- A worker without an errand looks into its mailbox. -/
def look (x : Scene β) : Option (Scene β) :=
  match x.errand, x.updater.worker with
  | none, .running s =>
    match x.updater.desk.mailbox.queue with
    | .shutdown :: _ => some ⟨⟨.stopped, x.updater.desk.abandon⟩, none⟩
    | .request c :: rest => some ⟨⟨.running s, x.updater.desk.withQueue rest⟩, some (.serve c)⟩
    | [] => if s.cycling then some ⟨x.updater, some .visit⟩ else none
  | _, _ => none

/-- The wait of a worker for its timer ends, be it early or late. Only with an empty mailbox does a worker wait, and
a message ends the wait in another way (`look`). But one can arrive before the worker has looked at the clock. -/
def expire (x : Scene β) : Option (Scene β) :=
  match x.errand, x.updater.worker with
  | none, .running s =>
    if x.updater.desk.mailbox.queue = [] ∧ ¬ s.cycling ∧ s.timer.isSome then some ⟨x.updater, some .wake⟩ else none
  | _, _ => none

/-- A worker does its errand. -/
def work (w : Surroundings (Desk β)) (x : Scene β) : Option (List Event × Scene β) :=
  match x.errand, x.updater.worker with
  | some errand, .running s =>
    let (events, u) := Updater.after (errand.action w s x.updater.desk)
    some (events, ⟨u, none⟩)
  | _, _ => none

end Scene

/-- **A turn of the worker** is a look, and then the errand that this has given it. -/
theorem turn_eq (w : Surroundings (Desk β)) (u : Updater β) : u.turn w =
    (Scene.look ⟨u, none⟩).map fun x =>
      ((x.work w).getD ([], x)).map id Scene.updater := by
  obtain ⟨worker, desk⟩ := u
  unfold Updater.turn Scene.look
  cases worker with
  | running s =>
    dsimp only
    rcases desk.mailbox.queue with _ | ⟨_ | _, rest⟩
    · dsimp only
      split <;> rfl
    · rfl
    · rfl
  | stopped => rfl
  | dead => rfl

/-- Who has no turn to take has no mail and is in no cycle. -/
theorem turn_eq_none_iff {w : Surroundings (Desk β)} {s : Scheduler} {d : Desk β} :
    Updater.turn w ⟨.running s, d⟩ = none ↔ d.mailbox.queue = [] ∧ ¬ s.cycling := by
  unfold Updater.turn
  rcases d.mailbox.queue with _ | ⟨_ | _, rest⟩ <;> simp

/-- A wait can end exactly where the worker waits, and for its timer. -/
theorem expire_isSome_iff {w : Surroundings (Desk β)} {u : Updater β} :
    (Scene.expire ⟨u, none⟩).isSome ↔ u.waiting w ∧ u.deadline?.isSome := by
  obtain ⟨worker, desk⟩ := u
  cases worker with
  | running s =>
    have hwaits : Updater.waiting w ⟨.running s, desk⟩ ↔ desk.mailbox.queue = [] ∧ ¬ s.cycling := by
      rw [Updater.waiting, Updater.alive, Bool.and_true, Option.isNone_iff_eq_none, turn_eq_none_iff]
    rw [hwaits, Updater.deadline?, and_assoc]
    unfold Scene.expire
    dsimp only
    split
    · rename_i hholds
      exact iff_of_true rfl hholds
    · rename_i hholds
      exact iff_of_false Bool.false_ne_true hholds
  | stopped | dead => exact iff_of_false Bool.false_ne_true fun h => Bool.false_ne_true h.2

/-- **A timeout** of a worker that waits is the end of its wait, and then the errand that this has given it. -/
theorem timeout_eq {w : Surroundings (Desk β)} {u : Updater β} {x : Scene β} (h : Scene.expire ⟨u, none⟩ = some x) :
    some (u.timeout w) = (x.work w).map fun o => o.map id Scene.updater := by
  obtain ⟨worker, desk⟩ := u
  unfold Scene.expire at h
  cases worker with
  | running s =>
    dsimp only at h
    split at h
    · cases h
      rfl
    · cases h
  | stopped | dead => cases h

/-! ## Moves -/

/-- What can be done. -/
inductive Deed
  /-- the handle sends a command, or is dropped -/
  | post (msg : Message)
  | look
  | expire
  | work
  deriving DecidableEq

/-- Does it, where it can be done. -/
def Deed.perform (w : Surroundings (Desk β)) : Deed → Scene β → Option (List Event × Scene β)
  | post msg, x => some ([], x.withMailbox (x.mailbox.post msg).1)
  | look, x => x.look.map ([], ·)
  | expire, x => x.expire.map ([], ·)
  | work, x => x.work w

/-- A deed that was done. -/
structure Move (β : Type) where
  deed : Deed
  before : Scene β
  events : List Event
  after : Scene β

namespace Move

/-- In these surroundings the move can happen. -/
def Occurs (w : Surroundings (Desk β)) (t : Move β) : Prop :=
  t.deed.perform w t.before = some (t.events, t.after)

/-- The errand that was done. -/
def errand? (t : Move β) : Option Errand := if t.deed = .work then t.before.errand else none

/-- What was sent, and what the senders have learned. -/
def sendings (t : Move β) : List Sending :=
  match t.deed with
  | .post msg => (t.before.mailbox.post msg).2
  | _ => HistogramMonitor.sendings t.events

/-- The messages that have arrived: they stand in the mailbox behind those that were there before. -/
def arrivals (t : Move β) : List Message := t.after.mailbox.queue.drop t.before.mailbox.queue.length

end Move

/-- All that a move can do. -/
inductive Move.Kind (w : Surroundings (Desk β)) : Move β → Prop
  | posts (msg : Message) (x : Scene β) :
      Kind w ⟨.post msg, x, [], x.withMailbox (x.mailbox.post msg).1⟩
  /-- the worker takes out a command -/
  | takes (s : Scheduler) {d : Desk β} {c : Command} {rest : List Message}
      (queue : d.mailbox.queue = .request c :: rest) :
      Kind w ⟨.look, ⟨⟨.running s, d⟩, none⟩, [], ⟨⟨.running s, d.withQueue rest⟩, some (.serve c)⟩⟩
  /-- the worker has been told to stop -/
  | stops (s : Scheduler) {d : Desk β} {rest : List Message} (queue : d.mailbox.queue = .shutdown :: rest) :
      Kind w ⟨.look, ⟨⟨.running s, d⟩, none⟩, [], ⟨⟨.stopped, d.abandon⟩, none⟩⟩
  /-- the worker sets out for a visit -/
  | departs {s : Scheduler} {d : Desk β} (queue : d.mailbox.queue = []) (cycling : s.cycling) :
      Kind w ⟨.look, ⟨⟨.running s, d⟩, none⟩, [], ⟨⟨.running s, d⟩, some .visit⟩⟩
  /-- a wait is over -/
  | expires {s : Scheduler} {d : Desk β} (queue : d.mailbox.queue = []) (idle : ¬ s.cycling)
      (armed : s.timer.isSome) :
      Kind w ⟨.expire, ⟨⟨.running s, d⟩, none⟩, [], ⟨⟨.running s, d⟩, some .wake⟩⟩
  /-- the worker does its errand, and goes on -/
  | returns {errand : Errand} {s s' : Scheduler} {d d' : Desk β} {es : List Event}
      (done : errand.action w s d = ⟨es, d', some s'⟩) :
      Kind w ⟨.work, ⟨⟨.running s, d⟩, some errand⟩, es, ⟨⟨.running s', d'⟩, none⟩⟩
  /-- the worker dies on its errand -/
  | dies {errand : Errand} {s : Scheduler} {d d' : Desk β} {es : List Event}
      (done : errand.action w s d = ⟨es, d', none⟩) :
      Kind w ⟨.work, ⟨⟨.running s, d⟩, some errand⟩, es, ⟨⟨.dead, d'.abandon⟩, none⟩⟩

theorem Move.Occurs.kind {w : Surroundings (Desk β)} {t : Move β} (h : t.Occurs w) : t.Kind w := by
  obtain ⟨deed, ⟨⟨worker, d⟩, errand⟩, es, after⟩ := t
  unfold Move.Occurs at h
  cases deed with
  | post msg =>
    dsimp only [Deed.perform] at h
    cases h
    exact .posts msg _
  | look =>
    obtain ⟨y, hlook, heq⟩ := Option.map_eq_some_iff.mp h
    cases heq
    unfold Scene.look at hlook
    cases errand with
    | some errand => cases hlook
    | none =>
      cases worker with
      | running s =>
        dsimp only at hlook
        split at hlook
        · rename_i rest hqueue
          cases hlook
          exact .stops s hqueue
        · rename_i c rest hqueue
          cases hlook
          exact .takes s hqueue
        · rename_i hqueue
          split at hlook
          · rename_i hcycling
            cases hlook
            exact .departs hqueue hcycling
          · cases hlook
      | stopped | dead => cases hlook
  | expire =>
    obtain ⟨y, hexpire, heq⟩ := Option.map_eq_some_iff.mp h
    cases heq
    unfold Scene.expire at hexpire
    cases errand with
    | some errand => cases hexpire
    | none =>
      cases worker with
      | running s =>
        dsimp only at hexpire
        split at hexpire
        · rename_i hwaits
          cases hexpire
          exact .expires hwaits.1 hwaits.2.1 hwaits.2.2
        · cases hexpire
      | stopped | dead => cases hexpire
  | work =>
    simp only [Deed.perform, Scene.work] at h
    cases errand with
    | none => cases h
    | some errand =>
      cases worker with
      | running s =>
        dsimp only at h
        rcases ho : errand.action w s d with ⟨es', d', _ | s'⟩
        · rw [ho] at h
          cases h
          exact .dies ho
        · rw [ho] at h
          cases h
          exact .returns ho
      | stopped | dead => cases h

/-- What is seen of a move with which the worker does an errand is what is seen of the errand. -/
theorem Move.Occurs.events_eq {w : Surroundings (Desk β)} {t : Move β} {errand : Errand} {s : Scheduler}
    (h : t.Occurs w) (ht : t.errand? = some errand) (hs : t.before.updater.worker = .running s) :
    t.events = (errand.action w s t.before.updater.desk).events := by
  cases h.kind with
  | returns done | dies done =>
    cases ht
    cases hs
    exact (congrArg Outcome.events done).symm
  | posts | takes | stops | departs | expires => cases ht

/-- The worker comes back from an errand without another. -/
theorem Move.Occurs.errand_eq_none {w : Surroundings (Desk β)} {t : Move β} (h : t.Occurs w)
    (hwork : t.errand? ≠ none) : t.after.errand = none := by
  cases h.kind with
  | returns | dies => rfl
  | posts | takes | stops | departs | expires => exact absurd rfl hwork

/-! ## What a move does to the mail -/

theorem Errand.action_built {σ : Type} (w : Surroundings σ) (errand : Errand) (s : Scheduler) :
    Action.Built w (errand.action w s) := by
  cases errand with
  | serve c => exact s.apply_built w c
  | visit => exact s.step_built w
  | wake => exact .bind .now fun t => .bind (s.fireTimer_built w t) fun _ => .pure _

/-- The mailbox is open exactly as long as the worker runs, and only a running worker is on an errand. -/
structure Scene.Sound (x : Scene β) : Prop where
  receiving : x.mailbox.receiving = x.updater.alive
  alive : x.errand.isSome → x.updater.alive

/-- What a move does to the mail. -/
structure Move.Mail (t : Move β) : Prop where
  /-- only the worker takes messages out -/
  queue : t.deed ≠ .look → t.after.mailbox.queue = t.before.mailbox.queue ++ t.arrivals
  /-- nothing is lost, doubled or overtaken -/
  pending : t.before.pending ++ t.arrivals =
    (t.errand?.bind Errand.command?).toList.map .request ++ t.after.pending
  /-- whoever is not refused learns what holds where the message arrives -/
  sent : t.sendings.filter Sending.taken = answers t.before.mailbox.plotCount (commands t.arrivals)
  plotCount : t.after.mailbox.plotCount = t.before.mailbox.plotCount + additions (commands t.arrivals)

variable {w : Surroundings β} {meanwhile : β → Call → List Message} {t : Move β}

/-- The messages of an errand arrive behind those that were there before. -/
theorem mail_of_errand {errand : Errand} {s : Scheduler} {d d' : Desk β} {es : List Event}
    {v : Option Scheduler} {y : Scene β} (hopen : d.mailbox.receiving)
    (h : errand.action (w.withMail meanwhile) s d = ⟨es, d', v⟩) (hqueue : y.mailbox.queue = d'.mailbox.queue)
    (hcount : y.mailbox.plotCount = d'.mailbox.plotCount) (herrand : y.errand = none) :
    d'.mailbox.receiving ∧ Move.Mail ⟨.work, ⟨⟨.running s, d⟩, some errand⟩, es, y⟩ := by
  obtain ⟨msgs, hposts⟩ := (errand.action_built (w.withMail meanwhile) s).posts d
  rw [h, Mailbox.postAll_of_receiving hopen] at hposts
  obtain ⟨hmailbox, hsent⟩ := Prod.mk.inj hposts
  dsimp only at hmailbox hsent
  have hstands : y.mailbox.queue = d.mailbox.queue ++ msgs := by rw [hqueue, hmailbox]
  have harrivals : Move.arrivals ⟨.work, ⟨⟨.running s, d⟩, some errand⟩, es, y⟩ = msgs := by
    rw [Move.arrivals, hstands]
    exact List.drop_left
  refine ⟨hmailbox ▸ hopen, fun _ => harrivals.symm ▸ hstands, ?_, ?_, ?_⟩
  · rw [harrivals, Scene.pending, Scene.pending, herrand, hstands, List.append_assoc]
    rfl
  · rw [harrivals]
    change (sendings es).filter _ = _
    rw [hsent, List.filter_eq_self.mpr fun s hs => taken_of_mem_answers s hs]
    rfl
  · rw [harrivals, hcount, hmailbox]
    rfl

/-- A message that the handle posts arrives at once, or is refused. -/
theorem mail_of_post (msg : Message) {x : Scene β} (hs : x.Sound) :
    (x.withMailbox (x.mailbox.post msg).1).Sound ∧
      Move.Mail ⟨.post msg, x, [], x.withMailbox (x.mailbox.post msg).1⟩ := by
  have hpost := Mailbox.postAll_singleton msg x.mailbox
  cases hopen : x.mailbox.receiving with
  | true =>
    rw [Mailbox.postAll_of_receiving hopen] at hpost
    have harrivals : Move.arrivals ⟨.post msg, x, [], x.withMailbox (x.mailbox.post msg).1⟩ = [msg] := by
      rw [← hpost]
      exact List.drop_left
    refine ⟨⟨?_, hs.alive⟩, fun _ => ?_, ?_, ?_, ?_⟩
    · rw [← hpost]
      exact hs.receiving
    · rw [harrivals, ← hpost]
      rfl
    · rw [harrivals, ← hpost]
      exact List.append_assoc _ _ _
    · rw [harrivals]
      change (x.mailbox.post msg).2.filter _ = _
      rw [← hpost, List.filter_eq_self.mpr fun s hs => taken_of_mem_answers s hs]
    · rw [harrivals, ← hpost]
      rfl
  | false =>
    rw [Mailbox.postAll_of_closed hopen] at hpost
    have harrivals : Move.arrivals ⟨.post msg, x, [], x.withMailbox (x.mailbox.post msg).1⟩ = [] := by
      rw [← hpost]
      exact List.drop_length
    refine ⟨⟨?_, hs.alive⟩, fun _ => ?_, ?_, ?_, ?_⟩
    · rw [← hpost]
      exact hs.receiving
    · rw [harrivals, ← hpost]
      exact (List.append_nil _).symm
    · rw [harrivals, ← hpost]
      exact List.append_nil _
    · rw [harrivals]
      change (x.mailbox.post msg).2.filter _ = _
      rw [← hpost]
      refine List.filter_eq_nil_iff.mpr fun z hz => ?_
      obtain ⟨c, -, rfl⟩ := List.mem_map.mp hz
      exact Bool.false_ne_true
    · rw [harrivals, ← hpost]
      rfl

/-- Where the worker looks into its mailbox, nothing arrives. -/
theorem mail_of_look {x y : Scene β} (hpending : x.pending = y.pending)
    (hqueue : y.mailbox.queue.length ≤ x.mailbox.queue.length)
    (hcount : y.mailbox.plotCount = x.mailbox.plotCount) : Move.Mail ⟨.look, x, [], y⟩ := by
  have hnone : Move.arrivals ⟨.look, x, [], y⟩ = [] := List.drop_eq_nil_of_le hqueue
  refine ⟨fun hlook => absurd rfl hlook, ?_, ?_, ?_⟩
  · rw [hnone, List.append_nil]
    exact hpending
  · rw [hnone]
    rfl
  · rw [hnone]
    exact hcount

/-- When a wait ends, nothing arrives. -/
theorem mail_of_expire (s : Scheduler) (d : Desk β) :
    Move.Mail ⟨.expire, ⟨⟨.running s, d⟩, none⟩, [], ⟨⟨.running s, d⟩, some .wake⟩⟩ := by
  have hnone : Move.arrivals ⟨.expire, ⟨⟨.running s, d⟩, none⟩, [], ⟨⟨.running s, d⟩, some .wake⟩⟩ = [] :=
    List.drop_length
  refine ⟨fun _ => ?_, ?_, ?_, ?_⟩
  · rw [hnone, List.append_nil]
    rfl
  · rw [hnone, List.append_nil]
    rfl
  · rw [hnone]
    rfl
  · rw [hnone]
    rfl

/-- **The mail is kept in order**, whatever happens: what was there and what arrives is what was served and
what is left, in this order. -/
theorem Move.Occurs.mail (hs : t.before.Sound) (h : t.Occurs (w.withMail meanwhile)) :
    t.after.Sound ∧ t.Mail := by
  cases h.kind with
  | posts msg x => exact mail_of_post msg hs
  | @takes s d c rest queue =>
    refine ⟨⟨hs.receiving, fun _ => rfl⟩, mail_of_look queue ?_ rfl⟩
    exact (congrArg List.length queue).symm ▸ Nat.le_succ _
  | stops s queue => exact ⟨⟨rfl, nofun⟩, mail_of_look rfl (Nat.le_refl _) rfl⟩
  | departs queue cycling =>
    exact ⟨⟨hs.receiving, fun _ => rfl⟩, mail_of_look rfl (Nat.le_refl _) rfl⟩
  | expires queue idle armed =>
    exact ⟨⟨hs.receiving, fun _ => rfl⟩, mail_of_expire _ _⟩
  | @returns errand s s' d d' es done =>
    obtain ⟨hopen, hmail⟩ := mail_of_errand (y := ⟨⟨.running s', d'⟩, none⟩) hs.receiving done rfl rfl rfl
    exact ⟨⟨hopen, nofun⟩, hmail⟩
  | @dies errand s d d' es done =>
    obtain ⟨hopen, hmail⟩ := mail_of_errand (y := ⟨⟨.dead, d'.abandon⟩, none⟩) hs.receiving done rfl rfl rfl
    exact ⟨⟨rfl, nofun⟩, hmail⟩

end HistogramMonitor
