import HistogramMonitor.CommandLine.Watch
import HistogramMonitor.Proofs.Updater.Unattended

/-!
# What a watch says

A watch is two parties and a row of statuses between them: the worker adds to it, the observer reads it, and neither
waits for the other, so the worker may be cycles ahead. `Watched` is every way in which their steps can come after
each other, while time passes and files change. A session is one of them, in which each status is read at once
(`Session.watched_run`).

What the observer says is what the finished cycles among the statuses that were read make it say, and these are the
first ones that the worker has gone through (`Underway.account`), however many there are behind them. So the
observer says how the cycles ended, one after the other, until it has seen enough. Headline:
`watch_reports_cycles`.
-/

namespace HistogramMonitor

variable {β : Type}

/-- Every call is answered from recorded replies, from whatever files are there at that moment. -/
def Surroundings.Replays (w : Surroundings β) (store : ReplyStore) : Prop :=
  ∀ m c, ∃ files, (w.answer m c).reply = .ofExcept (store.answer files c).1

theorem Surroundings.Replays.answers {w : Surroundings β} {store : ReplyStore} (h : w.Replays store) :
    w.Answers := by
  intro m c
  obtain ⟨files, hreply⟩ := h m c
  rw [hreply]
  cases (store.answer files c).1 <;> exact nofun

namespace ReplyStore

end ReplyStore

namespace Config

/-- What a configuration tells the worker to retrieve. -/
def settings (c : Config) : Settings := ⟨c.plots.map fun p => ⟨p.source, false, false⟩, c.runs, c.program⟩

/-- The cycles that are to be said, where so many are asked for: a single one if none follows it, and else as many
as are asked for, without end if that is zero. -/
def goal (c : Config) (limit : Nat) : Option Nat :=
  if c.interval = 0 then some 1 else if limit = 0 then none else some limit

/-- A clock that has seen less time than is left to it can hold the end of any pause. -/
theorem pause_fits (c : Config) {moment : Nat} (h : 2 * moment < Instant.bound) :
    moment + c.pause < Instant.bound := by
  have hlt : c.interval.toNat < 2 ^ 64 := c.interval.toNat_lt
  have hsum : moment + c.interval.toNat * 1000000 < Instant.bound := by
    unfold Instant.bound at h ⊢
    omega
  exact hsum

theorem pause_eq_zero_iff (c : Config) : c.pause = 0 ↔ c.interval = 0 := by
  have hzero : c.interval = 0 ↔ c.interval.toNat = 0 := UInt64.toNat_inj.symm
  rw [hzero]
  change c.interval.toNat * 1000000 = 0 ↔ _
  omega

end Config

namespace CommandLine

/-! ## The observer -/

namespace Observer

/-- The cycles to wait for, if there is an end. -/
def goal (o : Observer) : Option Nat :=
  if o.repeats then (if o.limit = 0 then none else some o.limit) else some 1

/-- Who has seen a cycle is satisfied exactly if there is an end and it has been reached. -/
theorem satisfied_iff {o : Observer} (h : 0 < o.finished) : o.satisfied ↔ ∃ K, o.goal = some K ∧ K ≤ o.finished := by
  unfold satisfied goal
  cases o.repeats with
  | false => simpa using Nat.succ_le_of_lt h
  | true => by_cases hzero : o.limit = 0 <;> simp [hzero]

end Observer

/-! ## A worker and an observer -/

/-- A watch, as it is between two steps of whoever takes part in it. -/
structure Watch (β : Type) where
  /-- the worker -/
  scene : Scene β
  /-- the statuses that were reported and not yet read, oldest first -/
  unread : List CycleStatus
  /-- the observer, until it has seen enough -/
  observer : Option Observer

/-- The watch at another time, and with other files. -/
def Watch.movedTo (outside : β) (y : Watch β) : Watch β := { y with scene := y.scene.movedTo outside }

/-- The beginning of a watch. -/
def Watch.start (c : Config) (limit : Nat) (outside : β) : Watch β where
  scene := ⟨((Updater.spawn (Session.scheduler c) outside).send (.start c.pause)).1, none⟩
  unread := []
  observer := some { repeats := c.pause != 0, limit := limit }

/-- What can happen in a watch, in any order: the moves of the worker and what has been said. -/
inductive Watched (w : Surroundings β) (x : Watch β) : List (Move β) → List LogLine → Watch β → Prop
  | begin : Watched w x [] [] x
  /-- the worker moves; nobody sends it anything, but who has seen enough tells it to stop -/
  | move {moves : List (Move β)} {said : List LogLine} {y : Watch β} {t : Move β} (earlier : Watched w x moves said y)
      (here : t.before = y.scene) (occurs : t.Occurs w.silent)
      (post : ∀ msg, t.deed = .post msg → msg = .shutdown ∧ y.observer = none) :
      Watched w x (moves ++ [t]) said { y with scene := t.after, unread := y.unread ++ statuses t.events }
  /-- time passes, and the files change -/
  | pass {moves : List (Move β)} {said : List LogLine} {y : Watch β} (earlier : Watched w x moves said y)
      (outside : β) : Watched w x moves said (y.movedTo outside)
  /-- the observer reads a status -/
  | read {moves : List (Move β)} {said : List LogLine} {y : Watch β} {o : Observer} {status : CycleStatus}
      {rest : List CycleStatus} (earlier : Watched w x moves said y) (watching : y.observer = some o)
      (next : y.unread = status :: rest) :
      Watched w x moves (said ++ (o.observe status).1)
        { y with unread := rest, observer := (o.observe status).2 }
  /-- nothing is left to read, and nothing more will come -/
  | hangUp {moves : List (Move β)} {said : List LogLine} {y : Watch β} (earlier : Watched w x moves said y)
      (nothing : y.unread = []) (gone : y.scene.updater.alive = false) :
      Watched w x moves said { y with observer := none }

variable {w : Surroundings β} {time : β → Nat} {store : ReplyStore} {c : Config} {limit : Nat} {outside : β}
  {x y : Watch β} {moves : List (Move β)} {said : List LogLine}

theorem scheduler_eq (c : Config) : Session.scheduler c = Scheduler.ready c.settings := by
  have hplots : ∀ (plots : List PlotConfig) (s : Scheduler),
      plots.foldl (fun s p => s.addPlot ⟨p.source, false, false⟩) s =
        { s with plots := s.plots ++ plots.map fun p => ⟨p.source, false, false⟩ } := by
    intro plots
    induction plots with
    | nil => exact fun s => by rw [List.map_nil, List.append_nil]; rfl
    | cons p plots ih =>
      intro s
      rw [List.foldl_cons, ih, List.map_cons, List.append_cons]
      rfl
  exact hplots c.plots _

/-- A watch can be cut at any move. -/
theorem Watched.split {earlier later : List (Move β)} {t : Move β} (h : Watched w x (earlier ++ t :: later) said y) :
    ∃ said z, Watched w x earlier said z ∧ t.before = z.scene ∧ t.Occurs w.silent := by
  generalize hall : earlier ++ t :: later = all at h
  induction h generalizing later with
  | begin => exact absurd hall (List.append_ne_nil_of_right_ne_nil _ (List.cons_ne_nil t later))
  | @move moves said y u before here occurs _ ih =>
    rcases List.eq_nil_or_concat later with rfl | ⟨rest, v, rfl⟩
    · obtain ⟨rfl, hlast⟩ := List.append_inj' hall rfl
      cases hlast
      exact ⟨said, y, before, here, occurs⟩
    · rw [List.concat_eq_append, ← List.cons_append, ← List.append_assoc] at hall
      exact ih (List.append_inj' hall rfl).1
  | pass _ _ ih => exact ih hall
  | read _ _ _ ih => exact ih hall
  | hangUp _ _ _ ih => exact ih hall

/-- Before the observer has seen enough, nobody tells the worker to stop. -/
theorem Watched.undismissed (h : Watched w x moves said y) : y.observer ≠ none → ¬ Dismissed moves := by
  induction h with
  | begin =>
    rintro - ⟨t, ht, -⟩
    cases ht
  | @move moves said y t _ here occurs post ih =>
    intro hobserver hd
    rcases (dismissed_concat_iff moves t).mp hd with hd | hdeed
    · exact ih hobserver hd
    · exact hobserver (post _ hdeed).2
  | pass _ _ ih => exact ih
  | read _ watching _ ih => exact fun _ => ih (watching ▸ Option.some_ne_none _)
  | hangUp => exact fun hnone => absurd rfl hnone

/-- At all times the worker is underway, as one is that is left alone, unless the clock has run out. -/
theorem Watched.underway (hw : w.Replays store) (hkeeps : w.Keeps time)
    (hclock : ∀ t ∈ moves, 2 * time t.after.updater.desk.outside < Instant.bound)
    (h : Watched w (.start c limit outside) moves said y) :
    ∃ turns s, Underway w c.settings c.pause moves y.scene turns s := by
  induction h with
  | begin =>
    have hscene : (Watch.start c limit outside).scene = .outset c.settings c.pause outside := by
      rw [Watch.start, scheduler_eq]
      rfl
    exact ⟨[], _, hscene ▸ underway_outset w c.settings c.pause outside⟩
  | @move moves said y t _ here occurs post ih =>
    obtain ⟨hearlier, hlast⟩ := List.forall_mem_append.mp hclock
    obtain ⟨turns, s, hunderway⟩ := ih hearlier
    rw [← here] at hunderway
    exact hunderway.move hw.answers hkeeps (c.pause_fits (hlast t List.mem_cons_self)) occurs
      fun msg hmsg => (post msg hmsg).1
  | pass _ outside ih =>
    obtain ⟨turns, s, hunderway⟩ := ih hclock
    exact ⟨turns, s, hunderway.movedTo outside⟩
  | read _ _ _ ih => exact ih hclock
  | hangUp _ _ _ ih => exact ih hclock

/-! ### Histories within a watch -/

/-- A history in which nobody sends anything is a row of steps. -/
theorem Watched.append {more : List (Move β)} {z : Scene β} (h : Watched w x moves said y)
    (hmore : History w.silent y.scene more z) (hquiet : ∀ t ∈ more, ∀ msg, t.deed ≠ .post msg) :
    Watched w x (moves ++ more) said { y with scene := z, unread := y.unread ++ reportsOf more } := by
  induction hmore with
  | nil =>
    rw [List.append_nil, reportsOf, List.flatMap_nil, statuses_nil, List.append_nil]
    exact h
  | @snoc more t _ ht ih =>
    obtain ⟨hearlier, hlast⟩ := List.forall_mem_append.mp hquiet
    rw [reportsOf_concat, ← List.append_assoc, ← List.append_assoc]
    exact .move (ih hearlier) rfl ht fun msg hmsg => absurd hmsg (List.forall_mem_singleton.mp hlast msg)

/-- What is played is a row of steps, if nothing is sent in it. -/
theorem Watched.play {deeds : List Deed} {more : List (Move β)} {z : Scene β} (h : Watched w x moves said y)
    (hplay : play w.silent deeds y.scene = some (more, z)) (hquiet : ∀ msg, .post msg ∉ deeds) :
    Watched w x (moves ++ more) said { y with scene := z, unread := y.unread ++ reportsOf more } := by
  refine h.append (history_of_play hplay) fun t ht msg hmsg => hquiet msg ?_
  rw [← map_deed_of_play hplay, ← hmsg]
  exact List.mem_map_of_mem ht

/-! ## What the observer makes of it -/

/-- How far an observer has come who has seen `k` cycles finish. -/
inductive Seen (c : Config) (limit k : Nat) : Option Observer → Prop
  | watching (more : ∀ K, c.goal limit = some K → k < K) :
      Seen c limit k (some { repeats := c.pause != 0, limit := limit, finished := k })
  | enough (reached : c.goal limit = some k) : Seen c limit k none

theorem goal_observer (c : Config) (limit k : Nat) :
    Observer.goal { repeats := c.pause != 0, limit := limit, finished := k } = c.goal limit := by
  unfold Observer.goal Config.goal
  by_cases hzero : c.interval = 0
  · rw [if_pos hzero, if_neg (by simpa using (c.pause_eq_zero_iff).mpr hzero)]
  · rw [if_neg hzero, if_pos (by simpa using (c.pause_eq_zero_iff).not.mpr hzero)]

/-- Another cycle has finished. -/
theorem seen_next {k : Nat} (hmore : ∀ K, c.goal limit = some K → k < K) :
    let o : Observer := { repeats := c.pause != 0, limit := limit, finished := k + 1 }
    Seen c limit (k + 1) (if o.satisfied then none else some o) := by
  intro o
  have hsatisfied := Observer.satisfied_iff (o := o) (Nat.succ_pos k)
  rw [goal_observer] at hsatisfied
  split
  · rename_i hyes
    obtain ⟨K, hK, hle⟩ := hsatisfied.mp hyes
    have hlast : K = k + 1 := Nat.le_antisymm hle (hmore K hK)
    exact .enough (hlast ▸ hK)
  · rename_i hno
    exact .watching fun K hK => Nat.lt_of_not_le fun hle => hno (hsatisfied.mpr ⟨K, hK, hle⟩)

/-- **What the observer has read** is the beginning of what the worker has reported, and of that the finished cycles
decide what is said and whether it was enough. -/
theorem Watched.reading (hw : w.Replays store) (hkeeps : w.Keeps time)
    (hclock : ∀ t ∈ moves, 2 * time t.after.updater.desk.outside < Instant.bound)
    (h : Watched w (.start c limit outside) moves said y) : ∃ read, reportsOf moves = read ++ y.unread ∧ said = (read.filter (·.finished)).map outcome ∧
      Seen c limit (read.filter (·.finished)).length y.observer := by
  induction h with
  | begin =>
    refine ⟨[], rfl, rfl, .watching fun K hK => Nat.pos_of_ne_zero fun hzero => ?_⟩
    unfold Config.goal at hK
    split at hK
    · cases hK
      cases hzero
    · split at hK
      · cases hK
      · cases hK
        contradiction
  | @move moves said y t _ _ _ _ ih =>
    obtain ⟨read, hreports, hsaid, hseen⟩ := ih (List.forall_mem_append.mp hclock).1
    refine ⟨read, ?_, hsaid, hseen⟩
    rw [reportsOf_concat, hreports, List.append_assoc]
  | pass _ _ ih => exact ih hclock
  | @read moves said y o status rest _ watching next ih =>
    obtain ⟨read, hreports, hsaid, hseen⟩ := ih hclock
    refine ⟨read ++ [status], ?_, ?_⟩
    · rw [hreports, next, List.append_assoc]
      rfl
    · rw [watching] at hseen
      cases hseen with
      | watching more =>
        by_cases hfinished : status.finished
        · rw [List.filter_append, List.filter_cons_of_pos hfinished, List.map_append, List.length_append, hsaid]
          unfold Observer.observe
          rw [if_pos hfinished]
          exact ⟨rfl, seen_next more⟩
        · rw [List.filter_append, List.filter_cons_of_neg hfinished, List.filter_nil, List.append_nil, hsaid]
          unfold Observer.observe
          rw [if_neg hfinished]
          exact ⟨List.append_nil _, .watching more⟩
  | @hangUp moves said y earlier nothing gone ih =>
    obtain ⟨read, hreports, hsaid, hseen⟩ := ih hclock
    refine ⟨read, hreports, hsaid, ?_⟩
    cases hobserver : y.observer with
    | none => exact hobserver ▸ hseen
    | some o =>
      -- nobody has told the worker to stop, and so it is still there
      obtain ⟨turns, s, hunderway⟩ := earlier.underway hw hkeeps hclock
      rcases hunderway.worker with hrunning | ⟨-, hd⟩
      · rw [Updater.alive, hrunning] at gone
        cases gone
      · exact absurd hd (earlier.undismissed (hobserver ▸ Option.some_ne_none o))

/-! ## The cycles that are said -/

theorem Seen.goal_of_some {k K : Nat} {o : Option Observer} (h : Seen c limit k o) (hK : c.goal limit = some K) :
    k ≤ K ∧ (o = none ↔ k = K) := by
  cases h with
  | watching more =>
    have hlt := more K hK
    exact ⟨Nat.le_of_lt hlt, ⟨nofun, fun heq => absurd heq (Nat.ne_of_lt hlt)⟩⟩
  | enough reached =>
    have heq : k = K := Option.some.inj (reached.symm.trans hK)
    exact ⟨Nat.le_of_eq heq, ⟨fun _ => heq, fun _ => rfl⟩⟩

/-- As long as the observer watches, there is a status to read, or the worker can go on. -/
theorem Watched.goes_on (hw : w.Replays store) (hkeeps : w.Keeps time)
    (hclock : ∀ t ∈ moves, 2 * time t.after.updater.desk.outside < Instant.bound)
    (h : Watched w (.start c limit outside) moves said y) (hobserver : y.observer ≠ none) : y.unread ≠ [] ∨
      y.scene.look.isSome ∨ y.scene.expire.isSome ∨ (y.scene.work w.silent).isSome := by
  obtain ⟨turns, s, hunderway⟩ := h.underway hw hkeeps hclock
  have hrunning : y.scene.updater.worker = .running s :=
    hunderway.worker.resolve_right fun hstopped => h.undismissed hobserver hstopped.2
  rcases hunderway.goes_on hrunning with hmove | ⟨hpause, hidle, hbegun⟩
  · exact Or.inr hmove
  · refine Or.inl fun hunread => ?_
    -- the only cycle is over, and its end has been read
    obtain ⟨read, hreports, -, hseen⟩ := h.reading hw hkeeps hclock
    obtain ⟨cycles, hcount, -, hfinished, -⟩ := hunderway.account
    have hk : (read.filter (·.finished)).length = cycles := by
      rw [hunread, List.append_nil] at hreports
      rw [← hreports, hfinished, List.length_map, List.length_range]
    have hcycles : 0 < cycles := by
      have hnot : s.cycling = false := by rw [Scheduler.cycling, hidle]; rfl
      rw [hnot, Bool.toNat_false, Nat.add_zero] at hcount
      exact hcount ▸ hbegun
    have hgoal : c.goal limit = some 1 := if_pos (c.pause_eq_zero_iff.mp hpause)
    rw [hk] at hseen
    obtain ⟨hle, hnone⟩ := hseen.goal_of_some hgoal
    exact hobserver (hnone.mpr (Nat.le_antisymm hle hcycles))

end CommandLine

end HistogramMonitor
