import HistogramMonitor.Proofs.Scheduler.Reports

/-!
# The stream of statuses

A status receiver sees one block of statuses for each cycle, in the order of their numbers. What a block
holds is written down here apart from the scheduler: a `CycleRecord` is what there is to report about one
cycle, and `CycleRecord.statuses` are the reports, one for its beginning and one after each visit.

A run keeps a `Ledger`: records of the cycles that are over, each finished by its last status and by no other,
and one of the cycle that is running, which no status finishes yet. A turn adds to it what it reports. That
is one of four moves: a cycle begins, or passes over no plots, or visits a plot in its middle, or its last.
Headline: `statuses_in_cycles`.
-/

namespace HistogramMonitor

/-! ## Records -/

/-- Something to report about cycles, with the number of plots that are registered at that moment. -/
inductive Progress
  | begun (plots : Nat)
  | visited (failed : Bool) (plots : Nat)
  deriving DecidableEq

/-- What there is to report about one cycle. -/
structure CycleRecord where
  /-- the plots that are registered when it begins -/
  plots : Nat
  /-- for each visit, whether it failed, and the plots that are registered then -/
  visits : List (Bool × Nat)
  deriving DecidableEq

namespace CycleRecord

variable {r : CycleRecord} {failed : Bool} {plots number : Nat}

/-- The same, entry by entry. -/
def progress (r : CycleRecord) : List Progress :=
  .begun r.plots :: r.visits.map fun v => .visited v.1 v.2

/-- The visits that failed. -/
def failures (r : CycleRecord) : Nat := r.visits.countP Prod.fst

/-- How far the cycle is after its last visit. -/
def status (number : Nat) (r : CycleRecord) : CycleStatus :=
  ⟨number, r.visits.length, (r.visits.getLast?.map Prod.snd).getD r.plots, r.failures⟩

/-- The record of the first `k` visits. -/
def upTo (k : Nat) (r : CycleRecord) : CycleRecord := { r with visits := r.visits.take k }

/-- One status before the first visit and one after each. -/
def statuses (number : Nat) (r : CycleRecord) : List CycleStatus :=
  (List.range (r.visits.length + 1)).map fun k => (r.upTo k).status number

/-- The record after one more visit. -/
def next (failed : Bool) (plots : Nat) (r : CycleRecord) : CycleRecord :=
  { r with visits := r.visits ++ [(failed, plots)] }

@[simp] theorem visits_next : (r.next failed plots).visits = r.visits ++ [(failed, plots)] := rfl

theorem failures_next : (r.next failed plots).failures = r.failures + failed.toNat := by
  rw [failures, visits_next, List.countP_append, failures]
  cases failed <;> rfl

theorem progress_next : (r.next failed plots).progress = r.progress ++ [.visited failed plots] := by
  rw [progress, visits_next, List.map_append]
  rfl

theorem statuses_opened : statuses number ⟨plots, []⟩ = [⟨number, 0, plots, 0⟩] := rfl

/-- A visit adds one status. -/
theorem statuses_next : (r.next failed plots).statuses number =
    r.statuses number ++ [⟨number, r.visits.length + 1, plots, r.failures + failed.toNat⟩] := by
  -- the statuses so far are those of beginnings that do not hold the new visit
  have hearlier : ∀ k ∈ List.range (r.visits.length + 1),
      ((r.next failed plots).upTo k).status number = (r.upTo k).status number := by
    intro k hk
    have hle : k ≤ r.visits.length := Nat.le_of_lt_succ (List.mem_range.mp hk)
    have hvisits : (r.next failed plots).upTo k = r.upTo k := by
      rw [upTo, upTo, visits_next, List.take_append_of_le_length hle]
      rfl
    rw [hvisits]
  have hlast : ((r.next failed plots).upTo (r.visits.length + 1)).status number =
      ⟨number, r.visits.length + 1, plots, r.failures + failed.toNat⟩ := by
    have hwhole : (r.next failed plots).upTo (r.visits.length + 1) = r.next failed plots := by
      rw [upTo, visits_next, List.take_of_length_le (by simp)]
      rfl
    rw [hwhole, status, failures_next]
    simp
  rw [statuses, visits_next, List.length_append, List.length_singleton, List.range_succ, List.map_append,
    List.map_congr_left hearlier, List.map_singleton, hlast]
  rfl

/-! ### What can be said of the statuses -/

/-- With so many plots registered in the end, the totals grow up to that, and no more plots are visited than
there are. -/
structure Within (plots : Nat) (r : CycleRecord) : Prop where
  growing : ∀ number, (r.statuses number).Pairwise fun x y => x.total ≤ y.total
  bounded : ∀ number, ∀ x ∈ r.statuses number, x.done ≤ x.total ∧ x.total ≤ plots

/-- The last status and no other is that of a finished cycle. -/
def Finished (r : CycleRecord) : Prop :=
  ∀ number, ∃ earlier last, r.statuses number = earlier ++ [last] ∧ last.finished = true ∧
    ∀ x ∈ earlier, x.finished = false

/-- No status is that of a finished cycle. -/
def Unfinished (r : CycleRecord) : Prop := ∀ number, ∀ x ∈ r.statuses number, x.finished = false

theorem Within.mono {more : Nat} (h : r.Within plots) (hle : plots ≤ more) : r.Within more where
  growing := h.growing
  bounded number x hx := ⟨(h.bounded number x hx).1, Nat.le_trans (h.bounded number x hx).2 hle⟩

theorem within_opened : Within plots ⟨plots, []⟩ where
  growing _ := List.pairwise_singleton _ _
  bounded number x hx := by
    rw [statuses_opened, List.mem_singleton] at hx
    rw [hx]
    exact ⟨Nat.zero_le _, Nat.le_refl _⟩

theorem Within.next (h : r.Within plots) (hlt : r.visits.length < plots) :
    (r.next failed plots).Within plots where
  growing number := by
    rw [statuses_next, List.pairwise_append]
    refine ⟨h.growing number, List.pairwise_singleton _ _, fun x hx y hy => ?_⟩
    rw [List.mem_singleton.mp hy]
    exact (h.bounded number x hx).2
  bounded number x hx := by
    rw [statuses_next, List.mem_append, List.mem_singleton] at hx
    rcases hx with hx | rfl
    · exact h.bounded number x hx
    · exact ⟨hlt, Nat.le_refl _⟩

theorem unfinished_opened (hpos : 0 < plots) : Unfinished ⟨plots, []⟩ := by
  intro number x hx
  rw [statuses_opened, List.mem_singleton] at hx
  rw [hx]
  exact decide_eq_false (Nat.not_le_of_lt hpos)

theorem finished_empty : Finished ⟨0, []⟩ := fun _ => ⟨[], _, rfl, rfl, nofun⟩

theorem Unfinished.next (h : r.Unfinished) (hlt : r.visits.length + 1 < plots) :
    (r.next failed plots).Unfinished := by
  intro number x hx
  rw [statuses_next, List.mem_append, List.mem_singleton] at hx
  rcases hx with hx | rfl
  · exact h number x hx
  · exact decide_eq_false (Nat.not_le_of_lt hlt)

theorem Unfinished.finish (h : r.Unfinished) (hlast : r.visits.length + 1 = plots) :
    (r.next failed plots).Finished :=
  fun number => ⟨_, _, statuses_next, decide_eq_true (Nat.le_of_eq hlast.symm), h number⟩

end CycleRecord

/-- The statuses of consecutive cycles, of which the first has this number. -/
def stream : Nat → List CycleRecord → List CycleStatus
  | _, [] => []
  | number, r :: rest => r.statuses number ++ stream (number + 1) rest

theorem stream_append {number : Nat} {rs qs : List CycleRecord} :
    stream number (rs ++ qs) = stream number rs ++ stream (number + rs.length) qs := by
  induction rs generalizing number with
  | nil => rfl
  | cons r rs ih =>
    rw [List.cons_append, stream, ih, stream, List.append_assoc, List.length_cons, Nat.add_assoc,
      Nat.add_comm 1]

theorem stream_singleton {number : Nat} {r : CycleRecord} : stream number [r] = r.statuses number :=
  List.append_nil _

/-! ## The ledger -/

/-- What has been reported so far is accounted for by records of past cycles and of the running one. The
state is given by the number of cycles begun, the cursor, the failures of the running cycle and the number
of plots registered. -/
structure Ledger (entries : List Progress) (reports : List CycleStatus) (count : Nat)
    (cursor : Option Nat) (failures plots : Nat) (past running : List CycleRecord) : Prop where
  entries : entries = (past ++ running).flatMap CycleRecord.progress
  reports : reports = stream 1 (past ++ running)
  count : past.length + running.length = count
  cursor : running.map (fun r => r.visits.length) = cursor.toList
  failures : ∀ r ∈ running, r.failures = failures
  within : ∀ r ∈ past ++ running, r.Within plots
  finished : ∀ r ∈ past, r.Finished
  unfinished : ∀ r ∈ running, r.Unfinished

namespace Ledger

variable {entries : List Progress} {reports : List CycleStatus} {count failures plots : Nat}
  {cursor : Option Nat} {past running : List CycleRecord} {c : Nat}

theorem mono {more : Nat} (h : Ledger entries reports count cursor failures plots past running)
    (hle : plots ≤ more) : Ledger entries reports count cursor failures more past running :=
  { h with within := fun r hr => (h.within r hr).mono hle }

theorem length_running (h : Ledger entries reports count cursor failures plots past running) :
    running.length = cursor.isSome.toNat := by
  rw [← List.length_map, h.cursor]
  cases cursor <;> rfl

theorem running_eq_nil (h : Ledger entries reports count none failures plots past running) :
    running = [] :=
  List.map_eq_nil_iff.mp h.cursor

theorem running_eq_singleton (h : Ledger entries reports count (some c) failures plots past running) :
    ∃ r, running = [r] ∧ r.visits.length = c := by
  obtain ⟨r, rest, rfl, hr, hrest⟩ := List.map_eq_cons_iff.mp h.cursor
  obtain rfl := List.map_eq_nil_iff.mp hrest
  exact ⟨r, rfl, hr⟩

/-- Failures count only while a cycle is running. -/
theorem idle (h : Ledger entries reports count none failures plots past running) (left : Nat) :
    Ledger entries reports count none left plots past running :=
  { h with failures := fun r hr => by rw [h.running_eq_nil] at hr; cases hr }

/-- A cycle begins. -/
theorem begun (h : Ledger entries reports count none failures plots past running) (hpos : 0 < plots) :
    Ledger (entries ++ [.begun plots]) (reports ++ [⟨count + 1, 0, plots, 0⟩]) (count + 1) (some 0) 0
      plots past [⟨plots, []⟩] := by
  obtain rfl := h.running_eq_nil
  obtain ⟨hentries, hreports, hcount, -, -, hwithin, hfinished, -⟩ := h
  rw [List.append_nil] at hentries hreports hwithin
  rw [List.length_nil, Nat.add_zero] at hcount
  refine ⟨?_, ?_, ?_, rfl, ?_, ?_, hfinished, ?_⟩
  · rw [hentries, List.flatMap_append]
    rfl
  · rw [hreports, stream_append, stream_singleton, hcount, Nat.add_comm 1]
    rfl
  · rw [hcount]
    rfl
  · exact List.forall_mem_singleton.mpr rfl
  · exact List.forall_mem_append.mpr ⟨hwithin, List.forall_mem_singleton.mpr CycleRecord.within_opened⟩
  · exact List.forall_mem_singleton.mpr (CycleRecord.unfinished_opened hpos)

/-- A cycle begins and ends with nothing to visit. -/
theorem passed (h : Ledger entries reports count none failures 0 past running) (left : Nat) :
    Ledger (entries ++ [.begun 0]) (reports ++ [⟨count + 1, 0, 0, 0⟩]) (count + 1) none left 0
      (past ++ [⟨0, []⟩]) [] := by
  obtain rfl := h.running_eq_nil
  obtain ⟨hentries, hreports, hcount, -, -, hwithin, hfinished, -⟩ := h
  rw [List.append_nil] at hentries hreports hwithin
  rw [List.length_nil, Nat.add_zero] at hcount
  refine ⟨?_, ?_, ?_, rfl, nofun, ?_, ?_, nofun⟩
  · rw [hentries, List.append_nil, List.flatMap_append]
    rfl
  · rw [hreports, List.append_nil, stream_append, stream_singleton, hcount, Nat.add_comm 1]
    rfl
  · rw [List.length_append, hcount]
    rfl
  · rw [List.append_nil]
    exact List.forall_mem_append.mpr ⟨hwithin, List.forall_mem_singleton.mpr CycleRecord.within_opened⟩
  · exact List.forall_mem_append.mpr ⟨hfinished, List.forall_mem_singleton.mpr CycleRecord.finished_empty⟩

/-- A visit goes into the record of the running cycle, whether or not that is over with it. -/
theorem recorded (h : Ledger entries reports count (some c) failures plots past running)
    (hlt : c < plots) (failed : Bool) : ∃ r, running = [r] ∧ r.visits.length = c ∧
      r.failures = failures ∧ past.length + 1 = count ∧ r.Unfinished ∧
      entries ++ [.visited failed plots] = (past ++ [r.next failed plots]).flatMap CycleRecord.progress ∧
      reports ++ [⟨count, c + 1, plots, failures + failed.toNat⟩] =
        stream 1 (past ++ [r.next failed plots]) ∧
      ∀ q ∈ past ++ [r.next failed plots], q.Within plots := by
  obtain ⟨r, rfl, hr⟩ := h.running_eq_singleton
  obtain ⟨hentries, hreports, hcount, -, hfailures, hwithin, -, hunfinished⟩ := h
  have hfailed : r.failures = failures := hfailures r List.mem_cons_self
  rw [List.length_singleton] at hcount
  refine ⟨r, rfl, hr, hfailed, hcount, hunfinished r List.mem_cons_self, ?_, ?_, ?_⟩
  · rw [hentries, List.flatMap_append, List.flatMap_append, List.flatMap_singleton,
      List.flatMap_singleton, CycleRecord.progress_next, List.append_assoc]
  · rw [hreports, stream_append, stream_append, stream_singleton, stream_singleton,
      CycleRecord.statuses_next, Nat.add_comm 1, hcount, hr, hfailed, List.append_assoc]
  · obtain ⟨hpast, hrunning⟩ := List.forall_mem_append.mp hwithin
    have hnext : (r.next failed plots).Within plots :=
      (List.forall_mem_singleton.mp hrunning).next (hr ▸ hlt)
    exact List.forall_mem_append.mpr ⟨hpast, List.forall_mem_singleton.mpr hnext⟩

/-- A plot is visited, and there are more. -/
theorem visited (h : Ledger entries reports count (some c) failures plots past running)
    (hmore : c + 1 < plots) (failed : Bool) :
    ∃ running', Ledger (entries ++ [.visited failed plots])
      (reports ++ [⟨count, c + 1, plots, failures + failed.toNat⟩]) count (some (c + 1))
      (failures + failed.toNat) plots past running' := by
  obtain ⟨r, rfl, hr, hfailures, hcount, hunfinished, hentries, hreports, hwithin⟩ :=
    h.recorded (Nat.lt_of_succ_lt hmore) failed
  refine ⟨[r.next failed plots], hentries, hreports, hcount, ?_, ?_, hwithin, h.finished, ?_⟩
  · simp [hr]
  · exact List.forall_mem_singleton.mpr (by rw [CycleRecord.failures_next, hfailures])
  · exact List.forall_mem_singleton.mpr (hunfinished.next (hr ▸ hmore))

/-- The last plot is visited, and the cycle is over. -/
theorem ended (h : Ledger entries reports count (some c) failures plots past running)
    (hlast : c + 1 = plots) (failed : Bool) (left : Nat) :
    ∃ past', Ledger (entries ++ [.visited failed plots])
      (reports ++ [⟨count, c + 1, plots, failures + failed.toNat⟩]) count none left plots past' [] := by
  obtain ⟨r, rfl, hr, hfailures, hcount, hunfinished, hentries, hreports, hwithin⟩ :=
    h.recorded (Nat.lt_of_succ_le (Nat.le_of_eq hlast)) failed
  refine ⟨past ++ [r.next failed plots], ?_, ?_, ?_, rfl, nofun, ?_, ?_, nofun⟩
  · rw [hentries, List.append_nil]
  · rw [hreports, List.append_nil]
  · rw [List.length_append]
    exact hcount
  · rwa [List.append_nil]
  · exact List.forall_mem_append.mpr
      ⟨h.finished, List.forall_mem_singleton.mpr (hunfinished.finish (hr ▸ hlast))⟩

end Ledger

namespace Scheduler

variable {σ : Type} {w : Surroundings σ} {t : Turn} {s s' : Scheduler} {turns : List Turn}

/-! ## What a turn adds -/

/-- What there is to report about a turn. -/
def Turn.progress (t : Turn) : List Progress :=
  (t.visit?.map fun _ => .visited t.failed t.after.plots.length).toList ++
    if t.begins then [.begun t.after.plots.length] else []

/-- The turns are accounted for in this state. -/
def Accounted (turns : List Turn) (s : Scheduler) : Prop :=
  ∃ past running, Ledger (turns.flatMap Turn.progress) (statuses (turns.flatMap (·.events)))
    s.cycleCount s.cursor s.cycleFailures s.plots.length past running

theorem Accounted.turn (h : Accounted turns t.before) (hk : t.Kind) (hr : t.Reports)
    (hplots : t.before.plots.length ≤ t.after.plots.length) : Accounted (turns ++ [t]) t.after := by
  obtain ⟨past, running, h⟩ := h
  have hentries : (turns ++ [t]).flatMap Turn.progress = turns.flatMap Turn.progress ++ t.progress := by
    rw [List.flatMap_append, List.flatMap_singleton]
  have hreports : statuses ((turns ++ [t]).flatMap (·.events)) =
      statuses (turns.flatMap (·.events)) ++ statuses t.events := by
    rw [List.flatMap_append, List.flatMap_singleton, statuses_append]
  unfold Accounted
  rw [hentries, hreports, hr.statuses, Turn.progress]
  cases hk with
  | aside cursor count queue noted idle told =>
    have hvisit := Turn.visit?_eq_none idle
    have hbegins : t.begins = false := Turn.begins_eq_false count
    have hfailed : t.failed = false := Turn.failed_eq_false hvisit
    -- failures may be stale, but only as long as no cycle is running
    have hfailures := hr.failures
    rw [hvisit, hbegins, count, cursor]
    rw [cursor, hbegins, hfailed] at hfailures
    simp only [Option.map_none, Option.toList_none, Bool.false_eq_true, if_false, List.append_nil]
    cases hc : t.before.cursor with
    | none =>
      rw [hc] at h
      exact ⟨past, running, (h.mono hplots).idle _⟩
    | some c =>
      rw [hc] at h
      rw [hfailures (by rw [hc]; nofun)]
      exact ⟨past, running, h.mono hplots⟩
  | begins idle asked somePlot plots cursor count queue told =>
    have hvisit : t.visit? = none := Turn.visit?_eq_none fun _ => idle
    have hbegins : t.begins = true := Turn.begins_eq_true count
    have hfailures : t.after.cycleFailures = 0 := by
      rw [hr.failures (by rw [cursor]; nofun), hbegins, if_pos rfl]
    rw [idle] at h
    rw [hvisit, hbegins, count, cursor, hfailures, plots]
    exact ⟨past, _, h.begun (List.length_pos_iff.mpr somePlot)⟩
  | passes idle asked noPlot cursor count told =>
    have hvisit : t.visit? = none := Turn.visit?_eq_none fun _ => idle
    have hbegins : t.begins = true := Turn.begins_eq_true count
    have hnone : t.before.plots.length = 0 := by
      rw [noPlot] at hplots
      exact Nat.le_zero.mp hplots
    rw [idle, hnone] at h
    rw [hvisit, hbegins, count, cursor, noPlot, opening, hnone]
    exact ⟨_, _, h.passed _⟩
  | visits c step running more plots cursor count queue told =>
    have hvisit : t.visit? = some c := Turn.visit?_eq_some step running
    have hbegins : t.begins = false := Turn.begins_eq_false count
    have hfailures : t.after.cycleFailures = t.before.cycleFailures + t.failed.toNat := by
      rw [hr.failures (by rw [cursor]; nofun), hbegins, if_neg Bool.false_ne_true]
    rw [running] at h
    obtain ⟨running', hvisited⟩ := h.visited more t.failed
    rw [hvisit, hbegins, count, cursor, hfailures, plots]
    refine ⟨past, running', ?_⟩
    simpa [reached] using hvisited
  | ends c step running last plots unasked cursor count told =>
    have hvisit : t.visit? = some c := Turn.visit?_eq_some step running
    have hbegins : t.begins = false := Turn.begins_eq_false count
    rw [running] at h
    obtain ⟨past', hended⟩ := h.ended last t.failed t.after.cycleFailures
    rw [hvisit, hbegins, count, cursor, plots]
    refine ⟨past', [], ?_⟩
    simpa [reached] using hended
  | renews c step running last plots asked seen cursor count queue told =>
    have hvisit : t.visit? = some c := Turn.visit?_eq_some step running
    have hbegins : t.begins = true := Turn.begins_eq_true count
    have hfailures : t.after.cycleFailures = 0 := by
      rw [hr.failures (by rw [cursor]; nofun), hbegins, if_pos rfl]
    have hpos : 0 < t.before.plots.length := last ▸ Nat.succ_pos c
    rw [running] at h
    -- the follow-up begins where the cycle has ended
    obtain ⟨past', hended⟩ := h.ended last t.failed t.before.cycleFailures
    rw [hvisit, hbegins, count, cursor, hfailures, plots]
    refine ⟨past', [⟨t.before.plots.length, []⟩], ?_⟩
    simpa [reached, opening, List.append_assoc] using hended.begun hpos

/-! ## Over a run -/

/-- A run goes on with an account, as long as its turns report. -/
theorem Run.accounted {earlier : List Turn} (hs : Sound s) (hreports : ∀ t ∈ turns, t.Reports)
    (hearlier : Accounted earlier s) (h : Run w s turns s') : Accounted (earlier ++ turns) s' := by
  induction h generalizing earlier with
  | nil s => rwa [List.append_nil]
  | @cons t turns s' ht _ ih =>
    obtain ⟨hreport, hreports⟩ := List.forall_mem_cons.mp hreports
    have hnext := hearlier.turn (ht.kind hs) hreport (ht.frame hs).plots
    rw [List.append_cons]
    exact ih (ht.sound hs) hreports hnext

/-- Some ledger accounts for these reports, with so many plots registered. -/
def Consistent (reports : List CycleStatus) (plots : Nat) : Prop :=
  ∃ entries count cursor failures past running,
    Ledger entries reports count cursor failures plots past running

/-- A step of the running cycle reports what fits, whether or not it comes to an end. -/
theorem Accounted.step {c : Nat} (hs : Sound s) (hl : s.statusLink = .attached)
    (h : Accounted turns s) (hc : s.cursor = some c) (m : σ) :
    Consistent (statuses (turns.flatMap (·.events)) ++ statuses (s.step w m).events)
      s.plots.length := by
  obtain ⟨past, running, h⟩ := h
  have hlt := hs.registered c hc
  rw [hc] at h
  rw [statuses_of_step hl hc hlt m]
  cases (s.visit w c m).value with
  | none =>
    dsimp only
    rw [List.append_nil]
    exact ⟨_, _, _, _, _, _, h⟩
  | some success =>
    dsimp only
    rw [List.append_cons]
    by_cases hlast : c + 1 = s.plots.length
    · obtain ⟨past', hended⟩ := h.ended hlast (!success) 0
      split
      · exact ⟨_, _, _, _, _, _, hended.begun (hlast ▸ Nat.succ_pos c)⟩
      · rw [List.append_nil]
        exact ⟨_, _, _, _, _, _, hended⟩
    · obtain ⟨running', hvisited⟩ := h.visited (Nat.lt_of_le_of_ne hlt hlast) (!success)
      rw [if_neg fun hend => hlast hend.1, List.append_nil]
      exact ⟨_, _, _, _, _, _, hvisited⟩

/-- The opening of a cycle fits, if there is one, and so does that of a cycle over no plots. -/
theorem Accounted.opening (h : Accounted turns s) :
    Consistent (statuses (turns.flatMap (·.events)) ++ if s.cycling then [] else [s.opening])
      s.plots.length := by
  obtain ⟨past, running, h⟩ := h
  cases hc : s.cursor with
  | some c =>
    have hcycling : s.cycling = true := by rw [cycling, hc]; rfl
    rw [if_pos hcycling, List.append_nil]
    exact ⟨_, _, _, _, _, _, h⟩
  | none =>
    rw [if_neg (not_cycling_iff.mpr hc), Scheduler.opening]
    rw [hc] at h
    rcases Nat.eq_zero_or_pos s.plots.length with hzero | hpos
    · rw [hzero] at h ⊢
      exact ⟨_, _, _, _, _, _, h.passed 0⟩
    · exact ⟨_, _, _, _, _, _, h.begun hpos⟩

/-- One more operation reports what fits. There may be no state after it, so this is told from its reports
alone. -/
theorem Accounted.operation (hs : Sound s) (hl : s.statusLink = .attached) (h : Accounted turns s)
    (op : Operation) (m : σ) :
    Consistent (statuses (turns.flatMap (·.events)) ++ statuses (op.perform w s m).events)
      s.plots.length := by
  have hnothing : Consistent (statuses (turns.flatMap (·.events)) ++ []) s.plots.length := by
    obtain ⟨past, running, h⟩ := h
    rw [List.append_nil]
    exact ⟨_, _, _, _, _, _, h⟩
  by_cases hop : op = .step
  · subst hop
    cases hc : s.cursor with
    | some c => exact h.step hs hl hc m
    | none =>
      have hidle : statuses (Operation.perform w .step s m).events = [] := by
        change statuses (s.step w m).events = []
        rw [Scheduler.step, hc]
        rfl
      rwa [hidle]
  · by_cases hr : op.requests s
    · rw [statuses_of_requests hl hs.queued hr m]
      exact h.opening
    · rwa [statuses_of_aside (by simpa using hr) hop m]

/-- **The stream of statuses is one block for each cycle**, numbered from one on. Whatever is done with a
scheduler whose receiver stays, and whatever the backend and the clock do in between, there are records of
the past cycles and of the running one, if there is one, such that

* they say in turn what has happened: that a cycle has begun or a step has visited a plot, whether that
  failed, and how many plots were registered by then;
* the statuses are those of the records: in each block one before the first visit and one after each, with
  the number of visits and of failed ones so far, and the number of plots registered by then;
* in each block the totals grow, and no more plots are visited than there are;
* the last status of a past cycle, and no other, is that of a finished one, and none of the running cycle is.

Each turn reports its own visit, and then the cycle that begins in it. A visit has failed exactly if the
retrieval of one of the series of its plot has; a plot that is refreshed since its source has changed is not
visited by a step, and does not count. An operation that does not come to an end leaves a stream of the same
form. Running a whole cycle is a run, too (`Run.of_runCycle`). -/
theorem statuses_in_cycles {announcesStart announcesComplete : Bool}
    (h : Run w (fresh announcesStart announcesComplete .attached) turns s)
    (hstays : ∀ t ∈ turns, t.operation ≠ .loseReceiver) :
    (∃ past running : List CycleRecord,
      turns.flatMap Turn.progress = (past ++ running).flatMap CycleRecord.progress ∧
      statuses (turns.flatMap (·.events)) = stream 1 (past ++ running) ∧
      past.length + running.length = s.cycleCount ∧ running.length = s.cycling.toNat ∧
      (∀ r ∈ past ++ running, r.Within s.plots.length) ∧
      (∀ r ∈ past, r.Finished) ∧ ∀ r ∈ running, r.Unfinished) ∧
    (∀ t ∈ turns, statuses t.events = (t.visit?.map fun c => t.before.reached c !t.failed).toList ++
      if t.begins then [t.before.opening] else []) ∧
    (∀ t ∈ turns, ∀ c, t.visit? = some c →
      ∀ m m', t.operation.perform w t.before m = ⟨t.events, m', some t.after⟩ →
        Retrieved w t.before (t.before.series c) m (!t.failed)) ∧
    ∀ (op : Operation) (m : σ), ∃ past running : List CycleRecord,
      statuses (turns.flatMap (·.events) ++ (op.perform w s m).events) = stream 1 (past ++ running) ∧
      running.length ≤ 1 ∧ (∀ r ∈ past ++ running, r.Within s.plots.length) ∧
      (∀ r ∈ past, r.Finished) ∧ ∀ r ∈ running, r.Unfinished := by
  have hs := sound_fresh announcesStart announcesComplete .attached
  have hnone : Accounted [] (fresh announcesStart announcesComplete .attached) :=
    ⟨[], [], rfl, rfl, rfl, rfl, nofun, nofun, nofun, nofun⟩
  obtain ⟨hreports, hattached⟩ := h.reports hs rfl hstays
  have haccounted := h.accounted hs hreports hnone
  rw [List.nil_append] at haccounted
  refine ⟨?_, fun t ht => (hreports t ht).statuses, fun t ht c hc m m' hperform => ?_, fun op m => ?_⟩
  · obtain ⟨past, running, hledger⟩ := haccounted
    exact ⟨past, running, hledger.entries, hledger.reports, hledger.count, hledger.length_running,
      hledger.within, hledger.finished, hledger.unfinished⟩
  · obtain ⟨-, hsound, -⟩ := h.mem hs t ht
    exact t.retrieved hsound hperform hc
  · obtain ⟨entries, count, cursor, failures, past, running, hledger⟩ :=
      haccounted.operation (hs.run h) hattached op m
    rw [statuses_append]
    refine ⟨past, running, hledger.reports, ?_, hledger.within, hledger.finished, hledger.unfinished⟩
    rw [hledger.length_running]
    exact Bool.toNat_le _

/-- A plot with a series that nobody has. -/
def lostPlot : Plot := ⟨some ⟨[⟨"lost", none, none⟩]⟩, false, false⟩

/-- A bare plot and a lost one are registered, and refreshed in one cycle. -/
def halfLost : List Turn :=
  let empty : Scheduler := fresh false false .attached
  let single : Scheduler := { empty with plots := [barePlot] }
  let ready : Scheduler := { single with plots := [barePlot, lostPlot] }
  let running : Scheduler := { ready with cursor := some 0, cycleCount := 1 }
  let halfway : Scheduler := { running with cursor := some 1 }
  [⟨.addPlot barePlot, empty, [], single⟩, ⟨.addPlot lostPlot, single, [], ready⟩,
    ⟨.refreshAll, ready, [.status ⟨1, 0, 2, 0⟩], running⟩,
    ⟨.step, running, [.status ⟨1, 1, 2, 0⟩], halfway⟩,
    ⟨.step, halfway, (halfway.step stillness ()).events,
      { halfway with cursor := none, cycleFailures := 1 }⟩]

theorem statuses_of_halfLost :
    ∃ s, Run stillness (fresh false false .attached) halfLost s ∧ s.cycleCount = 1 ∧ s.cycling = false ∧
      statuses (halfLost.flatMap (·.events)) = [⟨1, 0, 2, 0⟩, ⟨1, 1, 2, 0⟩, ⟨1, 2, 2, 1⟩] ∧
      ∃ past : List CycleRecord,
        [⟨1, 0, 2, 0⟩, ⟨1, 1, 2, 0⟩, ⟨1, 2, 2, 1⟩] = stream 1 past ∧ past.length = 1 ∧
        ∀ r ∈ past, r.Within 2 ∧ r.Finished := by
  have hrun : Run stillness (fresh false false .attached) halfLost _ :=
    .cons (t := halfLost[0]) ⟨(), (), rfl⟩ <| .cons (t := halfLost[1]) ⟨(), (), rfl⟩ <|
      .cons (t := halfLost[2]) ⟨(), (), rfl⟩ <| .cons (t := halfLost[3]) ⟨(), (), rfl⟩ <|
        .cons (t := halfLost[4]) ⟨(), (), rfl⟩ (.nil _)
  have hreports : statuses (halfLost.flatMap (·.events)) =
      [⟨1, 0, 2, 0⟩, ⟨1, 1, 2, 0⟩, ⟨1, 2, 2, 1⟩] := rfl
  obtain ⟨⟨past, running, -, hstream, hnumber, hnone, hwithin, hfinished, -⟩, -⟩ :=
    statuses_in_cycles hrun (by decide)
  obtain rfl : running = [] := List.length_eq_zero_iff.mp hnone
  rw [List.append_nil] at hstream hwithin
  exact ⟨_, hrun, rfl, rfl, hreports, past, hreports.symm.trans hstream, hnumber,
    fun r hr => ⟨hwithin r hr, hfinished r hr⟩⟩

end Scheduler

end HistogramMonitor
