import HistogramMonitor.Proofs.Scheduler.Statuses

/-!
# Cycles over a registry that stays as it is

While no plot is registered, every cycle visits the same number of plots. Then the visits of all cycles, one
after the other, fall into blocks of that length, and the statuses into blocks that are longer by one: the
last status of a block, and no other, is that of a finished cycle, and it counts the failures of its block
(`Ledger.filter_reports`).

Whoever has read some of the statuses knows from the finished ones among them how many that are, up to a block
(`Ledger.length_lt`).
-/

namespace HistogramMonitor

/-- The plots that are registered at that moment. -/
def Progress.plots : Progress → Nat
  | .begun plots => plots
  | .visited _ plots => plots

/-- Whether the visit failed, if it is one. -/
def Progress.failed? : Progress → Option Bool
  | .begun _ => none
  | .visited failed _ => some failed

/-- The last status of the cycle behind `i` others, where each cycle has `n` visits and these are the visits of
all of them. -/
def lastStatus (n : Nat) (failed : List Bool) (i : Nat) : CycleStatus :=
  ⟨i + 1, n, n, ((failed.drop (i * n)).take n).count true⟩

/-! ## One block -/

namespace CycleRecord

variable {r : CycleRecord} {n : Nat}

/-- For each visit, whether it failed. -/
def failed (r : CycleRecord) : List Bool := r.visits.map Prod.fst

theorem failures_eq (r : CycleRecord) : r.failures = r.failed.count true := by
  rw [failures, failed, List.count, List.countP_map]
  exact congrArg (List.countP · r.visits) (funext fun v => (beq_true v.1).symm)

theorem filterMap_progress (r : CycleRecord) : r.progress.filterMap Progress.failed? = r.failed := by
  have hvisits : (r.visits.map fun v => Progress.visited v.1 v.2).filterMap Progress.failed? = r.failed := by
    rw [List.filterMap_map, failed, ← List.filterMap_eq_map]
    rfl
  rw [progress, List.filterMap_cons]
  exact hvisits

theorem length_statuses (number : Nat) (r : CycleRecord) :
    (r.statuses number).length = r.visits.length + 1 := by
  rw [statuses, List.length_map, List.length_range]

theorem getLast?_statuses (number : Nat) (r : CycleRecord) :
    (r.statuses number).getLast? = some (r.status number) := by
  have hwhole : r.upTo r.visits.length = r := by rw [upTo, List.take_length]
  rw [statuses, List.range_succ, List.map_append, List.map_singleton, List.getLast?_concat, hwhole]

/-- A cycle that is over has visited `n` plots, and its last status and no other says that it has. -/
structure Complete (n : Nat) (r : CycleRecord) : Prop where
  length : r.visits.length = n
  filter : ∀ number, (r.statuses number).filter (·.finished) = [⟨number, n, n, r.failed.count true⟩]

/-- While `n` plots are registered, the total of a status is `n`. -/
theorem total_status (hsteady : ∀ e ∈ r.progress, e.plots = n) (number : Nat) :
    (r.status number).total = n := by
  obtain ⟨hbegun, hvisited⟩ := List.forall_mem_cons.mp hsteady
  change (r.visits.getLast?.map Prod.snd).getD r.plots = n
  cases hlast : r.visits.getLast? with
  | none => exact hbegun
  | some v => exact hvisited _ (List.mem_map.mpr ⟨v, List.mem_of_getLast? hlast, rfl⟩)

theorem Finished.complete (h : r.Finished) (hwithin : r.Within n) (hsteady : ∀ e ∈ r.progress, e.plots = n) :
    r.Complete n := by
  -- the last status of the block is the one of a finished cycle
  have hlast : ∀ number, (r.status number).finished ∧
      (r.statuses number).filter (·.finished) = [r.status number] := by
    intro number
    obtain ⟨earlier, last, hstatuses, hfinished, hearlier⟩ := h number
    have hsame := getLast?_statuses number r
    rw [hstatuses, List.getLast?_concat] at hsame
    obtain rfl := Option.some.inj hsame
    refine ⟨hfinished, ?_⟩
    rw [hstatuses, List.filter_append, List.filter_eq_nil_iff.mpr fun x hx => by simp [hearlier x hx],
      List.nil_append, List.filter_cons_of_pos hfinished]
    rfl
  have hmem : ∀ number, r.status number ∈ r.statuses number :=
    fun number => List.mem_of_getLast? (getLast?_statuses number r)
  have hlength : r.visits.length = n := by
    have hge : (r.status 1).total ≤ r.visits.length := of_decide_eq_true (hlast 1).1
    have hle := (hwithin.bounded 1 _ (hmem 1)).1
    rw [total_status hsteady] at hge hle
    exact Nat.le_antisymm hle hge
  refine ⟨hlength, fun number => ?_⟩
  have hstatus : r.status number = ⟨number, n, n, r.failed.count true⟩ := by
    have hfields : r.status number = ⟨number, r.visits.length, (r.status number).total, r.failures⟩ := rfl
    rw [hfields, hlength, total_status hsteady, failures_eq]
  rw [(hlast number).2, hstatus]

/-- A cycle that is not over has not visited all plots. -/
theorem Unfinished.length_lt (h : r.Unfinished) (hsteady : ∀ e ∈ r.progress, e.plots = n) :
    r.visits.length < n := by
  have hlast := h 1 _ (List.mem_of_getLast? (getLast?_statuses 1 r))
  have hnot : ¬ (r.status 1).total ≤ r.visits.length := of_decide_eq_false hlast
  rw [total_status hsteady] at hnot
  exact Nat.lt_of_not_le hnot

end CycleRecord

/-! ## Blocks in a row -/

variable {n : Nat} {rs : List CycleRecord}

theorem length_stream (hrs : ∀ r ∈ rs, r.Complete n) :
    ∀ number, (stream number rs).length = rs.length * (n + 1) := by
  induction rs with
  | nil => exact fun number => (Nat.zero_mul _).symm
  | cons r rest ih =>
    obtain ⟨hr, hrest⟩ := List.forall_mem_cons.mp hrs
    intro number
    rw [stream, List.length_append, CycleRecord.length_statuses, hr.length, ih hrest, List.length_cons,
      Nat.succ_mul, Nat.add_comm]

/-- The finished cycles of a row of blocks, behind `k` others. -/
theorem filter_stream (hrs : ∀ r ∈ rs, r.Complete n) (more : List Bool) :
    ∀ k, (stream (k + 1) rs).filter (·.finished) = (List.range rs.length).map fun i =>
      ⟨k + i + 1, n, n, (((rs.flatMap CycleRecord.failed ++ more).drop (i * n)).take n).count true⟩ := by
  induction rs with
  | nil => exact fun k => rfl
  | cons r rest ih =>
    obtain ⟨hr, hrest⟩ := List.forall_mem_cons.mp hrs
    have hlength : r.failed.length = n := by rw [CycleRecord.failed, List.length_map, hr.length]
    intro k
    rw [stream, List.filter_append, hr.filter, ih hrest, List.length_cons, List.range_succ_eq_map,
      List.map_cons, List.map_map, List.flatMap_cons, List.append_assoc, Nat.zero_mul, List.drop_zero,
      List.take_left' hlength]
    refine congrArg (_ :: ·) (List.map_congr_left fun i _ => ?_)
    -- the block of this cycle lies in front
    have hdrop : ((i + 1) * n) = r.failed.length + i * n := by rw [hlength, Nat.succ_mul, Nat.add_comm]
    dsimp only [Function.comp, Nat.succ_eq_add_one]
    rw [hdrop, ← List.drop_drop, List.drop_left, Nat.add_right_comm k 1 i, Nat.add_assoc k i 1]

/-! ## The ledger -/

namespace Ledger

variable {entries : List Progress} {reports : List CycleStatus} {count failures : Nat} {cursor : Option Nat}
  {past running : List CycleRecord}

/-- What is said about every entry is said about those of one record. -/
theorem forall_mem_progress (h : Ledger entries reports count cursor failures n past running)
    (hsteady : ∀ e ∈ entries, e.plots = n) {r : CycleRecord} (hr : r ∈ past ++ running) :
    ∀ e ∈ r.progress, e.plots = n := by
  rw [h.entries] at hsteady
  exact fun e he => hsteady e (List.mem_flatMap.mpr ⟨r, hr, he⟩)

theorem complete (h : Ledger entries reports count cursor failures n past running)
    (hsteady : ∀ e ∈ entries, e.plots = n) : ∀ r ∈ past, r.Complete n := fun r hr =>
  (h.finished r hr).complete (h.within r (List.mem_append_left _ hr))
    (h.forall_mem_progress hsteady (List.mem_append_left _ hr))

theorem filterMap_entries (h : Ledger entries reports count cursor failures n past running) :
    entries.filterMap Progress.failed? =
      past.flatMap CycleRecord.failed ++ running.flatMap CycleRecord.failed := by
  rw [h.entries, List.filterMap_flatMap, List.flatMap_append]
  simp only [CycleRecord.filterMap_progress]

/-- There are `n` visits in each cycle that is over, and in the running one those up to the cursor. -/
theorem length_failed (h : Ledger entries reports count cursor failures n past running)
    (hsteady : ∀ e ∈ entries, e.plots = n) :
    (entries.filterMap Progress.failed?).length = past.length * n + cursor.getD 0 := by
  have hpast : (past.flatMap CycleRecord.failed).length = past.length * n := by
    rw [List.length_flatMap, List.map_congr_left fun r hr => ?_, List.map_const', List.sum_replicate_nat]
    exact (List.length_map ..).trans (h.complete hsteady r hr).length
  have hrunning : (running.flatMap CycleRecord.failed).length = cursor.getD 0 := by
    cases cursor with
    | none =>
      rw [h.running_eq_nil]
      rfl
    | some c =>
      obtain ⟨r, rfl, hr⟩ := h.running_eq_singleton
      rw [List.flatMap_singleton, CycleRecord.failed, List.length_map, hr]
      rfl
  rw [h.filterMap_entries, List.length_append, hpast, hrunning]

/-- **The finished cycles** among the statuses are those that are over, in their order and with their
failures. -/
theorem filter_reports (h : Ledger entries reports count cursor failures n past running)
    (hsteady : ∀ e ∈ entries, e.plots = n) : reports.filter (·.finished) =
      (List.range past.length).map (lastStatus n (entries.filterMap Progress.failed?)) := by
  have hrunning : ∀ number, (stream number running).filter (·.finished) = [] := by
    intro number
    cases cursor with
    | none =>
      rw [h.running_eq_nil]
      rfl
    | some c =>
      obtain ⟨r, rfl, -⟩ := h.running_eq_singleton
      rw [stream_singleton]
      exact List.filter_eq_nil_iff.mpr fun x hx => by simp [h.unfinished r List.mem_cons_self number x hx]
  have hpast := filter_stream (h.complete hsteady) (running.flatMap CycleRecord.failed) 0
  rw [h.reports, stream_append, List.filter_append, hrunning, List.append_nil, hpast, h.filterMap_entries]
  simp only [Nat.zero_add]
  rfl

/-- The statuses are those of the cycles that are over and less than a block. -/
theorem length_reports_lt (h : Ledger entries reports count cursor failures n past running)
    (hsteady : ∀ e ∈ entries, e.plots = n) : reports.length < (past.length + 1) * (n + 1) := by
  have hrunning : ∀ number, (stream number running).length < n + 1 := by
    intro number
    cases cursor with
    | none =>
      rw [h.running_eq_nil]
      exact Nat.succ_pos n
    | some c =>
      obtain ⟨r, rfl, -⟩ := h.running_eq_singleton
      have hlt := (h.unfinished r List.mem_cons_self).length_lt
        (h.forall_mem_progress hsteady (List.mem_append_right _ List.mem_cons_self))
      rw [stream_singleton, CycleRecord.length_statuses]
      exact Nat.succ_lt_succ hlt
  rw [h.reports, stream_append, List.length_append, length_stream (h.complete hsteady), Nat.succ_mul]
  exact Nat.add_lt_add_left (hrunning _) _

/-- Who has read a whole block more than there are finished cycles in it has read another finished one. -/
theorem length_lt (h : Ledger entries reports count cursor failures n past running)
    (hsteady : ∀ e ∈ entries, e.plots = n) {read : List CycleStatus} (hread : read <+: reports) :
    read.length < ((read.filter (·.finished)).length + 1) * (n + 1) := by
  generalize hk : (read.filter (·.finished)).length + 1 = k
  refine Nat.lt_of_not_le fun hblocks => ?_
  have hmany : k ≤ past.length := by
    have hreports := Nat.lt_of_le_of_lt (Nat.le_trans hblocks hread.length_le) (h.length_reports_lt hsteady)
    exact Nat.le_of_lt_succ (Nat.lt_of_mul_lt_mul_right hreports)
  -- so many blocks lie within what has been read
  have hcomplete : ∀ r ∈ past.take k, r.Complete n :=
    fun r hr => h.complete hsteady r (List.mem_of_mem_take hr)
  have htake : (past.take k).length = k := List.length_take_of_le hmany
  have hfront : stream 1 (past.take k) <+: reports := by
    refine ⟨stream (1 + (past.take k).length) (past.drop k ++ running), ?_⟩
    rw [h.reports, ← stream_append, ← List.append_assoc, List.take_append_drop]
  have hwithin : stream 1 (past.take k) <+: read := by
    refine List.prefix_of_prefix_length_le hfront hread ?_
    rw [length_stream hcomplete, htake]
    exact hblocks
  have hfew := (hwithin.filter (·.finished)).length_le
  rw [filter_stream hcomplete [] 0, List.length_map, List.length_range, htake, ← hk] at hfew
  exact Nat.not_succ_le_self _ hfew

end Ledger

end HistogramMonitor
