import HistogramMonitor.Proofs.Scheduler.Turns

/-!
# Cycles are whole

What happens to cycles in a run is written down as a row of *marks*: a cycle has begun, a step has visited
a plot, a cycle has ended. Cycles are numbered, so the marks of a turn can be read off the states around
it (`Turn.marks`).

The row is as orderly as can be: one whole cycle after the other, each with every plot that is registered
at its end once and in order, and then what there is so far of the cycle that is running. One turn carries
this over from the state before it to the state after it (`Turn.Kind.accounts`), and so does a run. What
somebody is told about cycles follows from the marks turn by turn. Headline: `cycles_whole`.
-/

namespace HistogramMonitor.Scheduler

open HistogramMonitor.Action

variable {σ : Type} {w : Surroundings σ} {t : Turn}

/-! ## Marks -/

/-- Something that happens to a cycle. -/
inductive Mark
  | begun
  /-- a step has visited the plot -/
  | visited (plot : Nat)
  /-- the cycle has ended with so many plots registered -/
  | ended (plots : Nat)
  deriving DecidableEq

/-- What somebody who wants to know is told of it. -/
def Mark.told (announcesStart announcesComplete : Bool) : Mark → List Event
  | begun => if announcesStart then [.cycleStart] else []
  | visited _ => []
  | ended _ => if announcesComplete then [.cycleComplete] else []

namespace Turn

/-- The plot that the turn visits for the running cycle. Only steps do so: a plot that is refreshed since
its source has changed is no part of a cycle. -/
def visit? (t : Turn) : Option Nat := if t.operation = .step then t.before.cursor else none

/-- Whether a cycle begins. -/
def begins (t : Turn) : Bool := t.before.cycleCount < t.after.cycleCount

/-- Whether the cycle that was running ends: afterwards none is running, or one with another number. -/
def ends (t : Turn) : Bool := t.before.cycling && (t.begins || !t.after.cycling)

/-- What happens to cycles in a turn. A cycle that has begun and is not running afterwards has ended, too. -/
def marks (t : Turn) : List Mark :=
  t.visit?.toList.map .visited ++ (if t.ends then [.ended t.after.plots.length] else []) ++
    if t.begins then .begun :: if t.after.cycling then [] else [.ended t.after.plots.length] else []

end Turn

/-- A cycle as it should be. -/
def wholeCycle (plots : Nat) : List Mark :=
  .begun :: (List.range plots).map .visited ++ [.ended plots]

/-- What there should be so far of the running cycle. -/
def openMarks (s : Scheduler) : List Mark :=
  match s.cursor with
  | none => []
  | some c => .begun :: (List.range c).map .visited

/-! ## What one turn adds -/

/-- A step without a running cycle visits nothing. -/
theorem Turn.visit?_eq_none (h : t.operation = .step → t.before.cursor = none) :
    t.visit? = none := by
  unfold visit?
  split
  · exact h ‹_›
  · rfl

/-- The turn ends cycles over so many plots each, and tells about cycles what there is to tell. -/
structure Turn.Accounts (t : Turn) (sizes : List Nat) : Prop where
  /-- what there was of the running cycle goes on to whole cycles and what there is now -/
  marks : t.before.openMarks ++ t.marks = sizes.flatMap wholeCycle ++ t.after.openMarks
  /-- every cycle that has begun has ended or is running -/
  number : sizes.length + t.after.cycling.toNat + t.before.cycleCount =
    t.after.cycleCount + t.before.cycling.toNat
  told : boundaries t.events = if t.after.plots = [] then [] else
    t.marks.flatMap (Mark.told t.before.announcesStart t.before.announcesComplete)

theorem Turn.Kind.accounts (hk : t.Kind) : ∃ sizes, t.Accounts sizes := by
  cases hk with
  | aside cursor count _ _ idle told =>
    have hv := Turn.visit?_eq_none idle
    have hm : t.marks = [] := by
      cases hc : t.before.cursor <;>
        simp [Turn.marks, Turn.ends, Turn.begins, hv, count, cycling, cursor, hc]
    refine ⟨[], ?_, ?_, ?_⟩
    · simp [hm, openMarks, cursor]
    · simp [cycling, cursor, count, Nat.add_comm]
    · simp [hm, told]
  | begins idle _ somePlot plots cursor count _ told =>
    have hm : t.marks = [.begun] := by
      simp [Turn.marks, Turn.ends, Turn.begins, Turn.visit?, idle, cursor, count, cycling]
    refine ⟨[], ?_, ?_, ?_⟩
    · simp [hm, openMarks, idle, cursor]
    · simp [cycling, idle, cursor, count, Nat.add_comm]
    · simp [hm, told, startNotice, Mark.told, plots, somePlot]
  | passes idle _ noPlot cursor count told =>
    have hm : t.marks = wholeCycle 0 := by
      simp [Turn.marks, Turn.ends, Turn.begins, Turn.visit?, idle, cursor, count, cycling,
        noPlot, wholeCycle]
    refine ⟨[0], ?_, ?_, ?_⟩
    · simp [hm, openMarks, idle, cursor]
    · simp [cycling, idle, cursor, count, Nat.add_comm]
    · simp [told, noPlot]
  | visits c step running _ plots cursor count _ told =>
    have hm : t.marks = [.visited c] := by
      simp [Turn.marks, Turn.ends, Turn.begins, Turn.visit?, step, running, cursor, count, cycling]
    refine ⟨[], ?_, ?_, ?_⟩
    · simp [hm, openMarks, running, cursor, List.range_succ]
    · simp [cycling, running, cursor, count, Nat.add_comm]
    · simp [hm, told, Mark.told]
  | ends c step running last plots _ cursor count told =>
    have hm : t.marks = [.visited c, .ended (c + 1)] := by
      simp [Turn.marks, Turn.ends, Turn.begins, Turn.visit?, step, running, cursor, count, cycling,
        plots, last]
    have somePlot : t.before.plots ≠ [] := List.ne_nil_of_length_eq_add_one last.symm
    refine ⟨[c + 1], ?_, ?_, ?_⟩
    · simp [hm, openMarks, running, cursor, wholeCycle, List.range_succ]
    · simp [cycling, running, cursor, count, Nat.add_comm]
    · simp [hm, told, completeNotice, Mark.told, plots, somePlot]
  | renews c step running last plots _ _ cursor count _ told =>
    have hm : t.marks = [.visited c, .ended (c + 1), .begun] := by
      simp [Turn.marks, Turn.ends, Turn.begins, Turn.visit?, step, running, cursor, count, cycling,
        plots, last]
    have somePlot : t.before.plots ≠ [] := List.ne_nil_of_length_eq_add_one last.symm
    refine ⟨[c + 1], ?_, ?_, ?_⟩
    · simp [hm, openMarks, running, cursor, wholeCycle, List.range_succ]
    · simp only [cycling, running, cursor, count, Option.isSome_some, Bool.toNat_true,
        List.length_singleton]
      omega
    · simp [hm, told, startNotice, completeNotice, Mark.told, plots, somePlot]

/-- To who wants to know about both ends, a turn tells beginnings and ends in turn. -/
theorem Turn.Kind.balanced (hk : t.Kind) (ha : t.before.announcesStart)
    (hb : t.before.announcesComplete) :
    (boundaries t.events).count .cycleStart + t.before.cycling.toNat =
      (boundaries t.events).count .cycleComplete + t.after.cycling.toNat := by
  cases hk with
  | aside cursor _ _ _ _ told => simp [told, cycling, cursor]
  | begins idle _ somePlot _ cursor _ _ told =>
    simp [told, startNotice, ha, somePlot, cycling, idle, cursor]
  | passes idle _ _ cursor _ told => simp [told, cycling, idle, cursor]
  | visits c _ running _ _ cursor _ _ told => simp [told, cycling, running, cursor]
  | ends c _ running last _ _ cursor _ told =>
    have somePlot : t.before.plots ≠ [] := List.ne_nil_of_length_eq_add_one last.symm
    simp [told, completeNotice, hb, somePlot, cycling, running, cursor]
  | renews c _ running last _ _ _ cursor _ _ told =>
    have somePlot : t.before.plots ≠ [] := List.ne_nil_of_length_eq_add_one last.symm
    simp [told, startNotice, completeNotice, ha, hb, somePlot, cycling, running, cursor]

/-! ## What a step shows -/

/-- All that the turn shows is one visit of a registered plot, which shows no boundary of a cycle, and
then what is said about cycles. -/
def Turn.Shows (w : Surroundings σ) (t : Turn) (plot : Nat) : Prop :=
  plot < t.before.plots.length ∧ ∃ m es m' success rest,
    t.before.visit w plot m = ⟨es, m', some success⟩ ∧ t.events = es ++ rest ∧
      boundaries es = [] ∧ ∀ e ∈ rest, e.IsNotice

theorem Turn.Occurs.shows (hs : Sound t.before) (h : t.Occurs w) {c : Nat} (hc : t.visit? = some c) :
    t.Shows w c := by
  obtain ⟨m, m', h⟩ := h
  unfold Turn.visit? at hc
  split at hc
  · rename_i hop
    rw [hop] at h
    have hlt := hs.registered c hc
    obtain ⟨es₁, m₁, success, es₂, hv, hes, hnotice, -⟩ := step_eq_some hc hlt h
    exact ⟨hlt, m, es₁, m₁, success, es₂, hv, hes, boundaries_of_visit hv, hnotice⟩
  · cases hc

/-! ## Over a run -/

variable {s s' : Scheduler} {turns : List Turn}

/-- Every turn of a run happens in a sound state, for the same listeners. -/
theorem Run.mem (hs : Sound s) (h : Run w s turns s') :
    ∀ t ∈ turns, t.Occurs w ∧ Sound t.before ∧ t.before.announcesStart = s.announcesStart ∧
      t.before.announcesComplete = s.announcesComplete := by
  induction h with
  | nil s => simp
  | @cons t turns s' ht _ ih =>
    have hframe := ht.frame hs
    intro u hu
    rcases List.mem_cons.mp hu with rfl | hu
    · exact ⟨ht, hs, rfl, rfl⟩
    · obtain ⟨hocc, hsound, ha, hb⟩ := ih (ht.sound hs) u hu
      exact ⟨hocc, hsound, ha.trans hframe.announcesStart, hb.trans hframe.announcesComplete⟩

theorem Run.accounts (hs : Sound s) (h : Run w s turns s') :
    ∃ sizes : List Nat,
      s.openMarks ++ turns.flatMap Turn.marks = sizes.flatMap wholeCycle ++ s'.openMarks ∧
        sizes.length + s'.cycling.toNat + s.cycleCount = s'.cycleCount + s.cycling.toNat := by
  induction h with
  | nil s => exact ⟨[], by simp, by simp [Nat.add_comm]⟩
  | @cons t turns s' ht _ ih =>
    -- what the first turn leaves open is what the others go on from
    obtain ⟨sizes, h₁⟩ := (ht.kind hs).accounts
    obtain ⟨more, hmarks, hnumber⟩ := ih (ht.sound hs)
    refine ⟨sizes ++ more, ?_, ?_⟩
    · rw [List.flatMap_cons, ← List.append_assoc, h₁.marks, List.append_assoc, hmarks,
        ← List.append_assoc, List.flatMap_append]
    · have := h₁.number
      rw [List.length_append]
      omega

theorem Run.balanced (hs : Sound s) (ha : s.announcesStart) (hb : s.announcesComplete)
    (h : Run w s turns s') :
    (turns.flatMap (·.events)).count .cycleStart + s.cycling.toNat =
      (turns.flatMap (·.events)).count .cycleComplete + s'.cycling.toNat := by
  induction h with
  | nil s => simp
  | @cons t turns s' ht _ ih =>
    have hframe := ht.frame hs
    have h₁ := (ht.kind hs).balanced ha hb
    have h₂ := ih (ht.sound hs) (hframe.announcesStart.trans ha) (hframe.announcesComplete.trans hb)
    -- only boundaries are counted, so it does not matter what else happens
    rw [boundaries, List.count_filter rfl, List.count_filter rfl] at h₁
    rw [List.flatMap_cons, List.count_append, List.count_append]
    omega

/-- **Cycles are whole and never overlap.** Whatever is done with a scheduler from the beginning on, and
whatever the backend and the clock do in between:

* cycles follow each other, each with all plots that are registered at its end, once and in order, and
  behind them the running one as far as it has come; there are as many as have been counted;
* every turn tells whoever wants to know of the beginnings and ends of cycles over at least one plot, in
  their order, and of nothing else;
* a step shows the visit at the cursor first, and then only notices;
* whoever wants to know about both ends has been told of one more beginning than ends while a cycle is
  running, and of equally many otherwise;
* the cursor names a registered plot.

Running a whole cycle continues a run, with the same events. -/
theorem cycles_whole {announcesStart announcesComplete : Bool} {link : StatusLink}
    (h : Run w (fresh announcesStart announcesComplete link) turns s) :
    (∃ sizes : List Nat, turns.flatMap Turn.marks = sizes.flatMap wholeCycle ++ s.openMarks ∧
        sizes.length + s.cycling.toNat = s.cycleCount) ∧
      (∀ t ∈ turns, boundaries t.events =
        if t.after.plots = [] then [] else
          t.marks.flatMap (Mark.told announcesStart announcesComplete)) ∧
      (∀ t ∈ turns, ∀ c, t.visit? = some c → t.Shows w c) ∧
      (announcesStart → announcesComplete →
        (turns.flatMap (·.events)).count .cycleStart =
          (turns.flatMap (·.events)).count .cycleComplete + s.cycling.toNat) ∧
      (∀ c, s.cursor = some c → c < s.plots.length) ∧
      ∀ {m m' es s'}, s.runCycle w m = ⟨es, m', some s'⟩ →
        ∃ more, Run w (fresh announcesStart announcesComplete link) (turns ++ more) s' ∧
          more.flatMap (·.events) = es := by
  have hs := sound_fresh announcesStart announcesComplete link
  refine ⟨?_, fun t ht => ?_, fun t ht c hc => ?_, fun ha hb => h.balanced hs ha hb,
    (hs.run h).registered, ?_⟩
  · obtain ⟨sizes, hmarks, hnumber⟩ := h.accounts hs
    exact ⟨sizes, hmarks, hnumber⟩
  · obtain ⟨hocc, hsound, ha, hb⟩ := h.mem hs t ht
    obtain ⟨sizes, hacc⟩ := (hocc.kind hsound).accounts
    rw [hacc.told, ha, hb]
    rfl
  · obtain ⟨hocc, hsound, -⟩ := h.mem hs t ht
    exact hocc.shows hsound hc
  · intro m m' es s' hc
    obtain ⟨t, more, hrun, -, -, hes⟩ := Run.of_runCycle hc
    exact ⟨t :: more, h.append hrun, hes⟩

/-- The registration of a plot, a refresh and the only step of its cycle. -/
def firstCycle : List Turn :=
  let idle : Scheduler := { announcesStart := true, announcesComplete := true }
  let ready : Scheduler := { idle with plots := [barePlot] }
  let running : Scheduler := { ready with cursor := some 0, cycleCount := 1 }
  [⟨.addPlot barePlot, idle, [], ready⟩, ⟨.refreshAll, ready, [.cycleStart], running⟩,
    ⟨.step, running, [.cycleComplete], { running with cursor := none }⟩]

theorem cycles_whole_of_firstCycle :
    ∃ s, Run stillness (fresh true true .absent) firstCycle s ∧
      firstCycle.flatMap Turn.marks = wholeCycle 1 ∧
      (∃ sizes : List Nat, firstCycle.flatMap Turn.marks = sizes.flatMap wholeCycle ++ s.openMarks ∧
        sizes.length + s.cycling.toNat = s.cycleCount) ∧
      (firstCycle.flatMap (·.events)).count .cycleStart =
        (firstCycle.flatMap (·.events)).count .cycleComplete + s.cycling.toNat := by
  have hrun : Run stillness (fresh true true .absent) firstCycle _ :=
    .cons (t := firstCycle[0]) ⟨(), (), rfl⟩ <| .cons (t := firstCycle[1]) ⟨(), (), rfl⟩ <|
      .cons (t := firstCycle[2]) ⟨(), (), rfl⟩ (.nil _)
  obtain ⟨hmarks, -, -, hcount, -⟩ := cycles_whole hrun
  exact ⟨_, hrun, by decide, hmarks, hcount rfl rfl⟩

end HistogramMonitor.Scheduler
