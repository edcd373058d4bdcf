import HistogramMonitor.Proofs.Scheduler.Asking
import HistogramMonitor.Proofs.Scheduler.Settings

/-!
# What is shown

The events of a monitor are drawn on a *canvas*: a drawn series covers what was shown under its number, a
wiped plot shows nothing. Here is what a visit makes of the canvas, and what is left of earlier ones.

* A visit that fails wipes its plot. One that succeeds covers as many numbers as the source of its plot has
  series now, with what it has retrieved; what stood under higher numbers is still there (`visit_shows`).
* So a number is taken exactly if some visit has drawn a series under it and the plot has not been wiped
  since (`Run.shown_iff`).

Hence all that is shown on a plot after a visit comes from this visit, unless the visit succeeds and an
earlier one that has not been wiped since drew more series (`shown_after_visit`). This happens where a plot
is pointed at fewer series or at none: a plot without a source is not even wiped.
-/

namespace HistogramMonitor

/-! ## The canvas -/

/-- What is shown: for each plot and each number of a series, the snapshot that was drawn there last. -/
abbrev Canvas := Nat → Nat → Option Snapshot

/-- The plot that an event draws on or wipes. -/
def Event.target? : Event → Option Nat
  | .display plot _ _ => some plot
  | .clear plot => some plot
  | _ => none

theorem Event.IsTraffic.target?_eq {e : Event} (h : e.IsTraffic) : e.target? = none := by
  cases e <;> first | rfl | exact h.elim

theorem Event.IsNotice.target?_eq {e : Event} (h : e.IsNotice) : e.target? = none := by
  cases e <;> first | rfl | exact h.elim

namespace Canvas

/-- Nothing is shown. -/
def blank : Canvas := fun _ _ => none

/-- What an event makes of the canvas. -/
def draw (x : Canvas) : Event → Canvas
  | .display plot series h => fun p i => if p = plot ∧ i = series then some h else x p i
  | .clear plot => fun p i => if p = plot then none else x p i
  | _ => x

/-- What a row of events makes of the canvas. -/
def after (x : Canvas) (es : List Event) : Canvas := es.foldl draw x

@[simp] theorem after_nil (x : Canvas) : x.after [] = x := rfl

theorem after_append (x : Canvas) (es fs : List Event) : x.after (es ++ fs) = (x.after es).after fs :=
  List.foldl_append

/-- An event leaves all plots but its target alone. -/
theorem draw_apply_of_ne (x : Canvas) {e : Event} {plot : Nat} (h : e.target? ≠ some plot) :
    x.draw e plot = x plot := by
  cases e with
  | display p series shown =>
    have hne : plot ≠ p := fun hp => h (congrArg some hp.symm)
    exact funext fun i => if_neg fun hc => hne hc.1
  | clear p =>
    have hne : plot ≠ p := fun hp => h (congrArg some hp.symm)
    exact funext fun i => if_neg hne
  | _ => rfl

theorem after_apply_of_ne {es : List Event} {plot : Nat} (h : ∀ e ∈ es, e.target? ≠ some plot) :
    ∀ x : Canvas, x.after es plot = x plot := by
  induction es with
  | nil => exact fun x => rfl
  | cons e es ih =>
    obtain ⟨he, hes⟩ := List.forall_mem_cons.mp h
    exact fun x => (ih hes (x.draw e)).trans (x.draw_apply_of_ne he)

end Canvas

/-- Nothing but the snapshots in front is to be seen if they cover all that was there before. -/
theorem covers_iff (shots : List Snapshot) {before : Nat → Option Snapshot} :
    (∀ i h, shots[i]?.or (before i) = some h → shots[i]? = some h) ↔
      ∀ i, before i ≠ none → i < shots.length := by
  constructor
  · intro hfront i hi
    obtain ⟨h, hh⟩ := Option.ne_none_iff_exists'.mp hi
    refine Nat.lt_of_not_le fun hle => ?_
    have hnone : shots[i]? = none := List.getElem?_eq_none_iff.mpr hle
    have hseen := hfront i h (by rw [hnone, Option.none_or, hh])
    rw [hnone] at hseen
    cases hseen
  · intro hcovered i h hseen
    rcases Option.or_eq_some_iff.mp hseen with hfront | ⟨hnone, hold⟩
    · exact hfront
    · have hi : i < shots.length := hcovered i (hold ▸ Option.some_ne_none h)
      exact absurd hi (Nat.not_lt.mpr (List.getElem?_eq_none_iff.mp hnone))

namespace Scheduler

open HistogramMonitor.Action

variable {σ : Type} {w : Surroundings σ} {s : Scheduler}

/-! ## Visits -/

/-- A visit draws on its own plot only. -/
theorem drawSeries_targets (w : Surroundings σ) (s : Scheduler) (plot : Nat) (items : List SeriesSource) :
    ∀ i, (s.drawSeries w plot i items).Emits fun e => ∀ p, e.target? = some p → p = plot := by
  induction items with
  | nil => exact fun _ => emits_pure _
  | cons item rest ih =>
    intro i
    refine Emits.bind ((Client.retrieve_emits w _ _ _).mono fun e he p hp => ?_) fun answer => ?_
    · rw [he.target?_eq] at hp
      cases hp
    · cases answer with
      | ok h => exact (emits_tell fun p hp => (Option.some.inj hp).symm).bind fun _ => ih (i + 1)
      | error e =>
        exact (emits_diagnose nofun).bind fun _ =>
          (emits_tell fun p hp => (Option.some.inj hp).symm).bind fun _ => emits_pure _

theorem visit_targets (w : Surroundings σ) (s : Scheduler) (plot : Nat) :
    (s.visit w plot).Emits fun e => ∀ p, e.target? = some p → p = plot := by
  intro m e he
  obtain ⟨before, after, hnotices, hvisit⟩ := visit_apply w s plot m
  rw [hvisit, List.append_assoc, List.mem_append, List.mem_append] at he
  by_cases hnotice : e ∈ before ++ after
  · rcases hnotices e hnotice with rfl | rfl <;> exact nofun
  · rw [List.mem_append, not_or] at hnotice
    exact drawSeries_targets w s plot _ 0 m e ((he.resolve_left hnotice.1).resolve_right hnotice.2)

/-- The snapshots that come back when series are retrieved one after the other, with these defaults, up to
the first that fails; the answer is whether none does. -/
inductive Drawn (w : Surroundings σ) (runs : List UInt32) (program : String) :
    List SeriesSource → σ → List Snapshot → Bool → Prop
  | all (m : σ) : Drawn w runs program [] m [] true
  | got {item : SeriesSource} {rest : List SeriesSource} {m m' : σ} {es : List Event} {h : Snapshot}
      {shots : List Snapshot} {success : Bool}
      (retrieved : Client.retrieve w item.name (item.runs.getD runs) (item.program.getD program) m =
        ⟨es, m', some (.ok h)⟩)
      (more : Drawn w runs program rest m' shots success) :
      Drawn w runs program (item :: rest) m (h :: shots) success
  | lost {item : SeriesSource} {rest : List SeriesSource} {m m' : σ} {es : List Event}
      {e : TransportError}
      (failed : Client.retrieve w item.name (item.runs.getD runs) (item.program.getD program) m =
        ⟨es, m', some (.error e)⟩) : Drawn w runs program (item :: rest) m [] false

/-- Where nothing fails, every series comes back. -/
theorem Drawn.length {runs : List UInt32} {program : String} {items : List SeriesSource} {m : σ}
    {shots : List Snapshot} {success : Bool} (h : Drawn w runs program items m shots success) :
    success = true → shots.length = items.length := by
  induction h with
  | all m => exact fun _ => rfl
  | got _ _ ih => exact fun hs => congrArg (· + 1) (ih hs)
  | lost _ => exact nofun

/-- What a row of series makes of the canvas: the snapshots cover the numbers from the first one on, or
the plot is wiped. -/
theorem drawSeries_shows {plot : Nat} {items : List SeriesSource} {success : Bool} :
    ∀ {i : Nat} {m m' : σ} {es : List Event}, s.drawSeries w plot i items m = ⟨es, m', some success⟩ →
      ∃ shots, Drawn w s.defaultRuns s.defaultProgram items m shots success ∧
        ∀ (x : Canvas) (j : Nat), x.after es plot j =
          if success then (if i ≤ j then shots[j - i]? else none).or (x plot j) else none := by
  induction items with
  | nil =>
    intro i m m' es h
    obtain ⟨rfl, -, rfl⟩ := pure_eq_some h
    exact ⟨[], .all m, fun x j => by simp⟩
  | cons item rest ih =>
    intro i m m' es h
    obtain ⟨es₁, m₁, answer, es₂, hretrieve, h₂, rfl⟩ := bind_eq_some h
    have hquiet : ∀ x : Canvas, x.after es₁ plot = x plot := by
      refine Canvas.after_apply_of_ne fun e he => ?_
      have htraffic := Client.retrieve_emits w item.name (item.runs.getD s.defaultRuns)
        (item.program.getD s.defaultProgram) m
      rw [hretrieve] at htraffic
      rw [(htraffic e he).target?_eq]
      exact nofun
    cases answer with
    | ok shown =>
      obtain ⟨es₃, m₃, u, es₄, htell, hrest, rfl⟩ := bind_eq_some h₂
      cases htell
      obtain ⟨shots, hdrawn, hshows⟩ := ih hrest
      refine ⟨shown :: shots, .got hretrieve hdrawn, fun x j => ?_⟩
      have hone : ((x.after es₁).after [.display plot i shown]) plot j =
          if j = i then some shown else x plot j := by
        change (if plot = plot ∧ j = i then some shown else x.after es₁ plot j) = _
        rw [hquiet x]
        simp only [true_and]
      rw [Canvas.after_append, Canvas.after_append, hshows, hone]
      -- the series itself, those behind it, and those before it
      rcases Nat.lt_trichotomy j i with hlt | rfl | hgt
      · rw [if_neg (Nat.not_le.mpr hlt), if_neg (Nat.not_le.mpr (Nat.lt_succ_of_lt hlt)),
          if_neg (Nat.ne_of_lt hlt)]
      · rw [if_neg (Nat.not_succ_le_self j), if_pos rfl, if_pos (Nat.le_refl j), Nat.sub_self]
        rfl
      · have hpred : j - i = j - (i + 1) + 1 := by omega
        rw [if_pos (Nat.le_of_lt hgt), if_pos (Nat.succ_le_of_lt hgt), if_neg (Nat.ne_of_gt hgt), hpred,
          List.getElem?_cons_succ]
    | error e =>
      obtain ⟨es₃, m₃, u, es₄, hlog, h₃, rfl⟩ := bind_eq_some h₂
      cases hlog
      obtain ⟨es₅, m₅, u, es₆, hwipe, h₄, rfl⟩ := bind_eq_some h₃
      cases hwipe
      obtain ⟨rfl, -, rfl⟩ := pure_eq_some h₄
      refine ⟨[], .lost hretrieve, fun x j => ?_⟩
      rw [Canvas.after_append]
      exact if_pos rfl

/-- **What a visit makes of the canvas.** If a retrieval fails, the plot is wiped; else the series that were
retrieved are shown in front of what was there before. -/
theorem visit_shows {plot : Nat} {success : Bool} {m m' : σ} {es : List Event}
    (h : s.visit w plot m = ⟨es, m', some success⟩) :
    ∃ shots, Drawn w s.defaultRuns s.defaultProgram (s.series plot) m shots success ∧
      ∀ (x : Canvas) (j : Nat), x.after es plot j =
        if success then shots[j]?.or (x plot j) else none := by
  obtain ⟨before, after, hnotices, hvisit⟩ := visit_apply w s plot m
  obtain ⟨rfl, -, hvalue⟩ := Outcome.mk.inj (hvisit.symm.trans h)
  obtain ⟨shots, hdrawn, hshows⟩ := drawSeries_shows (congrArg (Outcome.mk _ _) hvalue)
  have hquiet : ∀ e ∈ before ++ after, e.target? ≠ some plot := by
    intro e he
    rcases hnotices e he with rfl | rfl <;> exact nofun
  obtain ⟨hbefore, hafter⟩ := List.forall_mem_append.mp hquiet
  refine ⟨shots, hdrawn, fun x j => ?_⟩
  rw [Canvas.after_append, Canvas.after_append, Canvas.after_apply_of_ne hafter, hshows,
    Canvas.after_apply_of_ne hbefore, if_pos (Nat.zero_le j), Nat.sub_zero]

/-! ## Turns -/

/-- The plot that an operation refreshes, if it refreshes one. -/
def Operation.refreshes? : Operation → Scheduler → Option Nat
  | step, s => s.cursor
  | changeSource plot _ true, s => if plot < s.plots.length then some plot else none
  | _, _ => none

/-- The plot that a turn refreshes, if it refreshes one. -/
def Turn.refreshes? (t : Turn) : Option Nat := t.operation.refreshes? t.before

/-- What is about cycles only draws on no plot. -/
theorem untargeted {α : Type} {x : Action σ α} {target : Option Nat} (h : x.Emits Event.IsNotice) :
    x.Emits fun e => ∀ p, e.target? = some p → target = some p :=
  h.mono fun e he p hp => by
    rw [he.target?_eq] at hp
    cases hp

theorem beginCycle_emits (w : Surroundings σ) (s : Scheduler) : (s.beginCycle w).Emits Event.IsNotice :=
  Emits.ite (emits_pure _) <| (openCycle_emits s).bind fun s =>
    Emits.ite (finishCycle_emits w s) (emits_pure s)

theorem step_targets (w : Surroundings σ) (s : Scheduler) :
    (s.step w).Emits fun e => ∀ p, e.target? = some p → s.cursor = some p := by
  unfold step
  cases s.cursor with
  | none => exact emits_pure s
  | some c =>
    refine Emits.ite (Emits.bind ?_ fun success => ?_) (untargeted (step_end_emits w s))
    · exact (visit_targets w s c).mono fun e he p hp => congrArg some (he p hp).symm
    · exact untargeted ((report_emits _ _).bind (step_end_emits w))

theorem changeSource_targets (w : Surroundings σ) (plot : Nat) (source : Option PlotSource)
    (refreshNow : Bool) (s : Scheduler) : (s.changeSource w plot source refreshNow).Emits fun e =>
      ∀ p, e.target? = some p → (Operation.changeSource plot source refreshNow).refreshes? s = some p := by
  unfold changeSource
  cases hp : s.plots[plot]? with
  | none => exact emits_pure none
  | some before =>
    have hlt : plot < s.plots.length := (List.getElem?_eq_some_iff.mp hp).1
    cases refreshNow with
    | false => exact emits_pure _
    | true =>
      refine ((visit_targets w _ plot).mono fun e he p hp => ?_).bind fun _ => emits_pure _
      rw [he p hp]
      exact if_pos hlt

/-- An operation that refreshes no plot shows nothing but notices. -/
theorem perform_emits (w : Surroundings σ) {op : Operation} {s : Scheduler} (h : op.refreshes? s = none) :
    (op.perform w s).Emits Event.IsNotice := by
  cases op with
  | step =>
    have hidle : s.cursor = none := h
    change (s.step w).Emits _
    unfold step
    rw [hidle]
    exact emits_pure s
  | changeSource plot source refreshNow =>
    refine Emits.bind ?_ fun _ => emits_pure _
    unfold changeSource
    cases hp : s.plots[plot]? with
    | none => exact emits_pure none
    | some before =>
      cases refreshNow with
      | false => exact emits_pure _
      | true =>
        have hlt : plot < s.plots.length := (List.getElem?_eq_some_iff.mp hp).1
        exact absurd h (by simp [Operation.refreshes?, hlt])
  | start interval => exact beginCycle_emits w _
  | refreshAll => exact beginCycle_emits w s
  | setInterval interval => exact rearm_emits w _
  | setVisible visible =>
    refine Emits.ite (emits_pure s) (Emits.ite (Emits.ite ?_ (emits_pure _)) ?_)
    · exact (emits_diagnose trivial).bind fun _ => beginCycle_emits w _
    · exact (emits_diagnose trivial).bind fun _ => emits_pure _
  | fireTimer time =>
    refine Emits.bind ?_ fun _ => emits_pure _
    unfold fireTimer
    cases s.timer with
    | none => exact emits_pure _
    | some deadline =>
      exact Emits.ite ((beginCycle_emits w _).bind fun _ => emits_pure _) (emits_pure _)
  | addPlot | setDefaultRuns | setDefaultProgram | loseReceiver => exact emits_pure _

/-- An operation draws on no plot but the one that it refreshes. -/
theorem perform_targets (w : Surroundings σ) (op : Operation) (s : Scheduler) :
    (op.perform w s).Emits fun e => ∀ p, e.target? = some p → op.refreshes? s = some p := by
  cases op with
  | step => exact step_targets w s
  | changeSource plot source refreshNow =>
    exact (changeSource_targets w plot source refreshNow s).bind fun _ => emits_pure _
  | _ => exact untargeted (perform_emits w rfl)

/-- What a visit and things that draw nothing make of the plot, seen from a state with the same settings. -/
theorem refreshed_of_visit {s s' : Scheduler} {plot : Nat} {m m₁ : σ} {es rest : List Event} {success : Bool}
    (hv : s.visit w plot m = ⟨es, m₁, some success⟩) (hrest : ∀ e ∈ rest, e.target? = none)
    (hs : s'.settings = s.settings) :
    ∃ shots, Drawn w s'.defaultRuns s'.defaultProgram (s'.series plot) m shots success ∧
      (success = true ↔ .clear plot ∉ es ++ rest) ∧
      ∀ (x : Canvas) (i : Nat), x.after (es ++ rest) plot i =
        if success then shots[i]?.or (x plot i) else none := by
  obtain ⟨hplots, hruns, hprogram⟩ := Settings.mk.inj hs
  have hseries : s'.series plot = s.series plot := by rw [series, source?, hplots, ← source?, ← series]
  obtain ⟨shots, hdrawn, hshows⟩ := visit_shows hv
  have hclear : .clear plot ∉ rest := fun hmem => Option.some_ne_none _ (hrest _ hmem)
  refine ⟨shots, ?_, ?_, fun x i => ?_⟩
  · rw [hseries, hruns, hprogram]
    exact hdrawn
  · rw [List.mem_append, (visit_eq_some hv).2]
    cases success <;> simp [hclear]
  · rw [Canvas.after_append, Canvas.after_apply_of_ne, hshows]
    intro e he
    rw [hrest e he]
    exact (Option.some_ne_none plot).symm

variable {t : Turn}

/-- **What a turn makes of the plot that it refreshes**, with the source and the defaults that it leaves. -/
theorem Turn.refreshed {plot : Nat} {m m' : σ} (hs : Sound t.before)
    (h : t.operation.perform w t.before m = ⟨t.events, m', some t.after⟩)
    (ht : t.refreshes? = some plot) :
    ∃ shots success,
      Drawn w t.after.defaultRuns t.after.defaultProgram (t.after.series plot) m shots success ∧
      (success = true ↔ .clear plot ∉ t.events) ∧
      ∀ (x : Canvas) (i : Nat), x.after t.events plot i =
        if success then shots[i]?.or (x plot i) else none := by
  obtain ⟨op, s, es, s'⟩ := t
  unfold Turn.refreshes? at ht
  dsimp only at hs h ht ⊢
  cases op with
  | step =>
    have hsettings : s'.settings = s.settings := step_settings w s m s' (congrArg Outcome.value h)
    obtain ⟨es₁, m₁, success, rest, hv, rfl, hnotice, -⟩ := step_eq_some ht (hs.registered plot ht) h
    obtain ⟨shots, hshots⟩ := refreshed_of_visit hv (fun e he => (hnotice e he).target?_eq) hsettings
    exact ⟨shots, success, hshots⟩
  | changeSource p source refreshNow =>
    cases refreshNow with
    | false => cases ht
    | true =>
      obtain ⟨hlt, rfl⟩ : p < s.plots.length ∧ p = plot := by
        simpa [Operation.refreshes?] using ht
      obtain ⟨es₁, m₁, r, es₂, hchange, hpure, rfl⟩ := bind_eq_some h
      obtain ⟨rfl, -, rfl⟩ := pure_eq_some hpure
      unfold changeSource at hchange
      rw [List.getElem?_eq_getElem hlt] at hchange
      dsimp only at hchange
      rw [if_pos rfl] at hchange
      obtain ⟨es₃, m₃, success, es₄, hv, hpure, rfl⟩ := bind_eq_some hchange
      obtain ⟨rfl, -, rfl⟩ := pure_eq_some hpure
      obtain ⟨shots, hshots⟩ := refreshed_of_visit hv (List.forall_mem_nil _) rfl
      rw [List.append_assoc]
      exact ⟨shots, success, hshots⟩
  | _ => cases ht

/-- A turn leaves all plots alone but the one that it refreshes. -/
theorem Turn.Occurs.target (h : t.Occurs w) {e : Event} (he : e ∈ t.events) {plot : Nat}
    (hp : e.target? = some plot) : t.refreshes? = some plot := by
  obtain ⟨m, m', h⟩ := h
  have htargets := perform_targets w t.operation t.before m
  rw [h] at htargets
  exact htargets e he plot hp

theorem Turn.Occurs.after_apply (h : t.Occurs w) {plot : Nat} (hp : t.refreshes? ≠ some plot) (x : Canvas) :
    x.after t.events plot = x plot :=
  Canvas.after_apply_of_ne (fun _ he htarget => hp (h.target he htarget)) x

/-- After a turn that does not wipe the plot, a number is taken that was taken before, or that belongs to a
series which the turn has drawn. -/
theorem Turn.Occurs.shown_iff (hs : Sound t.before) (h : t.Occurs w) (x : Canvas) (plot i : Nat) :
    x.after t.events plot i ≠ none ↔ .clear plot ∉ t.events ∧
      (t.refreshes? = some plot ∧ i < (t.after.series plot).length ∨ x plot i ≠ none) := by
  by_cases ht : t.refreshes? = some plot
  · obtain ⟨m, m', hperform⟩ := h
    obtain ⟨shots, success, hdrawn, hclear, hshows⟩ := t.refreshed hs hperform ht
    rw [hshows, ← hclear]
    cases success with
    | false => simp
    | true =>
      rw [← hdrawn.length rfl]
      simp only [if_true, ne_eq, Option.or_eq_none_iff, List.getElem?_eq_none_iff, ht, true_and,
        Classical.not_and_iff_not_or_not, Nat.not_le]
  · have hclear : .clear plot ∉ t.events := fun hmem => ht (h.target hmem rfl)
    rw [h.after_apply ht]
    simp [ht, hclear]

/-! ## Runs -/

/-- Some turn has drawn a series under this number on the plot, and neither it nor a later one has wiped the
plot. -/
def Remains (turns : List Turn) (plot i : Nat) : Prop :=
  ∃ earlier t later, turns = earlier ++ t :: later ∧ t.refreshes? = some plot ∧
    i < (t.after.series plot).length ∧ ∀ u ∈ t :: later, .clear plot ∉ u.events

theorem remains_cons_iff {turns : List Turn} {plot i : Nat} :
    Remains (t :: turns) plot i ↔ Remains turns plot i ∨
      t.refreshes? = some plot ∧ i < (t.after.series plot).length ∧
        ∀ u ∈ t :: turns, .clear plot ∉ u.events := by
  constructor
  · rintro ⟨earlier, u, later, heq, hu⟩
    cases earlier with
    | nil =>
      obtain ⟨rfl, rfl⟩ := List.cons.inj heq
      exact Or.inr hu
    | cons v earlier => exact Or.inl ⟨earlier, u, later, (List.cons.inj heq).2, hu⟩
  · rintro (⟨earlier, u, later, rfl, hu⟩ | ht)
    · exact ⟨t :: earlier, u, later, rfl, hu⟩
    · exact ⟨[], t, turns, rfl, ht⟩

/-- **What a run leaves on the canvas**: the numbers under which one of its turns has drawn a series that has
not been wiped, and those that were taken at first and have not been wiped. -/
theorem Run.shown_iff {s' : Scheduler} {turns : List Turn} {plot i : Nat} (hs : Sound s)
    (h : Run w s turns s') : ∀ x : Canvas, x.after (turns.flatMap (·.events)) plot i ≠ none ↔
      Remains turns plot i ∨ x plot i ≠ none ∧ ∀ t ∈ turns, .clear plot ∉ t.events := by
  induction h with
  | nil s =>
    intro x
    simp [Remains]
  | @cons t turns s' ht _ ih =>
    intro x
    rw [List.flatMap_cons, Canvas.after_append, ih (ht.sound hs), ht.shown_iff hs, remains_cons_iff,
      List.forall_mem_cons]
    grind

/-- **What is shown after a visit**, in every state that a monitor can be in, whether a step made the visit or
a change of the source. The snapshots are those that the visit has retrieved from the source that the plot
has now, with the defaults in force. If one could not be retrieved, nothing is shown on the plot; else they
are shown, and behind them what was shown there before. All other plots are as they were.

So nothing that is shown on the plot is older than the visit exactly if it failed, or if no earlier visit that
has not been wiped since drew more series than the plot has now. -/
theorem shown_after_visit {announcesStart announcesComplete : Bool} {link : StatusLink}
    {turns : List Turn} {plot : Nat} {m m' : σ}
    (hrun : Run w (fresh announcesStart announcesComplete link) turns t.before)
    (hturn : t.operation.perform w t.before m = ⟨t.events, m', some t.after⟩)
    (hvisit : t.refreshes? = some plot) :
    let before := Canvas.blank.after (turns.flatMap (·.events))
    let now := before.after t.events
    ∃ shots success,
      Drawn w t.after.defaultRuns t.after.defaultProgram (t.after.series plot) m shots success ∧
      (∀ i, now plot i = if success then shots[i]?.or (before plot i) else none) ∧
      (∀ other, other ≠ plot → now other = before other) ∧
      (∀ i, before plot i ≠ none ↔ Remains turns plot i) ∧
      ((∀ i h, now plot i = some h → shots[i]? = some h) ↔
        (success = true → ∀ i, Remains turns plot i → i < (t.after.series plot).length)) := by
  intro before now
  have hs : Sound t.before := (sound_fresh announcesStart announcesComplete link).run hrun
  obtain ⟨shots, success, hdrawn, -, hshows⟩ := t.refreshed hs hturn hvisit
  have hnow : ∀ i, now plot i = if success then shots[i]?.or (before plot i) else none := hshows before
  have hbefore : ∀ i, before plot i ≠ none ↔ Remains turns plot i := by
    intro i
    rw [Run.shown_iff (sound_fresh announcesStart announcesComplete link) hrun]
    exact or_iff_left fun hblank => hblank.1 rfl
  have hothers : ∀ other, other ≠ plot → now other = before other := by
    intro other hne
    refine Turn.Occurs.after_apply ⟨m, m', hturn⟩ ?_ before
    rw [hvisit]
    exact fun heq => hne (Option.some.inj heq).symm
  refine ⟨shots, success, hdrawn, hnow, hothers, hbefore, ?_⟩
  simp only [hnow]
  cases success with
  | false => exact ⟨fun _ => nofun, fun _ => nofun⟩
  | true =>
    simp only [if_true, forall_const, covers_iff shots, hbefore, hdrawn.length rfl]

/-! ## An overlay -/

/-- A histogram without any entries. -/
def emptySeries : Snapshot where
  kind := .seriesCount
  axes := [⟨0, ⟨0⟩, ⟨0⟩⟩]
  entries := 0
  content := .counts [0, 0]
  axes_length := rfl
  element_eq := rfl
  totalBins_eq := rfl

/-- A clock that stands still beside a backend that has the same histogram for everybody. -/
def generosity : Surroundings Unit where
  answer _ _ := { reply := .bytes (Envelope.wrap Envelope.histogramType emptySeries.encode), next := () }
  now _ := (⟨0⟩, ())

/-- Series are asked for and drawn, from number `i` on. -/
def drawings (s : Scheduler) (plot : Nat) : Nat → List SeriesSource → List Event
  | _, [] => []
  | i, item :: rest =>
    .call (item.request s.defaultRuns s.defaultProgram) :: .display plot i emptySeries ::
      drawings s plot (i + 1) rest

theorem drawSeries_generosity (s : Scheduler) (plot : Nat) (items : List SeriesSource) :
    ∀ i, s.drawSeries generosity plot i items () = ⟨drawings s plot i items, (), some true⟩ := by
  induction items with
  | nil => exact fun i => rfl
  | cons item rest ih =>
    intro i
    have hretrieve : Client.retrieve generosity item.name (item.runs.getD s.defaultRuns)
        (item.program.getD s.defaultProgram) () =
        ⟨[.call (item.request s.defaultRuns s.defaultProgram)], (), some (.ok emptySeries)⟩ := rfl
    unfold drawSeries
    dsimp only
    rw [bind_apply, hretrieve]
    dsimp only
    rw [bind_apply, tell_apply, ih]
    rfl

/-- In these surroundings a visit draws every series of the plot. -/
theorem visit_generosity {s : Scheduler} {source : PlotSource} {plot : Nat}
    (h : s.plots[plot]? = some ⟨source, false, false⟩) :
    s.visit generosity plot () = ⟨drawings s plot 0 source.series, (), some true⟩ := by
  unfold visit
  rw [h]
  dsimp only
  rw [if_neg Bool.false_ne_true, bind_apply, drawSeries_generosity]
  exact congrArg (Outcome.mk · () (some true)) (List.append_nil _)

/-- One series. -/
def single : PlotSource := ⟨[⟨"A", none, none⟩]⟩

/-- Two series. -/
def pair : PlotSource := ⟨[⟨"A", none, none⟩, ⟨"B", none, none⟩]⟩

/-- The only plot is pointed at this source. -/
def pointed (source : Option PlotSource) : Scheduler := { plots := [⟨source, false, false⟩] }

/-- The plot is about to be drawn. -/
def undrawn (source : Option PlotSource) : Scheduler :=
  { pointed source with cursor := some 0, cycleCount := 1 }

/-- The plot has been drawn. -/
def drawn (source : Option PlotSource) : Scheduler := { pointed source with cycleCount := 1 }

/-- A plot with two series is registered and drawn. -/
def overlay : List Turn :=
  [⟨.addPlot ⟨pair, false, false⟩, fresh false false .absent, [], pointed pair⟩,
    ⟨.refreshAll, pointed pair, [], undrawn pair⟩,
    ⟨.step, undrawn pair, drawings (undrawn pair) 0 0 pair.series, drawn pair⟩]

theorem step_undrawn (source : PlotSource) : (undrawn source).step generosity () =
    ⟨drawings (undrawn source) 0 0 source.series, (), some (drawn source)⟩ := by
  have hcursor : (undrawn source).cursor = some 0 := rfl
  have hlt : 0 < (undrawn source).plots.length := Nat.one_pos
  unfold step
  rw [hcursor]
  dsimp only
  rw [if_pos hlt, bind_apply, visit_generosity rfl]
  exact congrArg (Outcome.mk · () (some (drawn source))) (List.append_nil _)

theorem run_overlay : Run generosity (fresh false false .absent) overlay (drawn pair) :=
  .cons (t := overlay[0]) ⟨(), (), rfl⟩ <| .cons (t := overlay[1]) ⟨(), (), rfl⟩ <|
    .cons (t := overlay[2]) ⟨(), (), step_undrawn pair⟩ (.nil _)

/-- The plot is pointed at one series. -/
def narrowing : Turn :=
  ⟨.changeSource 0 single true, drawn pair, drawings (drawn single) 0 0 single.series, drawn single⟩

/-- The second series is still shown, although the visit has not retrieved it. -/
theorem shown_after_narrowing : ∃ shots success,
    Drawn generosity [0] standardProgram single.series () shots success ∧ shots[1]? = none ∧
      (Canvas.blank.after (overlay.flatMap (·.events))).after narrowing.events 0 1 = some emptySeries := by
  have hperform : narrowing.operation.perform generosity narrowing.before () =
      ⟨narrowing.events, (), some narrowing.after⟩ := by
    change (((drawn single).visit generosity 0 >>= fun _ => pure (some (drawn single))) >>= fun r =>
      pure (r.getD (drawn pair))) () = _
    rw [bind_apply, bind_apply, visit_generosity rfl]
    rfl
  obtain ⟨shots, success, hdrawn, hnow, -⟩ := shown_after_visit run_overlay hperform rfl
  have hshown : (Canvas.blank.after (overlay.flatMap (·.events))).after narrowing.events 0 1 =
      some emptySeries := rfl
  refine ⟨shots, success, hdrawn, ?_, hshown⟩
  cases success with
  | false =>
    rw [hnow, if_neg Bool.false_ne_true] at hshown
    cases hshown
  | true => exact List.getElem?_eq_none_iff.mpr (Nat.le_of_eq (hdrawn.length rfl))

/-- The plot is pointed at nothing. -/
def unbinding : Turn := ⟨.changeSource 0 none true, drawn pair, [], drawn none⟩

/-- Not all that is shown on a plot after a visit comes from the visit: a plot that is pointed at nothing still
shows what it was pointed at before. -/
theorem not_all_shown_from_visit : ¬ ∀ (turns : List Turn) (t : Turn) (plot : Nat) (m m' : Unit),
    Run generosity (fresh false false .absent) turns t.before →
    t.operation.perform generosity t.before m = ⟨t.events, m', some t.after⟩ →
    t.refreshes? = some plot → ∀ i h,
      (Canvas.blank.after (turns.flatMap (·.events))).after t.events plot i = some h →
      ∃ shots success, Drawn generosity t.after.defaultRuns t.after.defaultProgram (t.after.series plot) m
        shots success ∧ shots[i]? = some h := by
  intro hall
  obtain ⟨shots, success, hdrawn, hshot⟩ :=
    hall overlay unbinding 0 () () run_overlay rfl rfl 0 emptySeries rfl
  have hnone : unbinding.after.series 0 = [] := rfl
  rw [hnone] at hdrawn
  cases hdrawn
  cases hshot

end Scheduler

end HistogramMonitor
