import Mathlib.Data.List.Forall2
import HistogramMonitor.Proofs.Scheduler.Endings
import HistogramMonitor.Proofs.Scheduler.Settings

/-!
# A failing plot disturbs no other

Two monitors go on from the same state beside two backends. All that their states can come to differ in is
what the visits have come to, the failures of the running cycle, and what their clocks say, the deadline of the
timer (`Agree`). Neither decides what is visited next. So the monitors visit the same plots in lockstep, and
at a plot whose calls both backends answer alike they do the same (`step_agrees`).

The rest of a cycle is a row of steps that ends where the cycle is over (`RunsThrough`). Beside a backend that
answers every call such a row ends, as long as the clock can hold the next deadline
(`stepWhileCycling_ends`). Headline: `others_undisturbed`.
-/

namespace HistogramMonitor

variable {σ τ : Type}

/-- Each call goes to the program that its series names, or to the default. -/
theorem Asks.program {runs : List UInt32} {program : String} {items : List SeriesSource} {cs : List Call}
    (h : Asks runs program items cs) :
    ∀ c ∈ cs, ∃ item ∈ items, c.program = item.program.getD program := by
  have hattempts : ∀ {item : SeriesSource} {cs : List Call},
      Client.Attempts (item.request runs program) cs → ∀ c ∈ cs, c.program = item.program.getD program := by
    rintro item cs (rfl | ⟨declared, rfl⟩)
    · exact List.forall_mem_singleton.mpr rfl
    · exact List.forall_mem_cons.mpr ⟨rfl, List.forall_mem_singleton.mpr rfl⟩
  induction h with
  | done => exact fun c hc => absurd hc List.not_mem_nil
  | lost asked => exact fun c hc => ⟨_, List.mem_cons_self, hattempts asked c hc⟩
  | got asked _ ih =>
    intro c hc
    rcases List.mem_append.mp hc with hc | hc
    · exact ⟨_, List.mem_cons_self, hattempts asked c hc⟩
    · obtain ⟨item, hitem, hprogram⟩ := ih c hc
      exact ⟨item, List.mem_cons_of_mem _ hitem, hprogram⟩

theorem Event.IsNotice.not_act {e : Event} (h : e.IsNotice) : e.IsAct = false := by
  cases e <;> first | rfl | exact h.elim

namespace Scheduler

open HistogramMonitor.Action

variable {w : Surroundings σ} {v : Surroundings τ} {f g : Backend}
variable {s s' s₁ s₂ : Scheduler} {turns turns' : List Turn}

/-! ## States that agree -/

/-- The states differ at most in the failures of the running cycle and in the deadline of the timer. -/
def Agree (s s' : Scheduler) : Prop :=
  ∃ failures timer, s' = { s with cycleFailures := failures, timer := timer } ∧
    timer.isSome = s.timer.isSome

theorem Agree.refl (s : Scheduler) : Agree s s := ⟨s.cycleFailures, s.timer, rfl, rfl⟩

/-- A visit can only bring in a difference in the failures. -/
theorem Agree.visited (h : Agree s s') (c : Nat) (success success' : Bool) :
    Agree (s.visited c success) (s'.visited c success') := by
  obtain ⟨failures, timer, rfl, ht⟩ := h
  exact ⟨_, timer, rfl, ht⟩

/-- States that agree end a cycle in the same way. -/
theorem Agree.finishCycle (h : Agree s s') (hp : s.plots ≠ []) {m m' : σ} {n n' : τ} {es fs : List Event}
    (h₁ : s.finishCycle w m = ⟨es, m', some s₁⟩) (h₂ : s'.finishCycle v n = ⟨fs, n', some s₂⟩) :
    Agree s₁ s₂ := by
  obtain ⟨failures, timer, rfl, ht⟩ := h
  rcases finishCycle_eq_some hp h₁ with ⟨hr, hv, rfl, -⟩ | ⟨hnot, -, timer₁, rfl, ht₁⟩
  · rcases finishCycle_eq_some (by exact hp) h₂ with ⟨-, -, rfl, -⟩ | ⟨hnot', -⟩
    · exact ⟨0, timer, rfl, ht⟩
    · exact absurd ⟨hr, hv⟩ hnot'
  · rcases finishCycle_eq_some (by exact hp) h₂ with ⟨hr', hv', -⟩ | ⟨-, -, timer₂, rfl, ht₂⟩
    · exact absurd ⟨hr', hv'⟩ hnot
    · -- each clock has set a deadline of its own
      exact ⟨failures, timer₂, rfl, Bool.eq_iff_iff.mpr (ht₂.trans ht₁.symm)⟩

/-! ## Visits beside backends that answer alike -/

theorem drawSeries_alike (hf : w.AnswersBy f) (hg : v.AnswersBy g) (h : Agree s s') (plot : Nat)
    (items : List SeriesSource) :
    ∀ i, Alike f g (s.drawSeries w plot i items) (s'.drawSeries v plot i items) := by
  obtain ⟨failures, timer, rfl, -⟩ := h
  induction items with
  | nil => exact fun _ => alike_pure true
  | cons item rest ih =>
    refine fun i => .bind (Client.retrieve_alike hf hg _ _ _) fun answer => ?_
    cases answer with
    | ok h => exact .bind (alike_tell _) fun _ => ih (i + 1)
    | error e => exact .bind (alike_diagnose _ _) fun _ => .bind (alike_tell _) fun _ => alike_pure false

theorem visit_alike (hf : w.AnswersBy f) (hg : v.AnswersBy g) (h : Agree s s') (plot : Nat) :
    Alike f g (s.visit w plot) (s'.visit v plot) := by
  have hplots : s'.plots = s.plots := by
    obtain ⟨failures, timer, rfl, -⟩ := h
    rfl
  unfold visit
  rw [hplots]
  cases s.plots[plot]? with
  | none => exact alike_pure true
  | some p =>
    dsimp only
    cases p.source with
    | none => exact alike_pure true
    | some source =>
      exact .tell_if (.bind (drawSeries_alike hf hg h plot _ 0) fun _ => .tell_if (alike_pure _))

/-- **A step in lockstep.** What is left agrees again, and if the backends answer the calls of the visit
alike, the visits are the same. -/
theorem step_agrees (hf : w.AnswersBy f) (hg : v.AnswersBy g) (hs : Sound s) (h : Agree s s') {c : Nat}
    (hc : s.cursor = some c) {m m' : σ} {n n' : τ} {es fs : List Event}
    (h₁ : s.step w m = ⟨es, m', some s₁⟩) (h₂ : s'.step v n = ⟨fs, n', some s₂⟩) :
    Agree s₁ s₂ ∧ ((∀ c ∈ calls es, f c = g c) → acts es = acts fs) := by
  have hsame : s'.cursor = s.cursor ∧ s'.plots = s.plots := by
    obtain ⟨failures, timer, rfl, -⟩ := h
    exact ⟨rfl, rfl⟩
  have hlt := hs.registered c hc
  obtain ⟨es₁, m₁, success, es₂, hvisit, rfl, hnotice, hend⟩ := step_eq_some hc hlt h₁
  obtain ⟨fs₁, n₁, success', fs₂, hvisit', rfl, hnotice', hend'⟩ :=
    step_eq_some (hsame.1.trans hc) (hsame.2.symm ▸ hlt) h₂
  constructor
  · have hafter := h.visited c success success'
    rw [hsame.2] at hend'
    rcases hend with ⟨hmore, rfl, -⟩ | ⟨hlast, es₃, hfinish, -⟩
    · rcases hend' with ⟨-, rfl, -⟩ | ⟨hlast, -⟩
      · exact hafter
      · exact absurd hlast (Nat.ne_of_lt hmore)
    · rcases hend' with ⟨hmore, -⟩ | ⟨-, fs₃, hfinish', -⟩
      · exact absurd hlast (Nat.ne_of_lt hmore)
      · exact hafter.finishCycle (hs.plots_ne_nil hc) hfinish hfinish'
  · intro hcalls
    have hvisits := visit_alike hf hg h c m n
    rw [hvisit, hvisit'] at hvisits
    rw [calls_append] at hcalls
    rw [acts_append, acts_append, (hvisits fun c hc => hcalls c (List.mem_append_left _ hc)).1,
      acts_eq_nil fun e he => (hnotice e he).not_act, acts_eq_nil fun e he => (hnotice' e he).not_act]

/-! ## The rest of a cycle -/

/-- The turns are the steps from a state to where the cycle with number `n` is over, and all before it are. -/
inductive RunsThrough (w : Surroundings σ) (n : Nat) : Scheduler → List Turn → Scheduler → Prop
  | done {s : Scheduler} (ended : s.cursor = none ∨ n < s.cycleCount) : RunsThrough w n s [] s
  | step {t : Turn} {turns : List Turn} {s : Scheduler} {c : Nat} (step : t.operation = .step)
      (running : t.before.cursor = some c) (number : t.before.cycleCount ≤ n) (occurs : t.Occurs w)
      (rest : RunsThrough w n t.after turns s) : RunsThrough w n t.before (t :: turns) s

/-- The turns visit the same plot, and do the same if the backends answer its calls alike. -/
structure Turn.Twins (f g : Backend) (t u : Turn) : Prop where
  visit : t.visit? = u.visit?
  acts : (∀ c ∈ calls t.events, f c = g c) → acts t.events = acts u.events

/-- Two monitors that go on from states that agree take the same steps. -/
theorem RunsThrough.twins {n : Nat} (hf : w.AnswersBy f) (hg : v.AnswersBy g) (hs : Sound s)
    (h₁ : RunsThrough w n s turns s₁) (h : Agree s s') (h₂ : RunsThrough v n s' turns' s₂) :
    List.Forall₂ (Turn.Twins f g) turns turns' ∧ Agree s₁ s₂ := by
  induction h₁ generalizing s' turns' with
  | @done s hended =>
    obtain ⟨failures, timer, rfl, ht⟩ := h
    generalize hs' : { s with cycleFailures := failures, timer := timer } = s' at h₂
    cases h₂ with
    | done => exact ⟨.nil, failures, timer, hs'.symm, ht⟩
    | @step u _ _ c _ running number =>
      rw [← hs'] at running number
      rcases hended with hidle | hlater
      · cases hidle.symm.trans running
      · exact absurd number (Nat.not_le_of_lt hlater)
  | @step t turns _ c hstep hrunning hnumber hoccurs _ ih =>
    have hsame : s'.cursor = t.before.cursor ∧ s'.cycleCount = t.before.cycleCount := by
      obtain ⟨failures, timer, rfl, -⟩ := h
      exact ⟨rfl, rfl⟩
    cases h₂ with
    | done hended =>
      rw [hsame.1, hsame.2] at hended
      rcases hended with hidle | hlater
      · cases hidle.symm.trans hrunning
      · exact absurd hnumber (Nat.not_le_of_lt hlater)
    | @step u turns' _ c' hstep' hrunning' hnumber' hoccurs' hrest' =>
      have hafter := hoccurs.sound hs
      obtain ⟨m, m', hperform⟩ := hoccurs
      obtain ⟨n, n', hperform'⟩ := hoccurs'
      rw [hstep] at hperform
      rw [hstep'] at hperform'
      obtain ⟨hagree, hacts⟩ := step_agrees hf hg hs h hrunning hperform hperform'
      obtain ⟨htwins, hend⟩ := ih hafter hagree hrest'
      have hvisit : t.visit? = u.visit? := by
        rw [Turn.visit?_eq_some hstep hrunning, Turn.visit?_eq_some hstep' (hsame.1.trans hrunning)]
      exact ⟨.cons ⟨hvisit, hacts⟩ htwins, hend⟩

/-- What is done for a plot in some turns. -/
def actsFor (plot : Nat) (turns : List Turn) : List Event :=
  turns.flatMap fun t => if t.visit? = some plot then acts t.events else []

theorem actsFor_eq_of_twins {plot : Nat} (h : List.Forall₂ (Turn.Twins f g) turns turns')
    (hcalls : ∀ t ∈ turns, t.visit? = some plot → ∀ c ∈ calls t.events, f c = g c) :
    actsFor plot turns = actsFor plot turns' := by
  unfold actsFor
  induction h with
  | nil => rfl
  | @cons t u turns turns' htwins _ ih =>
    obtain ⟨hfirst, hrest⟩ := List.forall_mem_cons.mp hcalls
    rw [List.flatMap_cons, List.flatMap_cons, ih hrest, ← htwins.visit]
    by_cases hvisit : t.visit? = some plot
    · rw [if_pos hvisit, if_pos hvisit, htwins.acts (hfirst hvisit)]
    · rw [if_neg hvisit, if_neg hvisit]

/-- What runs through later cycles has run through the earlier ones before. -/
theorem RunsThrough.earlier {n k : Nat} (h : RunsThrough w n s turns s') (hle : k ≤ n) :
    ∃ first rest middle, turns = first ++ rest ∧ RunsThrough w k s first middle := by
  induction h with
  | done hended => exact ⟨[], [], _, rfl, .done (hended.imp_right (Nat.lt_of_le_of_lt hle))⟩
  | @step t turns _ c hstep hrunning hnumber hoccurs _ ih =>
    by_cases hk : t.before.cycleCount ≤ k
    · obtain ⟨first, rest, middle, rfl, hfirst⟩ := ih
      exact ⟨t :: first, rest, middle, rfl, .step hstep hrunning hk hoccurs hfirst⟩
    · exact ⟨[], t :: turns, _, rfl, .done (Or.inr (Nat.lt_of_not_le hk))⟩

/-- On the way each plot is asked for its series as they were in the beginning. -/
theorem RunsThrough.asks {n : Nat} (h : RunsThrough w n s turns s') :
    ∀ t ∈ turns, ∀ i, t.visit? = some i →
      Asks s.defaultRuns s.defaultProgram (s.series i) (calls t.events) := by
  induction h with
  | done => exact fun t ht => absurd ht List.not_mem_nil
  | @step t turns s' c hstep hrunning hnumber hoccurs _ ih =>
    obtain ⟨m, m', hperform⟩ := hoccurs
    rw [hstep] at hperform
    change t.before.step w m = _ at hperform
    have hcalls := calls_step w hrunning m
    have hvalue : (t.before.step w m).value = some t.after := congrArg Outcome.value hperform
    have hsettings : t.after.settings = t.before.settings := step_settings w t.before m t.after hvalue
    rw [hperform] at hcalls
    intro u hu i hi
    rcases List.mem_cons.mp hu with rfl | hu
    · rw [Turn.visit?_eq_some hstep hrunning] at hi
      cases hi
      exact hcalls
    · -- steps leave the plots and the defaults as they were
      have hplots : t.after.plots = t.before.plots := congrArg Settings.plots hsettings
      have hseries : t.after.series i = t.before.series i := by rw [series, series, source?, source?, hplots]
      have hruns : t.after.defaultRuns = t.before.defaultRuns := congrArg Settings.defaultRuns hsettings
      have hprogram : t.after.defaultProgram = t.before.defaultProgram := congrArg Settings.defaultProgram hsettings
      rw [← hseries, ← hruns, ← hprogram]
      exact ih u hu i hi

/-! ## Coming to the end -/

/-- Steps until no cycle is running come to an end, and run through the running cycle and its follow-up. -/
theorem stepWhileCycling_ends (hw : w.Answers) {n : Nat} : ∀ (fuel k : Nat) {s : Scheduler} (m : σ),
    w.Holds s.interval → Sound s → s.cycling → s.visitsLeft ≤ fuel →
    s.cycleCount + s.rerunRequested.toNat ≤ n →
    ∃ turns m' s', stepWhileCycling w fuel k s m =
      ⟨turns.flatMap (·.events), m', some (s', k + turns.length)⟩ ∧ s'.cursor = none ∧
      RunsThrough w n s turns s' := by
  intro fuel
  induction fuel with
  | zero =>
    intro k s m _ hs hcycling hfuel _
    obtain ⟨c, hc⟩ := Option.isSome_iff_exists.mp hcycling
    have hlt := hs.registered c hc
    simp only [visitsLeft, hc] at hfuel
    omega
  | succ fuel ih =>
    intro k s m hclock hs hcycling hfuel hn
    obtain ⟨c, hc⟩ := Option.isSome_iff_exists.mp hcycling
    obtain ⟨es, m₁, s₁, hstep, hinterval, hless⟩ := step_ends hw hclock hs hc m
    have hoccurs : Turn.Occurs w ⟨.step, s, es, s₁⟩ := ⟨m, m₁, hstep⟩
    have hnumber : s.cycleCount ≤ n := Nat.le_trans (Nat.le_add_right _ _) hn
    unfold stepWhileCycling
    rw [bind_apply_of_eq hstep]
    by_cases hcycling₁ : s₁.cycling
    · obtain ⟨hleft, hcount⟩ := hless hcycling₁
      obtain ⟨turns, m', s', hrest, hidle, hruns⟩ := ih (k + 1) m₁ (hinterval.symm ▸ hclock)
        (hoccurs.sound hs) hcycling₁ (Nat.le_of_lt_succ (Nat.lt_of_lt_of_le hleft hfuel))
        (Nat.le_trans hcount hn)
      rw [if_pos hcycling₁, hrest]
      refine ⟨⟨.step, s, es, s₁⟩ :: turns, m', s', ?_, hidle, .step rfl hc hnumber hoccurs hruns⟩
      rw [List.flatMap_cons, List.length_cons, Nat.add_assoc, Nat.add_comm 1]
    · have hidle := not_cycling_iff.mp hcycling₁
      rw [if_neg hcycling₁]
      exact ⟨[⟨.step, s, es, s₁⟩], m₁, s₁, by simp, hidle, .step rfl hc hnumber hoccurs (.done (Or.inl hidle))⟩

/-- **One failing plot does not disturb the others.** Let a monitor go on from a reachable state beside two
backends that answer every call, each from a memory and with a clock of its own.

* However far it is driven, to the end of the running cycle or to that of a later one, it takes the same
  number of steps beside both, and the states in the end differ at most in the failures of the cycle and in
  the deadline of the timer.
* If the two answer alike the calls that are made in the visits of plots other than `j`, then for each
  of these plots the same is done in the same order: calls, drawings, wipings, and telling about refreshes.
* If the clock can hold the next deadline, running the rest of the cycle does come to an end, be it that of
  the running cycle or of the follow-up that has been asked for. -/
theorem others_undisturbed {ρ : Type} {u : Surroundings ρ} (hs : Reachable u s) (hf : w.AnswersBy f)
    (hg : v.AnswersBy g) (j : Nat) :
    (∀ n turns turns' s₁ s₂, RunsThrough w n s turns s₁ → RunsThrough v n s turns' s₂ →
      turns.length = turns'.length ∧ Agree s₁ s₂ ∧
      ((∀ t ∈ turns, ∀ i, t.visit? = some i → i ≠ j → ∀ c ∈ calls t.events, f c = g c) →
        ∀ i, i ≠ j → actsFor i turns = actsFor i turns')) ∧
    (s.cycling → w.Holds s.interval → ∀ m, ∃ turns m' s',
      s.drain w m = ⟨turns.flatMap (·.events), m', some (s', turns.length)⟩ ∧ s'.cursor = none ∧
      RunsThrough w (s.cycleCount + 1) s turns s' ∧
      ∃ first rest s'', turns = first ++ rest ∧ RunsThrough w s.cycleCount s first s'') := by
  constructor
  · intro n turns turns' s₁ s₂ h₁ h₂
    obtain ⟨htwins, hagree⟩ := h₁.twins hf hg hs.sound (.refl s) h₂
    have hsame : ∀ i, (∀ t ∈ turns, t.visit? = some i → ∀ c ∈ calls t.events, f c = g c) →
        actsFor i turns = actsFor i turns' := fun i hcalls => actsFor_eq_of_twins htwins hcalls
    exact ⟨htwins.length_eq, hagree, fun hcalls i hi => hsame i fun t ht hvisit => hcalls t ht i hvisit hi⟩
  · intro hcycling hclock m
    have hn : s.cycleCount + s.rerunRequested.toNat ≤ s.cycleCount + 1 :=
      Nat.add_le_add_left (Bool.toNat_le _) _
    obtain ⟨turns, m', s', hdrain, hidle, hruns⟩ :=
      stepWhileCycling_ends hf.answers (s.visitsLeft + 1) 0 m hclock hs.sound hcycling (Nat.le_succ _) hn
    rw [Nat.zero_add] at hdrain
    exact ⟨turns, m', s', hdrain, hidle, hruns, hruns.earlier (Nat.le_succ _)⟩

/-- A backend beside a clock that stands still. -/
def beside (f : Backend) : Surroundings Unit where
  answer _ c := { reply := .ofExcept (f c), next := () }
  now _ := (⟨0⟩, ())

theorem answersBy_beside (f : Backend) : (beside f).AnswersBy f := fun _ _ => rfl

/-- Nothing comes back but empty replies, -/
def hollow : Backend := fun _ => .ok []

/-- or one of the programs cannot even be reached. -/
def severed : Backend := fun c => if c.program = "daq" then .error (.unreachable c.program) else .ok []

/-- The first plot is about to be visited, and only its series comes from that program. -/
def twoPrograms : Scheduler :=
  { plots := [⟨some ⟨[⟨"A", none, some "daq"⟩]⟩, false, false⟩, ⟨some ⟨[⟨"A", none, none⟩]⟩, false, false⟩]
    cursor := some 0, cycleCount := 1 }

theorem reachable_twoPrograms : Reachable stillness twoPrograms :=
  ((Reachable.fresh false false .absent).perform (.addPlot twoPrograms.plots[0]) (m := ()) rfl
    |>.perform (.addPlot twoPrograms.plots[1]) (m := ()) rfl).perform .refreshAll (m := ()) rfl

/-- All other calls go to the program that can be reached. -/
theorem hollow_eq_severed {i : Nat} (hi : i ≠ 0) {cs : List Call}
    (h : Asks twoPrograms.defaultRuns twoPrograms.defaultProgram (twoPrograms.series i) cs) :
    ∀ c ∈ cs, hollow c = severed c := by
  intro c hc
  obtain ⟨item, hitem, hprogram⟩ := h.program c hc
  rcases i with _ | _ | i
  · exact absurd rfl hi
  · obtain rfl := List.mem_singleton.mp hitem
    rw [hollow, severed, hprogram]
    rfl
  · cases hitem

/-- The second plot is refreshed just the same. -/
theorem undisturbed_beside_severed : ∃ turns turns' s₁ s₂,
    RunsThrough (beside hollow) 2 twoPrograms turns s₁ ∧ RunsThrough (beside severed) 2 twoPrograms turns' s₂ ∧
    turns.length = turns'.length ∧ Agree s₁ s₂ ∧ actsFor 1 turns = actsFor 1 turns' := by
  have hclock : ∀ f, (beside f).Holds twoPrograms.interval := fun f _ => ⟨⟨0⟩, rfl⟩
  obtain ⟨halike, hends⟩ := others_undisturbed reachable_twoPrograms (answersBy_beside hollow)
    (answersBy_beside severed) 0
  obtain ⟨-, hends'⟩ := others_undisturbed reachable_twoPrograms (answersBy_beside severed)
    (answersBy_beside severed) 0
  obtain ⟨turns, -, s₁, -, -, hruns, -⟩ := hends rfl (hclock hollow) ()
  obtain ⟨turns', -, s₂, -, -, hruns', -⟩ := hends' rfl (hclock severed) ()
  obtain ⟨hlength, hagree, hacts⟩ := halike 2 turns turns' s₁ s₂ hruns hruns'
  refine ⟨turns, turns', s₁, s₂, hruns, hruns', hlength, hagree, hacts ?_ 1 Nat.one_ne_zero⟩
  exact fun t ht i hvisit hi => hollow_eq_severed hi (hruns.asks t ht i hvisit)

end Scheduler

end HistogramMonitor
