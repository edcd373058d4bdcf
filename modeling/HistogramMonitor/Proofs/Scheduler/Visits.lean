import HistogramMonitor.Proofs.Scheduler.Drawings
import HistogramMonitor.Proofs.Scheduler.Endings
import HistogramMonitor.Proofs.Scheduler.Isolation

/-!
# The acts of a visit

A visit retrieves the series of its plot one after the other, up to the first that it cannot get
(`Retrievals`), and that decides all that it does: each series that came back is drawn once its calls are made,
one that did not wipes the plot, and nothing is asked for behind it (`Plot.trace`). This is an equation about
all outcomes (`visit_trace`); a client that dies only cuts the trace short. The calls of it are those of the
retrievals (`visit_retrieves`).

A visit is made by a step, and by a change of the source that is to be seen at once. Headline:
`visit_exact`, what either of them does for the plot that it visits.
-/

namespace HistogramMonitor

variable {σ : Type}

/-- The acts of traffic are its calls. -/
theorem acts_of_traffic {es : List Event} (h : ∀ e ∈ es, e.IsTraffic) : acts es = (calls es).map .call := by
  induction es with
  | nil => rfl
  | cons e es ih =>
    obtain ⟨he, hes⟩ := List.forall_mem_cons.mp h
    have hrest := ih hes
    cases e with
    | call c => exact congrArg (Event.call c :: ·) hrest
    | sent _ | log _ => exact hrest
    | _ => exact he.elim

theorem acts_retrieve (w : Surroundings σ) (name : String) (runs : List UInt32) (program : String) (m : σ) :
    acts (Client.retrieve w name runs program m).events =
      (calls (Client.retrieve w name runs program m).events).map .call :=
  acts_of_traffic (Client.retrieve_emits w name runs program m)

/-- What comes after an action and is no act leaves the acts alone. -/
theorem Action.acts_bind_of_emits {α β : Type} {x : Action σ α} {f : α → Action σ β} (m : σ)
    (h : ∀ a, (f a).Emits fun e => e.IsAct = false) : acts ((x >>= f) m).events = acts (x m).events := by
  rw [bind_apply]
  cases (x m).value with
  | none => rfl
  | some a =>
    dsimp only
    rw [acts_append, acts_eq_nil (h a _), List.append_nil]

/-- Only acts are seen on the canvas. -/
theorem Canvas.after_acts (es : List Event) : ∀ x : Canvas, x.after (acts es) = x.after es := by
  induction es with
  | nil => exact fun x => rfl
  | cons e es ih =>
    intro x
    cases e with
    | sent _ | cycleStart | cycleComplete | status _ | log _ => exact ih x
    | _ => exact ih (x.draw _)

/-! ## Retrievals in a row -/

/-- How a row of retrievals ends. -/
inductive Ending
  /-- every series came back -/
  | complete
  /-- these calls were made for a series in vain -/
  | failed (asked : List Call)
  /-- the client has died over these calls -/
  | died (asked : List Call)

/-- The answer of a visit with this ending, unless it has none. -/
def Ending.verdict : Ending → Option Bool
  | complete => some true
  | failed _ => some false
  | died _ => none

/-- Such a row of series ends like this after `n` snapshots: they are all that there is, or calls were made for
the series behind them as well. -/
def Ending.Fits (runs : List UInt32) (program : String) (items : List SeriesSource) (n : Nat) : Ending → Prop
  | complete => n = items.length
  | failed asked | died asked =>
    ∃ item, items[n]? = some item ∧ Client.Attempts (item.request runs program) asked

/-- The retrievals of these series, one after the other and with these defaults, up to the first from which
nothing comes back: for each of those before it the calls that were made and the snapshot that they have
brought. -/
inductive Retrievals (w : Surroundings σ) (runs : List UInt32) (program : String) :
    List SeriesSource → σ → List (List Call × Snapshot) → Ending → Prop
  | complete (m : σ) : Retrievals w runs program [] m [] .complete
  | got {item : SeriesSource} {rest : List SeriesSource} {m m' : σ} {es : List Event} {h : Snapshot}
      {got : List (List Call × Snapshot)} {ending : Ending}
      (retrieved : Client.retrieve w item.name (item.runs.getD runs) (item.program.getD program) m =
        ⟨es, m', some (.ok h)⟩)
      (more : Retrievals w runs program rest m' got ending) :
      Retrievals w runs program (item :: rest) m ((calls es, h) :: got) ending
  | failed {item : SeriesSource} {rest : List SeriesSource} {m m' : σ} {es : List Event}
      {e : TransportError}
      (retrieved : Client.retrieve w item.name (item.runs.getD runs) (item.program.getD program) m =
        ⟨es, m', some (.error e)⟩) : Retrievals w runs program (item :: rest) m [] (.failed (calls es))
  | died {item : SeriesSource} {rest : List SeriesSource} {m m' : σ} {es : List Event}
      (retrieved : Client.retrieve w item.name (item.runs.getD runs) (item.program.getD program) m =
        ⟨es, m', none⟩) : Retrievals w runs program (item :: rest) m [] (.died (calls es))

namespace Retrievals

variable {w : Surroundings σ} {runs : List UInt32} {program : String} {items : List SeriesSource} {m : σ}
variable {got : List (List Call × Snapshot)} {ending : Ending}

/-- Each series is asked for once or twice, with what it names itself or else with the defaults. -/
theorem asked (h : Retrievals w runs program items m got ending) :
    ∀ (i : Nat) (asked : List Call) (shown : Snapshot), got[i]? = some (asked, shown) →
      ∃ item : SeriesSource, items[i]? = some item ∧ Client.Attempts (item.request runs program) asked := by
  induction h with
  | @got item rest m m' es h got ending retrieved more ih =>
    intro i asked shown hi
    cases i with
    | zero =>
      obtain ⟨rfl, -⟩ := Prod.mk.inj (Option.some.inj hi)
      have hasked := Client.calls_retrieve w item.name (item.runs.getD runs) (item.program.getD program) m
      rw [retrieved] at hasked
      exact ⟨item, rfl, hasked⟩
    | succ i => exact ih i asked shown hi
  | _ => exact fun i asked shown hi => by cases hi

/-- What is retrieved is a row of series from the first one on. It stops short of the end exactly at a series
from which nothing comes back. -/
theorem fits (h : Retrievals w runs program items m got ending) :
    ending.Fits runs program items got.length := by
  induction h with
  | complete m => rfl
  | @got item rest m m' es h got ending retrieved more ih =>
    cases ending with
    | complete => exact congrArg (· + 1) ih
    | failed asked | died asked => exact ih
  | @failed item rest m _ es e retrieved | @died item rest m _ es retrieved =>
    have hasked := Client.calls_retrieve w item.name (item.runs.getD runs) (item.program.getD program) m
    rw [retrieved] at hasked
    exact ⟨item, rfl, hasked⟩

/-- Where every call is answered, the row does not end with the client. -/
theorem ne_died (hw : w.Answers) (h : Retrievals w runs program items m got ending) :
    ∀ asked, ending ≠ .died asked := by
  induction h with
  | complete m => exact fun _ => nofun
  | got _ _ ih => exact ih
  | failed _ => exact fun _ => nofun
  | @died item rest m m' es retrieved =>
    obtain ⟨answer, hanswer⟩ :=
      Client.retrieve_value hw item.name (item.runs.getD runs) (item.program.getD program) m
    rw [retrieved] at hanswer
    cases hanswer

theorem drawn {success : Bool} (h : Retrievals w runs program items m got ending)
    (hverdict : ending.verdict = some success) :
    Scheduler.Drawn w runs program items m (got.map Prod.snd) success := by
  induction h with
  | complete m =>
    cases hverdict
    exact .all m
  | got retrieved _ ih => exact .got retrieved (ih hverdict)
  | failed retrieved =>
    cases hverdict
    exact .lost retrieved
  | died _ => cases hverdict

end Retrievals

/-! ## The calls of a row -/

/-- The calls that were made for the series at which a row has ended. -/
def Ending.asked : Ending → List Call
  | complete => []
  | failed asked | died asked => asked

/-- These are the calls with which such a row of series is retrieved, up to the first from which nothing comes back:
those for each one before it, and then those for itself, once or twice in either case. -/
def Retrieves (w : Surroundings σ) (runs : List UInt32) (program : String) (items : List SeriesSource) (m : σ)
    (cs : List Call) : Prop :=
  ∃ got ending, Retrievals w runs program items m got ending ∧ cs = got.flatMap Prod.fst ++ ending.asked ∧
    (∀ (i : Nat) (asked : List Call) (shown : Snapshot), got[i]? = some (asked, shown) →
      ∃ item : SeriesSource, items[i]? = some item ∧ Client.Attempts (item.request runs program) asked) ∧
    ending.Fits runs program items got.length

section

variable {w : Surroundings σ} {runs : List UInt32} {program : String} {items : List SeriesSource} {m : σ}
variable {got : List (List Call × Snapshot)} {ending : Ending} {cs : List Call}

theorem Retrievals.retrieves (h : Retrievals w runs program items m got ending) :
    Retrieves w runs program items m (got.flatMap Prod.fst ++ ending.asked) :=
  ⟨got, ending, h, rfl, h.asked, h.fits⟩

/-- Without a series there is nothing to ask for. -/
theorem Retrieves.nil (w : Surroundings σ) (runs : List UInt32) (program : String) (m : σ) :
    Retrieves w runs program [] m [] :=
  (Retrievals.complete m).retrieves

theorem Retrievals.length_calls_le (h : Retrievals w runs program items m got ending) :
    (got.flatMap Prod.fst ++ ending.asked).length ≤ 2 * items.length := by
  have htwo : ∀ (item : SeriesSource) (m : σ), (calls (Client.retrieve w item.name (item.runs.getD runs)
      (item.program.getD program) m).events).length ≤ 2 :=
    fun item m => Client.Attempts.length_le (Client.calls_retrieve w _ _ _ m)
  induction h with
  | complete => exact Nat.le_refl 0
  | @got item rest m _ es h got ending retrieved _ ih =>
    have hfirst := htwo item m
    rw [retrieved] at hfirst
    rw [List.flatMap_cons, List.append_assoc, List.length_append, List.length_cons]
    exact Nat.le_trans (Nat.add_le_add hfirst ih) (Nat.le_of_eq (Nat.add_comm _ _))
  | @failed item rest m _ es _ retrieved | @died item rest m _ es retrieved =>
    have hlast := htwo item m
    rw [retrieved] at hlast
    exact Nat.le_trans hlast (Nat.mul_le_mul_left 2 (Nat.succ_pos rest.length))

/-- There are at most two calls for each series. -/
theorem Retrieves.length_le (h : Retrieves w runs program items m cs) : cs.length ≤ 2 * items.length := by
  obtain ⟨got, ending, hretrievals, rfl, -⟩ := h
  exact hretrievals.length_calls_le

end

/-! ## Traces -/

/-- The snapshots are drawn, each under its number and after the calls that have brought it. -/
def drawnFrom (plot i : Nat) (got : List (List Call × Snapshot)) : List Event :=
  (got.zipIdx i).flatMap fun x => x.1.1.map .call ++ [.display plot x.2 x.1.2]

theorem drawnFrom_cons (plot i : Nat) (asked : List Call) (h : Snapshot) (got : List (List Call × Snapshot)) :
    drawnFrom plot i ((asked, h) :: got) =
      asked.map .call ++ .display plot i h :: drawnFrom plot (i + 1) got := by
  simp only [drawnFrom, List.zipIdx_cons, List.flatMap_cons, List.append_assoc, List.singleton_append]

/-- What is done about the series from which nothing comes back. -/
def Ending.trace (plot : Nat) : Ending → List Event
  | complete => []
  | failed asked => asked.map .call ++ [.clear plot]
  | died asked => asked.map .call

/-- The acts of a visit of the plot with this number, as its retrievals have it. -/
def Plot.trace (p : Plot) (plot : Nat) (got : List (List Call × Snapshot)) (ending : Ending) : List Event :=
  (if p.announcesStart then [.updateStart plot] else []) ++ drawnFrom plot 0 got ++ ending.trace plot ++
    if p.announcesComplete ∧ ending.verdict.isSome then [.updateComplete plot] else []

theorem calls_acts (es : List Event) : calls (acts es) = calls es := by
  rw [calls, acts, List.filterMap_filter]
  refine List.filterMap_congr fun e _ => ?_
  cases e <;> rfl

theorem calls_map_call (cs : List Call) : calls (cs.map .call) = cs := by
  rw [calls, List.filterMap_map]
  exact List.filterMap_some

theorem calls_drawnFrom (plot : Nat) (got : List (List Call × Snapshot)) :
    ∀ i, calls (drawnFrom plot i got) = got.flatMap Prod.fst := by
  induction got with
  | nil => exact fun i => rfl
  | cons x got ih =>
    intro i
    rw [drawnFrom_cons, calls_append, calls_map_call, List.flatMap_cons, ← ih (i + 1)]
    rfl

theorem Ending.calls_trace (plot : Nat) (ending : Ending) : calls (ending.trace plot) = ending.asked := by
  cases ending with
  | complete => rfl
  | failed asked =>
    rw [trace, calls_append, calls_map_call]
    exact List.append_nil asked
  | died asked => exact calls_map_call asked

namespace Scheduler

open HistogramMonitor.Action

variable {w : Surroundings σ} {s : Scheduler}

theorem drawSeries_trace (w : Surroundings σ) (s : Scheduler) (plot : Nat) (items : List SeriesSource) :
    ∀ i m, ∃ got ending, Retrievals w s.defaultRuns s.defaultProgram items m got ending ∧
      acts (s.drawSeries w plot i items m).events = drawnFrom plot i got ++ ending.trace plot ∧
      (s.drawSeries w plot i items m).value = ending.verdict := by
  induction items with
  | nil => exact fun i m => ⟨[], .complete, .complete m, rfl, rfl⟩
  | cons item rest ih =>
    intro i m
    have hacts := acts_retrieve w item.name (item.runs.getD s.defaultRuns)
      (item.program.getD s.defaultProgram) m
    unfold drawSeries
    dsimp only
    rw [bind_apply]
    rcases hretrieve : Client.retrieve w item.name (item.runs.getD s.defaultRuns)
      (item.program.getD s.defaultProgram) m with ⟨es, m₁, _ | e | h⟩
    all_goals
      rw [hretrieve] at hacts
      dsimp only at hacts ⊢
    · exact ⟨[], _, .died hretrieve, hacts, rfl⟩
    · refine ⟨[], _, .failed hretrieve, ?_, rfl⟩
      rw [acts_append, hacts]
      rfl
    · obtain ⟨got, ending, hmore, hrest, hvalue⟩ := ih (i + 1) m₁
      refine ⟨_, ending, .got hretrieve hmore, ?_, hvalue⟩
      rw [acts_append, hacts, drawnFrom_cons, List.append_assoc, List.cons_append, ← hrest]
      rfl

/-- **The calls of a visit** are those of its retrievals. -/
theorem visit_retrieves (w : Surroundings σ) (s : Scheduler) (plot : Nat) (m : σ) :
    Retrieves w s.defaultRuns s.defaultProgram (s.series plot) m (calls (s.visit w plot m).events) := by
  obtain ⟨got, ending, hretrievals, hacts, -⟩ := drawSeries_trace w s plot (s.series plot) 0 m
  rw [calls_visit_eq, ← calls_acts, hacts, calls_append, calls_drawnFrom, ending.calls_trace]
  exact hretrievals.retrieves

/-- A plot without a source is passed over. -/
theorem visit_of_no_source {plot : Nat} {p : Plot} (hp : s.plots[plot]? = some p) (hnone : p.source = none)
    (m : σ) : s.visit w plot m = ⟨[], m, some true⟩ := by
  unfold visit
  rw [hp]
  dsimp only
  rw [hnone]
  rfl

/-- **What a visit does**, whatever it comes to, is decided by its retrievals. -/
theorem visit_trace {plot : Nat} {p : Plot} {source : PlotSource} (hp : s.plots[plot]? = some p)
    (hsource : p.source = some source) (m : σ) :
    ∃ got ending, Retrievals w s.defaultRuns s.defaultProgram source.series m got ending ∧
      acts (s.visit w plot m).events = p.trace plot got ending ∧
      (s.visit w plot m).value = ending.verdict := by
  obtain ⟨got, ending, hretrievals, hacts, hvalue⟩ := drawSeries_trace w s plot source.series 0 m
  refine ⟨got, ending, hretrievals, ?_⟩
  have hstart : acts (if p.announcesStart then [Event.updateStart plot] else []) =
      if p.announcesStart then [.updateStart plot] else [] := by
    split <;> rfl
  unfold visit Plot.trace
  rw [hp]
  dsimp only
  rw [hsource]
  dsimp only
  rw [tell_if_apply, bind_apply, hvalue]
  dsimp only
  rw [acts_append, hstart]
  cases hverdict : ending.verdict with
  | none =>
    have huntold : ¬ (p.announcesComplete ∧ (none : Option Bool).isSome) :=
      fun h => Bool.false_ne_true h.2
    rw [hacts, if_neg huntold, List.append_nil, List.append_assoc]
    exact ⟨rfl, rfl⟩
  | some success =>
    have hcomplete : acts (if p.announcesComplete then [Event.updateComplete plot] else []) =
        if p.announcesComplete then [.updateComplete plot] else [] := by
      split <;> rfl
    dsimp only
    rw [tell_if_apply, pure_apply, List.append_nil, acts_append, hacts, hcomplete]
    simp only [List.append_assoc, Option.isSome_some, and_true]

theorem series_of_source {plot : Nat} {p : Plot} {source : PlotSource} (hp : s.plots[plot]? = some p)
    (hsource : p.source = some source) : s.series plot = source.series := by
  rw [series, source?, hp, Option.bind_some, hsource]
  rfl

/-- The backend decides which snapshots come back. -/
theorem Drawn.eq {runs : List UInt32} {program : String} {items : List SeriesSource} {m : σ}
    {shots shots' : List Snapshot} {success : Bool} (h : Drawn w runs program items m shots success)
    (h' : Drawn w runs program items m shots' success) : shots = shots' := by
  induction h generalizing shots' with
  | all m =>
    cases h'
    rfl
  | got retrieved _ ih =>
    cases h' with
    | got retrieved' more' =>
      cases retrieved.symm.trans retrieved'
      rw [ih more']
    | lost failed' => cases retrieved.symm.trans failed'
  | lost failed =>
    cases h' with
    | got retrieved' _ => cases failed.symm.trans retrieved'
    | lost _ => rfl

/-- What is seen of a plot after a visit with a verdict: all that came back, or nothing. -/
theorem visit_covers {plot : Nat} {p : Plot} {source : PlotSource} (hp : s.plots[plot]? = some p)
    (hsource : p.source = some source) {m : σ} {got : List (List Call × Snapshot)} {ending : Ending}
    (h : Retrievals w s.defaultRuns s.defaultProgram source.series m got ending) {success : Bool}
    (hverdict : ending.verdict = some success) (hvalue : (s.visit w plot m).value = some success)
    (x : Canvas) (i : Nat) : x.after (s.visit w plot m).events plot i =
      if success then (got[i]?.map Prod.snd).or (x plot i) else none := by
  have hvisit : s.visit w plot m = ⟨(s.visit w plot m).events, (s.visit w plot m).next, some success⟩ := by
    rw [← hvalue]
  obtain ⟨shots, hdrawn, hshows⟩ := visit_shows hvisit
  rw [series_of_source hp hsource] at hdrawn
  rw [hshows, hdrawn.eq (h.drawn hverdict), List.getElem?_map]

/-! ## Steps and changes of the source -/

/-- The state in which the visit of an operation is made: a plot that is pointed at another source has it by
then. -/
def Operation.aimed : Operation → Scheduler → Scheduler
  | changeSource plot source _, s =>
    match s.plots[plot]? with
    | none => s
    | some p => { s with plots := s.plots.set plot { p with source := source } }
  | _, s => s

@[simp] theorem Operation.aimed_defaultRuns (op : Operation) (s : Scheduler) :
    (op.aimed s).defaultRuns = s.defaultRuns := by
  unfold aimed
  split
  · split <;> rfl
  · rfl

@[simp] theorem Operation.aimed_defaultProgram (op : Operation) (s : Scheduler) :
    (op.aimed s).defaultProgram = s.defaultProgram := by
  unfold aimed
  split
  · split <;> rfl
  · rfl

/-- The acts of a step are those of its visit. -/
theorem acts_step {c : Nat} (hc : s.cursor = some c) (hlt : c < s.plots.length) (m : σ) :
    acts (s.step w m).events = acts (s.visit w c m).events := by
  unfold step
  rw [hc]
  dsimp only
  rw [if_pos hlt]
  exact acts_bind_of_emits m fun success =>
    ((report_emits _ _).bind (step_end_emits w)).mono fun _ => Event.IsNotice.not_act

/-- A step counts its visit if it failed, unless the count is over since a follow-up has begun. -/
theorem failures_step (hs : Sound s) {c : Nat} (hc : s.cursor = some c) {s' : Scheduler} {m : σ}
    (h : (s.step w m).value = some s') :
    ∃ success, (s.visit w c m).value = some success ∧ (s'.cycleCount = s.cycleCount →
      s'.cycleFailures = s.cycleFailures + (!success).toNat) := by
  have hstep : s.step w m = ⟨(s.step w m).events, (s.step w m).next, some s'⟩ := by rw [← h]
  obtain ⟨es₁, m₁, success, es₂, hvisit, -, -, hend⟩ := step_eq_some hc (hs.registered c hc) hstep
  have hcounted : (s.visited c success).cycleFailures = s.cycleFailures + (!success).toNat := by
    cases success <;> rfl
  refine ⟨success, congrArg Outcome.value hvisit, fun hcount => ?_⟩
  rcases hend with ⟨-, rfl, -⟩ | ⟨-, es₃, hfinish, -⟩
  · exact hcounted
  · rcases finishCycle_eq_some (s := s.visited c success) (hs.plots_ne_nil hc) hfinish with
      ⟨-, -, rfl, -⟩ | ⟨-, -, timer, rfl, -⟩
    · exact absurd hcount (Nat.succ_ne_self s.cycleCount)
    · exact hcounted

/-- A change of the source that is to be seen at once visits the plot, which has the source by then. -/
theorem perform_changeSource (w : Surroundings σ) {plot : Nat} (source : Option PlotSource) {p : Plot}
    (hp : s.plots[plot]? = some p) (m : σ) :
    let op := Operation.changeSource plot source true
    (op.perform w s m).events = ((op.aimed s).visit w plot m).events ∧
      ∀ s', (op.perform w s m).value = some s' → s' = op.aimed s := by
  dsimp only [Operation.perform, Operation.aimed]
  unfold changeSource
  rw [hp]
  dsimp only
  rw [if_pos rfl, bind_apply, bind_apply]
  generalize visit w _ plot m = o
  rcases o with ⟨es, m', _ | success⟩
  · exact ⟨rfl, nofun⟩
  · refine ⟨?_, fun s' h => (Option.some.inj h).symm⟩
    change (es ++ []) ++ [] = es
    rw [List.append_nil, List.append_nil]

/-- What an operation does for a plot is its visit, and only a step counts it. -/
theorem perform_visit (hs : Sound s) {op : Operation} {plot : Nat} (hvisit : op.refreshes? s = some plot)
    (m : σ) :
    (∃ p, (op.aimed s).plots[plot]? = some p) ∧
      acts (op.perform w s m).events = acts ((op.aimed s).visit w plot m).events ∧
      ∀ s' success, (op.perform w s m).value = some s' →
        ((op.aimed s).visit w plot m).value = some success → s'.cycleCount = s.cycleCount →
          s'.cycleFailures = s.cycleFailures + if op = .step then (!success).toNat else 0 := by
  cases op with
  | step =>
    have hlt := hs.registered plot hvisit
    refine ⟨⟨_, List.getElem?_eq_getElem hlt⟩, acts_step hvisit hlt m, ?_⟩
    intro s' success hvalue hsuccess hcount
    obtain ⟨success', hsuccess', hfailures⟩ := failures_step hs hvisit hvalue
    cases hsuccess.symm.trans hsuccess'
    exact hfailures hcount
  | changeSource p source refreshNow =>
    cases refreshNow with
    | false => cases hvisit
    | true =>
      obtain ⟨hlt, rfl⟩ : p < s.plots.length ∧ p = plot := by
        simpa [Operation.refreshes?] using hvisit
      have hp : s.plots[p]? = some s.plots[p] := List.getElem?_eq_getElem hlt
      obtain ⟨hevents, hvalue⟩ := perform_changeSource w source hp m
      refine ⟨⟨⟨source, s.plots[p].announcesStart, s.plots[p].announcesComplete⟩, ?_⟩, congrArg acts hevents, ?_⟩
      · dsimp only [Operation.aimed]
        rw [hp]
        exact List.getElem?_set_self hlt
      · intro s' success hs' _ _
        have hother : Operation.changeSource p source true ≠ .step := by
          intro h
          cases h
        rw [hvalue s' hs', if_neg hother]
        dsimp only [Operation.aimed]
        rw [hp]
        rfl
  | _ => cases hvisit

/-- **The acts of a visit**, in every state that a monitor can be in, whether a step makes it or a change of
the source, and whatever the backend does. A plot without a source is passed over. Else

* the retrievals of the series say exactly what is done, in which order: whoever wants to know is told that
  the visit begins; each series that comes back is drawn after its calls; the first that does not has the plot
  wiped after its calls, and none behind it is asked for; whoever wants to know is told that it is over;
* each call is for the series whose turn it is, with what the series names itself or else with the defaults;
* unless a call brings the client down, the visit has a verdict. If every series came back, all of them are
  shown, each under its number; if not, nothing is shown on the plot, and a step counts a failure. -/
theorem visit_exact (hs : Reachable w s) {op : Operation} {plot : Nat} (hvisit : op.refreshes? s = some plot)
    (m : σ) :
    let o := op.perform w s m
    ∃ p, (op.aimed s).plots[plot]? = some p ∧
      (p.source = none → acts o.events = [] ∧
        ∀ s', o.value = some s' → s'.cycleCount = s.cycleCount → s'.cycleFailures = s.cycleFailures) ∧
      ∀ source, p.source = some source → ∃ got ending,
        Retrievals w s.defaultRuns s.defaultProgram source.series m got ending ∧
        acts o.events = p.trace plot got ending ∧
        (∀ (i : Nat) (asked : List Call) (shown : Snapshot), got[i]? = some (asked, shown) →
          ∃ item : SeriesSource, source.series[i]? = some item ∧
            Client.Attempts (item.request s.defaultRuns s.defaultProgram) asked) ∧
        ending.Fits s.defaultRuns s.defaultProgram source.series got.length ∧
        (w.Answers → ∀ asked, ending ≠ .died asked) ∧
        ∀ success, ending.verdict = some success →
          (∀ (x : Canvas) (i : Nat), x.after o.events plot i =
            if success then (got[i]?.map Prod.snd).or (x plot i) else none) ∧
          ∀ s', o.value = some s' → s'.cycleCount = s.cycleCount →
            s'.cycleFailures = s.cycleFailures + if op = .step then (!success).toNat else 0 := by
  intro o
  obtain ⟨⟨p, hp⟩, hacts, hfailures⟩ := perform_visit hs.sound hvisit m
  refine ⟨p, hp, fun hnone => ?_, fun source hsource => ?_⟩
  · have hskip := visit_of_no_source (w := w) hp hnone m
    refine ⟨hacts.trans (congrArg (fun o => acts o.events) hskip), fun s' hs' hcount => ?_⟩
    rw [hfailures s' true hs' (congrArg Outcome.value hskip) hcount]
    split <;> rfl
  · obtain ⟨got, ending, hretrievals, htrace, hvalue⟩ := visit_trace (w := w) hp hsource m
    rw [← op.aimed_defaultRuns s, ← op.aimed_defaultProgram s]
    refine ⟨got, ending, hretrievals, hacts.trans htrace, hretrievals.asked, hretrievals.fits,
      fun hw => hretrievals.ne_died hw, fun success hverdict => ⟨fun x i => ?_, fun s' hs' hcount => ?_⟩⟩
    · rw [← Canvas.after_acts o.events, hacts, Canvas.after_acts]
      exact visit_covers hp hsource hretrievals hverdict (hvalue.trans hverdict) x i
    · exact hfailures s' success hs' (hvalue.trans hverdict) hcount

/-! ## A series that is lost behind another -/

/-- A clock that stands still beside a backend that knows a histogram, but answers with it only once. -/
def forgetful : Surroundings Bool where
  answer known _ :=
    { reply := .bytes (if known then Envelope.wrap Envelope.histogramType emptySeries.encode else [])
      next := false }
  now known := (⟨0⟩, known)

/-- A plot with two series is about to be visited, and somebody wants to know. -/
def watchedPair : Scheduler := { plots := [⟨pair, true, true⟩], cursor := some 0, cycleCount := 1 }

theorem reachable_watchedPair : Reachable forgetful watchedPair :=
  ((Reachable.fresh false false .absent).perform (.addPlot ⟨pair, true, true⟩) (m := true) rfl).perform
    .refreshAll (m := true) rfl

/-- The first series is drawn, and wiped again since the second one is lost. -/
theorem visit_exact_of_forgetful :
    acts (Operation.step.perform forgetful watchedPair true).events =
      [.updateStart 0, .call (Client.request "A" [0] standardProgram), .display 0 0 emptySeries,
        .call (Client.request "B" [0] standardProgram), .clear 0, .updateComplete 0] ∧
      ∀ (x : Canvas) (i : Nat), x.after (Operation.step.perform forgetful watchedPair true).events 0 i = none := by
  have hfirst : Client.retrieve forgetful "A" [0] standardProgram true =
      ⟨[.call (Client.request "A" [0] standardProgram)], false, some (.ok emptySeries)⟩ := rfl
  have hsecond : Client.retrieve forgetful "B" [0] standardProgram false =
      ⟨[.call (Client.request "B" [0] standardProgram)], false, some (.error .empty)⟩ := rfl
  have hvisit : Operation.step.refreshes? watchedPair = some 0 := rfl
  obtain ⟨p, hp, -, hsource⟩ := visit_exact reachable_watchedPair hvisit true
  cases hp
  obtain ⟨got, ending, hretrievals, htrace, -, -, -, hends⟩ := hsource pair rfl
  cases hretrievals with
  | got retrieved more =>
    cases hfirst.symm.trans retrieved
    cases more with
    | got retrieved _ => cases hsecond.symm.trans retrieved
    | died retrieved => cases hsecond.symm.trans retrieved
    | failed retrieved =>
      cases hsecond.symm.trans retrieved
      exact ⟨htrace, (hends false rfl).1⟩
  | failed retrieved => cases hfirst.symm.trans retrieved
  | died retrieved => cases hfirst.symm.trans retrieved

end Scheduler

end HistogramMonitor
