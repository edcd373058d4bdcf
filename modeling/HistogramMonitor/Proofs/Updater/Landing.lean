import Mathlib.Data.List.Induction
import HistogramMonitor.Proofs.Scheduler.Asking
import HistogramMonitor.Proofs.Updater.Ids

/-!
# What a visit knows of

A worker visits a plot only when it has found its mailbox empty, so it knows of everything that was sent while
it was on the errand before, the retrievals of an earlier visit included (`History.landed`). What it asks for
follows the last word of those commands: the last source that was given to the plot, the last default runs and
the last default program (`commands_land`).
-/

namespace HistogramMonitor

variable {β : Type}

/-! ## The last word -/

/-- The last word that elements of a list have on something, or else what held before. -/
def lastWord {α γ : Type} (word : α → Option γ) (l : List α) (before : γ) : γ :=
  (l.filterMap word).getLast?.getD before

theorem lastWord_concat {α γ : Type} (word : α → Option γ) (l : List α) (a : α) (before : γ) :
    lastWord word (l ++ [a]) before = (word a).getD (lastWord word l before) := by
  rw [lastWord, List.filterMap_append]
  cases h : word a with
  | none => simp [h, lastWord]
  | some v => simp [h]

/-- The runs that a command makes the default. -/
def Command.runs? : Command → Option (List UInt32)
  | .setDefaultRuns runs => some runs
  | _ => none

/-- The program that a command makes the default. -/
def Command.program? : Command → Option String
  | .setDefaultProgram program => some program
  | _ => none

/-- The source that a sending gives to a plot. -/
def Sending.source? (plot : Nat) (z : Sending) : Option (Option PlotSource) :=
  match z.command, z.result with
  | .addPlot p, .added id => if id = plot then some p.source else none
  | .changeSource id source _, _ => if id = plot then some source else none
  | _, _ => none

namespace Settings

/-- The source of a plot. -/
def source? (x : Settings) (plot : Nat) : Option PlotSource := x.plots[plot]?.bind (·.source)

theorem runs_foldl_heed (x : Settings) (cs : List Command) :
    (cs.foldl heed x).defaultRuns = lastWord Command.runs? cs x.defaultRuns := by
  induction cs using List.reverseRecOn with
  | nil => rfl
  | append_singleton cs c ih =>
    rw [List.foldl_append, lastWord_concat, ← ih]
    cases c <;> rfl

theorem program_foldl_heed (x : Settings) (cs : List Command) :
    (cs.foldl heed x).defaultProgram = lastWord Command.program? cs x.defaultProgram := by
  induction cs using List.reverseRecOn with
  | nil => rfl
  | append_singleton cs c ih =>
    rw [List.foldl_append, lastWord_concat, ← ih]
    cases c <;> rfl

/-- A command gives a registered plot the source that it names, or leaves it the one that it had. -/
theorem source_heed (x : Settings) (c : Command) {plot : Nat} (hplot : plot < (x.heed c).plots.length) :
    (plot < x.plots.length ∧ Sending.source? plot ⟨c, c.answer x.plots.length⟩ = none ∧
      (x.heed c).source? plot = x.source? plot) ∨
    Sending.source? plot ⟨c, c.answer x.plots.length⟩ = some ((x.heed c).source? plot) := by
  cases c with
  | addPlot p =>
    have hresult : (Command.addPlot p).answer x.plots.length = .added x.plots.length := rfl
    rw [hresult]
    unfold Sending.source? source?
    dsimp only [heed]
    by_cases hnew : x.plots.length = plot
    · right
      rw [if_pos hnew, ← hnew, List.getElem?_concat_length]
      rfl
    · left
      have hlt : plot < x.plots.length := by
        have hle : plot < x.plots.length + 1 := x.length_heed (.addPlot p) ▸ hplot
        omega
      rw [if_neg hnew, List.getElem?_append_left hlt]
      exact ⟨hlt, rfl, rfl⟩
  | changeSource id source refreshNow =>
    have hlt : plot < x.plots.length := by
      rw [x.length_heed] at hplot
      exact hplot
    unfold Sending.source? source?
    dsimp only [heed]
    rw [List.getElem?_modify, List.getElem?_eq_getElem hlt]
    by_cases hid : id = plot
    · right
      rw [if_pos hid]
      simp [hid]
    · left
      rw [if_neg hid]
      simp [hid, hlt]
  | _ => exact Or.inl ⟨hplot, rfl, rfl⟩

/-- The source of a registered plot is the last one that it was given. -/
theorem source_foldl_heed (x : Settings) (cs : List Command) {plot : Nat}
    (hplot : plot < (cs.foldl heed x).plots.length) : (cs.foldl heed x).source? plot =
      lastWord (Sending.source? plot) (answers x.plots.length cs) (x.source? plot) := by
  induction cs using List.reverseRecOn with
  | nil => rfl
  | append_singleton cs c ih =>
    have hlength := length_foldl_heed cs x
    rw [List.foldl_append] at hplot ⊢
    rw [answers_append, ← hlength]
    change _ = lastWord _ (_ ++ [_]) _
    rw [lastWord_concat]
    rcases source_heed (cs.foldl heed x) c hplot with ⟨hbefore, hword, hsame⟩ | hword
    · rw [hword, Option.getD_none, ← ih hbefore]
      exact hsame
    · rw [hword]
      rfl

end Settings

/-! ## Setting out for a visit -/

variable {w : Surroundings β} {meanwhile : β → Call → List Message} {x y : Scene β} {moves : List (Move β)}

/-- **A worker that has set out for a visit** is in the middle of a cycle, and has served all that was sent by
the end of its last errand. -/
theorem History.landed (hs : x.Sound) (hx : x.pending = []) (hidle : x.errand = none)
    (h : History (w.withMail meanwhile) x moves y) : y.errand = some .visit →
      (∃ s, y.updater.worker = .running s ∧ s.cycling) ∧
      ∀ past u since, moves = past ++ u :: since → u.errand? ≠ none →
        (sent (past ++ [u])).length ≤ (served moves).length := by
  induction h with
  | nil =>
    intro hvisit
    rw [hidle] at hvisit
    cases hvisit
  | @snoc moves t hmoves ht ih =>
    intro hvisit
    -- the last move was no errand, since the worker comes back from those without another
    have hnone : t.errand? = none := by
      by_contra hwork
      rw [ht.errand_eq_none hwork] at hvisit
      cases hvisit
    have hserved : served (moves ++ [t]) = served moves := by
      rw [served_append, served_singleton, hnone]
      exact List.append_nil _
    have hbefore : ∀ past u since, moves ++ [t] = past ++ u :: since → u.errand? ≠ none →
        ∃ since', moves = past ++ u :: since' := by
      intro past u since heq hwork
      rcases List.eq_nil_or_concat since with rfl | ⟨since', v, rfl⟩
      · obtain ⟨-, hlast⟩ := List.append_inj' heq rfl
        cases hlast
        exact absurd hnone hwork
      · rw [List.concat_eq_append, ← List.cons_append, ← List.append_assoc] at heq
        exact ⟨since', (List.append_inj' heq rfl).1⟩
    rw [hserved]
    cases ht.kind with
    | posts msg x =>
      obtain ⟨hcycling, hall⟩ := ih hvisit
      refine ⟨hcycling, fun past u since heq hwork => ?_⟩
      obtain ⟨since', hmoves'⟩ := hbefore past u since heq hwork
      exact hall past u since' hmoves' hwork
    | @departs s d queue cycling =>
      refine ⟨⟨s, rfl, cycling⟩, fun past u since heq hwork => ?_⟩
      obtain ⟨since', rfl⟩ := hbefore past u since heq hwork
      -- the mailbox is empty, so all that was sent has been served
      obtain ⟨-, hdelivery⟩ := hmoves.mail hs
      have hcommands : commands (arrivals (past ++ u :: since')) = served (past ++ u :: since') :=
        (hdelivery.commands_eq hx).trans ((congrArg (_ ++ commands ·) queue).trans (List.append_nil _))
      have hall : (sent (past ++ u :: since')).length = (served (past ++ u :: since')).length := by
        rw [hdelivery.sent, length_answers, hcommands]
      have hsplit : past ++ u :: since' = (past ++ [u]) ++ since' := by simp
      rw [← hall, hsplit, sent_append (past ++ [u]), List.length_append]
      exact Nat.le_add_right _ _
    | takes | stops | expires => cases hvisit
    | returns | dies => cases hvisit

/-- **Commands land before the next visit**, whenever they are sent. Let a worker visit a plot for a running
cycle, and take of all that was sent as many sendings, from the first one on, as it has served commands by then.

* These are the sendings of the commands that it has served, and among them are all that were sent by the end
  of any errand before: of an earlier visit, for this cycle or for another one, of serving a command, or of
  looking at the clock.
* The defaults in force are the last ones among these, and the source of the plot is the last one that was
  given to it there, when it was registered or later.
* The visit asks for the series of this source with these defaults, also if the client dies on it. -/
theorem commands_land {s₀ : Scheduler} {outside : β} {earlier later : List (Move β)} {t : Move β}
    (h : History (w.withMail meanwhile) (.spawn s₀ outside) (earlier ++ t :: later) x)
    (hvisit : t.errand? = some .visit) :
    ∃ s c, t.before.updater.worker = .running s ∧ s.cursor = some c ∧
      let heard := (sent (earlier ++ t :: later)).take (served earlier).length
      heard.map Sending.command = served earlier ∧
      (∀ past u since, earlier = past ++ u :: since → u.errand? ≠ none → sent (past ++ [u]) <+: heard) ∧
      s.defaultRuns = lastWord Command.runs? (served earlier) s₀.defaultRuns ∧
      s.defaultProgram = lastWord Command.program? (served earlier) s₀.defaultProgram ∧
      (c < s.plots.length → s.source? c = lastWord (Sending.source? c) heard (s₀.source? c)) ∧
      Asks s.defaultRuns s.defaultProgram (s.series c) (calls t.events) := by
  obtain ⟨hearlier, hoccurs, -⟩ := h.split
  have hwork : t.deed = .work ∧ t.before.errand = some .visit := by
    simpa [Move.errand?] using hvisit
  obtain ⟨⟨s, hrunning, hcycling⟩, hlanded⟩ :=
    hearlier.landed (sound_spawn s₀ outside) rfl rfl hwork.2
  obtain ⟨c, hc⟩ := Option.isSome_iff_exists.mp hcycling
  have hsettings := hearlier.settings rfl s hrunning
  refine ⟨s, c, hrunning, hc, ?_, ?_, ?_, ?_, ?_, ?_⟩
  · rw [h.take_sent, map_command_answers]
  · intro past u since heq hu
    rw [List.prefix_take_iff]
    refine ⟨?_, hlanded past u since heq hu⟩
    have hsplit : earlier ++ t :: later = (past ++ [u]) ++ (since ++ t :: later) := by simp [heq]
    rw [hsplit, sent_append (past ++ [u])]
    exact List.prefix_append _ _
  · exact (congrArg Settings.defaultRuns hsettings).trans (s₀.settings.runs_foldl_heed (served earlier))
  · exact (congrArg Settings.defaultProgram hsettings).trans
      (s₀.settings.program_foldl_heed (served earlier))
  · intro hlt
    rw [h.take_sent]
    refine (congrArg (fun x : Settings => x.source? c) hsettings).trans
      (s₀.settings.source_foldl_heed (served earlier) ?_)
    rw [← hsettings]
    exact hlt
  · rw [hoccurs.events_eq hvisit hrunning]
    exact s.calls_step (w.withMail meanwhile) hc t.before.updater.desk

/-- A plot with one series. -/
def seriesPlot : Plot := ⟨some ⟨[⟨"A", none, none⟩]⟩, false, false⟩

/-- Two plots are visited in one cycle, and the default runs are changed while the first one is. -/
def hindsight : List Deed :=
  [.post (.request .refreshAll), .look, .work, .look, .work, .look, .work, .look, .work]

/-- The first one could not be refreshed, and the second one is about to be. -/
def halfway : Scheduler :=
  { plots := [seriesPlot, seriesPlot], cursor := some 1, defaultRuns := [7], cycleCount := 1
    cycleFailures := 1 }

/-- The visit of the second one asks for the new runs. -/
theorem land_of_hindsight : ∃ earlier t x,
    play (Scheduler.stillness.withMail fun _ _ => [.request (.setDefaultRuns [7])]) hindsight
      (.spawn { plots := [seriesPlot, seriesPlot] } ()) = some (earlier ++ [t], x) ∧
    served earlier = [.refreshAll, .setDefaultRuns [7]] ∧ t.errand? = some .visit ∧
    Asks [7] standardProgram [⟨"A", none, none⟩] (calls t.events) := by
  obtain ⟨earlier, t, x, hplay, hserved, hvisit, hbefore⟩ : ∃ earlier t x,
      play (Scheduler.stillness.withMail fun _ _ => [.request (.setDefaultRuns [7])]) hindsight
        (.spawn { plots := [seriesPlot, seriesPlot] } ()) = some (earlier ++ [t], x) ∧
      served earlier = [.refreshAll, .setDefaultRuns [7]] ∧ t.errand? = some .visit ∧
      t.before.updater.worker = .running halfway :=
    ⟨[_, _, _, _, _, _, _, _], _, _, rfl, rfl, rfl, rfl⟩
  obtain ⟨s, c, hrunning, hcursor, -, -, -, -, -, hasks⟩ :=
    commands_land (history_of_play hplay) hvisit
  obtain rfl := Worker.running.inj (hbefore.symm.trans hrunning)
  cases hcursor
  exact ⟨earlier, t, x, hplay, hserved, hvisit, hasks⟩

end HistogramMonitor
