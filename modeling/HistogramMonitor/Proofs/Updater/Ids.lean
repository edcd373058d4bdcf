import HistogramMonitor.Proofs.Scheduler.Settings
import HistogramMonitor.Proofs.Updater.Order

/-!
# The ids of plots

The handle says which id a new plot will have without asking the worker. It is right because the settings of
the scheduler are what the served commands make of the first ones (`History.settings`), and the served commands
are the first of those that were sent: so the plots that the handle has counted are those that are registered
and those that are still on their way (`ids_agree`).
-/

namespace HistogramMonitor

variable {β : Type}

/-! ## Counting plots -/

theorem length_answers (cs : List Command) (n : Nat) : (answers n cs).length = cs.length := by
  have hlength := congrArg List.length (map_command_answers cs n)
  rwa [List.length_map] at hlength

/-- An id that was given away is smaller than all that are given away later. -/
theorem lt_of_mem_answers {c : Command} {id : Nat} {cs : List Command} :
    ∀ {n}, ⟨c, .added id⟩ ∈ answers n cs → id < n + additions cs := by
  induction cs with
  | nil => exact fun h => nomatch h
  | cons c' cs ih =>
    intro n h
    rw [additions_cons]
    rcases List.mem_cons.mp h with heq | hmem
    · have hresult : SendResult.added id = c'.answer n := congrArg Sending.result heq
      unfold Command.answer at hresult
      cases hadds : c'.adds with
      | true =>
        rw [hadds, if_pos rfl] at hresult
        cases hresult
        simp only [Bool.toNat_true]
        omega
      | false =>
        rw [hadds, if_neg Bool.false_ne_true] at hresult
        cases hresult
    · have := ih hmem
      omega

theorem Settings.length_heed (x : Settings) (c : Command) :
    (x.heed c).plots.length = x.plots.length + c.adds.toNat := by
  cases c with
  | addPlot p => exact List.length_append
  | changeSource plot source refreshNow => exact List.length_modify _ _ _
  | _ => rfl

/-- Commands register as many plots as there are additions among them. -/
theorem Settings.length_foldl_heed (cs : List Command) : ∀ x : Settings,
    (cs.foldl heed x).plots.length = x.plots.length + additions cs := by
  induction cs with
  | nil => exact fun x => rfl
  | cons c cs ih =>
    intro x
    rw [List.foldl_cons, ih, length_heed, additions_cons, Nat.add_assoc]

/-! ## The settings of a worker -/

/-- An errand leaves the settings that its command makes of those before it, if it has one. -/
theorem Errand.action_settings {σ : Type} (w : Surroundings σ) (errand : Errand) (s : Scheduler) :
    Scheduler.Retains (errand.command?.toList.foldl Settings.heed s.settings) (errand.action w s) := by
  cases errand with
  | serve c => exact s.apply_settings w c
  | visit => exact s.step_settings w
  | wake =>
    exact (Action.gives_any _).bind fun t _ =>
      (s.fireTimer_settings w t).bind fun _ hs => Action.gives_pure hs

/-- **The settings of a worker** are what the served commands make of the first ones. -/
theorem History.settings {w : Surroundings (Desk β)} {x y : Scene β} {moves : List (Move β)} {s₀ : Scheduler}
    (h : History w x moves y) (hx : x.updater.worker = .running s₀) : ∀ s, y.updater.worker = .running s →
      s.settings = (served moves).foldl Settings.heed s₀.settings := by
  induction h with
  | nil =>
    intro s hs
    rw [Worker.running.inj (hs.symm.trans hx)]
    rfl
  | @snoc moves t _ ht ih =>
    intro s hs
    rw [served_append, served_singleton, List.foldl_append]
    cases ht.kind with
    | posts | takes | departs | expires => exact ih s hs
    | stops | dies => cases hs
    | @returns errand s₁ s' d d' es done =>
      obtain rfl := Worker.running.inj hs
      rw [← ih s₁ rfl]
      exact errand.action_settings w s₁ d s' (congrArg Outcome.value done)

/-- A worker has as many plots as it was given, and as it has served additions. -/
theorem History.length_plots {w : Surroundings (Desk β)} {x y : Scene β} {moves : List (Move β)}
    {s₀ s : Scheduler} (h : History w x moves y) (hx : x.updater.worker = .running s₀)
    (hy : y.updater.worker = .running s) : s.plots.length = s₀.plots.length + additions (served moves) :=
  (congrArg (fun x : Settings => x.plots.length) (h.settings hx s hy)).trans
    (Settings.length_foldl_heed (served moves) s₀.settings)

/-! ## The ids -/

variable {w : Surroundings β} {meanwhile : β → Call → List Message} {x : Scene β}
  {moves earlier later : List (Move β)} {t : Move β} {s₀ : Scheduler} {outside : β}

/-- What has been sent by the end of a history begins with what was served up to any of its moves. -/
theorem History.exists_sent (h : History (w.withMail meanwhile) (.spawn s₀ outside) (earlier ++ t :: later) x) :
    ∃ rest, sent (earlier ++ t :: later) = answers s₀.plots.length (served earlier) ++
      answers (s₀.plots.length + additions (served earlier)) (commands t.before.pending ++ rest) := by
  have hs := sound_spawn s₀ outside
  have hcommands : commands (arrivals (earlier ++ t :: later)) =
      served earlier ++ (commands t.before.pending ++ commands (arrivals (t :: later))) := by
    rw [arrivals_append, commands_append, (h.split.1.mail hs).2.commands_eq rfl, List.append_assoc]
  have hsent := (h.mail hs).2.sent
  rw [hcommands, answers_append] at hsent
  exact ⟨_, hsent⟩

/-- As many of the first sendings as there were commands served are the sendings of these. -/
theorem History.take_sent (h : History (w.withMail meanwhile) (.spawn s₀ outside) (earlier ++ t :: later) x) :
    (sent (earlier ++ t :: later)).take (served earlier).length =
      answers s₀.plots.length (served earlier) := by
  obtain ⟨rest, hsent⟩ := h.exists_sent
  rw [hsent]
  exact List.take_left' (length_answers _ _)

/-- A worker that serves a command has it in hand. -/
theorem Move.Occurs.serving {w : Surroundings (Desk β)} {c : Command} (h : t.Occurs w)
    (ht : t.errand? = some (.serve c)) : ∃ s, t.before.updater.worker = .running s ∧
      t.before.pending = .request c :: t.before.mailbox.queue := by
  cases h.kind with
  | @returns errand s | @dies errand s =>
    cases ht
    exact ⟨s, rfl, rfl⟩
  | posts | takes | stops | departs | expires => cases ht

/-- Registering a plot always succeeds. -/
theorem Move.Occurs.registers {w : Surroundings (Desk β)} {s : Scheduler} {p : Plot} (h : t.Occurs w)
    (ht : t.errand? = some (.serve (.addPlot p))) (hs : t.before.updater.worker = .running s) :
    t.after.updater.worker = .running { s with plots := s.plots ++ [p] } := by
  cases h.kind with
  | returns done =>
    cases ht
    cases hs
    cases done
    rfl
  | dies done =>
    cases ht
    cases done
  | posts | takes | stops | departs | expires => cases ht

/-- Pointing a registered plot at another source is never refused. -/
theorem Scheduler.changeSource_ne_none {σ : Type} (w : Surroundings σ) {s : Scheduler} {id : Nat}
    (hid : id < s.plots.length) (source : Option PlotSource) (refreshNow : Bool) :
    (s.changeSource w id source refreshNow).Gives (· ≠ none) := by
  unfold changeSource
  rw [List.getElem?_eq_getElem hid]
  exact Action.Gives.ite ((Action.gives_any _).bind fun _ _ => Action.gives_pure nofun) (Action.gives_pure nofun)

/-- **The ids of handle and worker agree**, however many plots there were at first, and however the moves of
handle and worker come after each other.

* The command that the worker serves is the next one of those that were sent. Where it registers a plot, its
  sender has learned the number of plots that there are, and this is where the plot is registered.
* A source that is changed under an id which was given away before is never refused.
* As long as the worker runs, the handle counts the plots that are registered and those that are on their way.
* When the worker is gone, everything that is sent is refused, and the handle counts no further. -/
theorem ids_agree (h : History (w.withMail meanwhile) (.spawn s₀ outside) moves x) :
    (∀ earlier t later c, moves = earlier ++ t :: later → t.errand? = some (.serve c) →
      ∃ s result, t.before.updater.worker = .running s ∧
        (sent moves)[(served earlier).length]? = some ⟨c, result⟩ ∧
        ∀ p, c = .addPlot p → result = .added s.plots.length ∧
          t.after.updater.worker = .running { s with plots := s.plots ++ [p] }) ∧
    (∀ earlier t later id source refreshNow, moves = earlier ++ t :: later →
      t.errand? = some (.serve (.changeSource id source refreshNow)) →
      (∃ p, ⟨.addPlot p, .added id⟩ ∈ (sent moves).take (served earlier).length) →
      ∃ s, t.before.updater.worker = .running s ∧ id < s.plots.length ∧
        (s.changeSource (w.withMail meanwhile) id source refreshNow t.before.updater.desk).value ≠
          some none) ∧
    (∀ s, x.updater.worker = .running s →
      x.mailbox.plotCount = s.plots.length + additions (commands x.pending)) ∧
    (x.updater.alive = false → (∀ c, x.updater.send c = (x.updater, .refused)) ∧
      ∀ more y, History (w.withMail meanwhile) x more y →
        y.updater.alive = false ∧ y.mailbox.plotCount = x.mailbox.plotCount ∧
        ∀ u ∈ more, ∀ z ∈ u.sendings, z.result = .refused) := by
  have hs := sound_spawn s₀ outside
  obtain ⟨hsound, hdelivery⟩ := h.mail hs
  refine ⟨?_, ?_, fun s hrunning => ?_, fun hgone => ⟨fun c => ?_, fun more y hmore => ?_⟩⟩
  · rintro earlier t later c rfl ht
    obtain ⟨hearlier, hoccurs, -⟩ := h.split
    obtain ⟨s, hrunning, hhand⟩ := hoccurs.serving ht
    obtain ⟨rest, hsent⟩ := h.exists_sent
    refine ⟨s, c.answer s.plots.length, hrunning, ?_, ?_⟩
    · rw [hsent, hhand, List.getElem?_append_right (Nat.le_of_eq (length_answers _ _)), length_answers,
        Nat.sub_self, hearlier.length_plots rfl hrunning]
      rfl
    · rintro p rfl
      exact ⟨rfl, hoccurs.registers ht hrunning⟩
  · rintro earlier t later id source refreshNow rfl ht ⟨p, hp⟩
    obtain ⟨hearlier, hoccurs, -⟩ := h.split
    obtain ⟨s, hrunning, -⟩ := hoccurs.serving ht
    rw [h.take_sent] at hp
    have hid : id < s.plots.length := hearlier.length_plots rfl hrunning ▸ lt_of_mem_answers hp
    exact ⟨s, hrunning, hid, fun hnone => s.changeSource_ne_none _ hid source refreshNow _ _ hnone rfl⟩
  · rw [hdelivery.plotCount, hdelivery.commands_eq rfl, additions_append, ← Nat.add_assoc,
      h.length_plots rfl hrunning]
    rfl
  · have hclosed : x.updater.desk.mailbox.send c = (x.updater.desk.mailbox, .refused) :=
      Mailbox.send_of_closed (hsound.receiving.trans hgone) c
    unfold Updater.send
    rw [hclosed]
  · obtain ⟨rfl, hrefused⟩ := hmore.gone hsound hgone
    exact ⟨hgone, rfl, fun u hu => (hrefused u hu).2.2⟩

/-- A clock that stands still beside a client that dies at once. -/
def frailty : Surroundings Unit where
  answer _ _ := { reply := .death, next := () }
  now _ := (⟨0⟩, ())

/-- A second plot is registered, and pointed at a series, which is the end of the worker. -/
def mishap : List Deed :=
  [.post (.request (.addPlot Scheduler.barePlot)),
    .post (.request (.changeSource 1 (some ⟨[⟨"A", none, none⟩]⟩) true)), .look, .work, .look, .work,
    .post (.request (.addPlot Scheduler.barePlot))]

/-- The plot is number one, and after the end there is no number two. -/
theorem ids_agree_of_mishap : ∃ moves x,
    play (frailty.withMail fun _ _ => []) mishap (.spawn { plots := [Scheduler.barePlot] } ()) =
      some (moves, x) ∧
    sent moves = [⟨.addPlot Scheduler.barePlot, .added 1⟩,
      ⟨.changeSource 1 (some ⟨[⟨"A", none, none⟩]⟩) true, .accepted⟩] ∧
    x.updater.worker = .dead ∧ x.mailbox.plotCount = 2 ∧ ∀ c, x.updater.send c = (x.updater, .refused) := by
  obtain ⟨moves, x, hplay, hsent, hdead, hcount⟩ : ∃ moves x,
      play (frailty.withMail fun _ _ => []) mishap (.spawn { plots := [Scheduler.barePlot] } ()) =
        some (moves, x) ∧
      sent moves = [⟨.addPlot Scheduler.barePlot, .added 1⟩,
        ⟨.changeSource 1 (some ⟨[⟨"A", none, none⟩]⟩) true, .accepted⟩] ∧
      x.updater.worker = .dead ∧ x.mailbox.plotCount = 2 := ⟨_, _, rfl, rfl, rfl, rfl⟩
  obtain ⟨-, -, -, hgone⟩ := ids_agree (history_of_play hplay)
  refine ⟨moves, x, hplay, hsent, hdead, hcount, (hgone ?_).1⟩
  rw [Updater.alive, hdead]

end HistogramMonitor
