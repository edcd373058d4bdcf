import HistogramMonitor.Proofs.CommandLine.Watching

/-!
# Sessions are watches

A session takes one turn of the worker after the other, or lets the clock go on to the next deadline, and reads
every status at once. Each of these is a row of steps of a watch (`Session.watched_turn`, `Session.watched_wake`), and
so is a whole session, up to its end (`Session.watched_run`). Among its lines are those that are said in the watch, and
it has seen enough exactly if the observer of the watch has.
-/

namespace HistogramMonitor.CommandLine

variable {β : Type} {w : Surroundings β} {store : ReplyStore}

/-! ## Reading -/

section Reading

variable {x : Watch β} {moves : List (Move β)} {said : List LogLine}

/-- Who has seen enough does not come back. -/
theorem linesOfAll_none (screen : Screen) (es : List Event) : (linesOfAll screen none es).2 = none := by
  induction es with
  | nil => rfl
  | cons e es ih => cases e <;> exact ih

/-- Who reads all statuses at once says what the events say about the cycles, until it has seen enough. -/
theorem Watched.read_all (screen : Screen) (es : List Event) {z : Scene β} {o : Option Observer}
    (h : Watched w x moves said ⟨z, statuses es, o⟩) : ∃ heard rest,
      Watched w x moves (said ++ heard) ⟨z, rest, (linesOfAll screen o es).2⟩ ∧
      heard.Sublist (linesOfAll screen o es).1 ∧ ((linesOfAll screen o es).2 ≠ none → rest = []) := by
  induction es generalizing said o with
  | nil => exact ⟨[], [], (List.append_nil said).symm ▸ h, .slnil, fun _ => rfl⟩
  | cons e es ih =>
    cases o with
    | none =>
      rw [linesOfAll_none]
      exact ⟨[], _, (List.append_nil said).symm ▸ h, List.nil_sublist _, fun hsome => absurd rfl hsome⟩
    | some o =>
      cases e with
      | status status =>
        obtain ⟨heard, rest, hwatched, hheard, hrest⟩ := ih (h.read rfl rfl)
        rw [List.append_assoc] at hwatched
        exact ⟨_, rest, hwatched, hheard.append_left _, hrest⟩
      | _ =>
        obtain ⟨heard, rest, hwatched, hheard, hrest⟩ := ih h
        exact ⟨heard, rest, hwatched, hheard.trans (List.sublist_append_right _ _), hrest⟩

end Reading

/-! ## One turn -/

/-- A session beside these recorded replies, seen as a watch: whoever still reads has read everything. -/
structure Session.Matches (store : ReplyStore) (s : Session) (y : Watch Site) : Prop where
  store : s.store = store
  scene : y.scene = ⟨s.updater, none⟩
  observer : y.observer = s.observer
  unread : s.observer ≠ none → y.unread = []

namespace Session

variable {s s' : Session} {x y : Watch Site} {moves : List (Move Site)} {said lines : List LogLine}

/-- They begin alike. -/
theorem matches_start (c : Config) (limit : Nat) (site : Site) :
    (Session.start c limit site).Matches ⟨c.replies⟩ (.start c limit site) := ⟨rfl, rfl, rfl, fun _ => rfl⟩

theorem Matches.movedTo (hs : s.Matches store y) (site : Site) : (s.movedTo site).Matches store (y.movedTo site) where
  store := hs.store
  scene := congrArg (Scene.movedTo site) hs.scene
  observer := hs.observer
  unread := hs.unread

/-- What the worker goes through without being sent anything, and the statuses of it. -/
theorem watched_after {more : List (Move Site)} {u : Updater Site} (hs : s.Matches store y)
    (h : Watched store.surroundings x moves said y) (hmore : History s.surroundings ⟨s.updater, none⟩ more ⟨u, none⟩)
    (hquiet : ∀ t ∈ more, ∀ msg, t.deed ≠ .post msg) : ∃ heard z,
      Watched store.surroundings x (moves ++ more) (said ++ heard) z ∧
      (s.after (more.flatMap (·.events), u)).2.Matches store z ∧
      heard.Sublist (s.after (more.flatMap (·.events), u)).1 := by
  obtain ⟨scene, unread, observer⟩ := y
  obtain ⟨rfl, rfl, rfl, hunread⟩ := hs
  have hthere := h.append hmore hquiet
  by_cases hnone : s.observer = none
  · have hstill : (linesOfAll s.screen s.observer (more.flatMap (·.events))).2 = none :=
      hnone ▸ linesOfAll_none s.screen _
    refine ⟨[], _, (List.append_nil said).symm ▸ hthere, ⟨rfl, rfl, hnone.trans hstill.symm, ?_⟩, List.nil_sublist _⟩
    exact fun hsome => absurd hstill hsome
  · obtain rfl : unread = [] := hunread hnone
    obtain ⟨heard, rest, hwatched, hheard, hrest⟩ := Watched.read_all s.screen (more.flatMap (·.events)) hthere
    exact ⟨heard, _, hwatched, ⟨rfl, rfl, rfl, hrest⟩, hheard⟩

/-- **A turn of a session** is a row of steps of a watch, and says at least what is said there. -/
theorem watched_turn (hs : s.Matches store y) (h : Watched store.surroundings x moves said y)
    (hturn : s.turn? = some (lines, s')) : ∃ more heard z,
      Watched store.surroundings x (moves ++ more) (said ++ heard) z ∧ s'.Matches store z ∧ heard.Sublist lines := by
  obtain ⟨⟨es, u⟩, hmoved, hafter⟩ := Option.map_eq_some_iff.mp hturn
  obtain ⟨more, hmore, hquiet, rfl⟩ := history_of_turn hmoved
  have hwatched := watched_after hs h hmore hquiet
  rw [hafter] at hwatched
  exact ⟨more, hwatched⟩

/-- Where there is no turn to take and a timer runs, the wait can end, whenever and wherever this is. -/
theorem watched_wake (hs : s.Matches store y) (h : Watched store.surroundings x moves said y)
    (hwaits : s.turn? = none) (hdeadline : s.updater.deadline?.isSome) (site : Site) : ∃ more heard z,
      Watched store.surroundings x (moves ++ more) (said ++ heard) z ∧ (s.movedTo site).wake.2.Matches store z ∧
      heard.Sublist (s.movedTo site).wake.1 := by
  have hmoved := hs.movedTo site
  obtain ⟨own, screen, observer, ⟨worker, d⟩⟩ := s
  cases worker with
  | stopped | dead => cases hdeadline
  | running scheduler =>
    obtain ⟨hqueue, hidle⟩ := turn_eq_none_iff.mp (Option.map_eq_none_iff.mp hwaits)
    have hexpire : Scene.expire ⟨⟨.running scheduler, { d with outside := site }⟩, none⟩ = some _ :=
      if_pos ⟨hqueue, hidle, hdeadline⟩
    obtain ⟨more, hmore, hquiet, hevents⟩ := history_of_timeout (w := own.surroundings.withMail fun _ _ => []) hexpire
    have hwatched := watched_after hmoved (h.pass site) hmore hquiet
    rw [hevents] at hwatched
    exact ⟨more, hwatched⟩

/-! ## Whole sessions -/

/-- An updater that has no turn to take has nothing to report when it is dropped. -/
theorem run_drop_of_waiting {w : Surroundings (Desk β)} {u : Updater β} (h : u.turn w = none) (turns : Nat) :
    (u.drop.run w turns).1 = [] := by
  obtain ⟨worker, ⟨queue, plotCount, receiving⟩, outside⟩ := u
  cases turns with
  | zero => rfl
  | succ turns =>
    cases worker with
    | stopped | dead => rfl
    | running s =>
      obtain ⟨rfl, hidle⟩ := turn_eq_none_iff.mp h
      cases receiving with
      | true => cases turns <;> rfl
      | false =>
        have hstill := turn_eq_none_iff (w := w) (d := ⟨⟨[], plotCount, false⟩, outside⟩) |>.mpr ⟨rfl, hidle⟩
        unfold Updater.run
        rw [Updater.drop, Mailbox.post, if_neg Bool.false_ne_true, hstill]

/-- With the end of a session nothing more is said about the cycles. -/
theorem finish_observer (h : s.observer = none ∨ s.turn? = none) (turns : Nat) :
    (s.finish turns).2.observer = s.observer := by
  rcases h with hnone | hwaits
  · rw [hnone]
    change (linesOfAll s.screen s.observer _).2 = none
    rw [hnone]
    exact linesOfAll_none s.screen _
  · have hquiet := run_drop_of_waiting (Option.map_eq_none_iff.mp hwaits) turns
    have hjoined : ∀ u : Updater Site, (linesOfAll s.screen s.observer u.joined).2 = s.observer := by
      intro u
      unfold Updater.joined
      split <;> rfl
    unfold finish
    dsimp only [after]
    rw [hquiet, List.nil_append]
    exact hjoined _

theorem watched_run_of_matches (turns : Nat) (hs : s.Matches store y) (h : Watched store.surroundings x moves said y) :
    ∃ more heard z, Watched store.surroundings x (moves ++ more) (said ++ heard) z ∧
      z.observer = (s.run turns).2.observer ∧ heard.Sublist (s.run turns).1 := by
  induction turns generalizing s y moves said with
  | zero => exact ⟨[], [], y, by simpa using h, hs.observer, List.nil_sublist _⟩
  | succ turns ih =>
    have hend : s.observer = none ∨ s.turn? = none → ∃ more heard z,
        Watched store.surroundings x (moves ++ more) (said ++ heard) z ∧
        z.observer = (s.finish (turns + 1)).2.observer ∧ heard.Sublist (s.finish (turns + 1)).1 := fun hquiet =>
      ⟨[], [], y, by simpa using h, hs.observer.trans (finish_observer hquiet _).symm, List.nil_sublist _⟩
    have hgoes : ∀ {lines : List LogLine} {s' : Session}, (∃ more heard z,
          Watched store.surroundings x (moves ++ more) (said ++ heard) z ∧ s'.Matches store z ∧
          heard.Sublist lines) →
        ∃ more heard z, Watched store.surroundings x (moves ++ more) (said ++ heard) z ∧
          z.observer = (s'.run turns).2.observer ∧ heard.Sublist (lines ++ (s'.run turns).1) := by
      rintro lines s' ⟨more, heard, z, hz, hmatches, hheard⟩
      obtain ⟨more', heard', z', hz', hobserver, hheard'⟩ := ih hmatches hz
      rw [List.append_assoc, List.append_assoc] at hz'
      exact ⟨_, _, z', hz', hobserver, hheard.append hheard'⟩
    unfold run
    cases hobserver : s.observer with
    | none => exact hend (Or.inl hobserver)
    | some o =>
      cases hturn : s.turn? with
      | some moved => exact hgoes (watched_turn hs h hturn)
      | none =>
        cases hdeadline : s.updater.deadline? with
        | none => exact hend (Or.inr hturn)
        | some t => exact hgoes (watched_wake hs h hturn (Option.isSome_iff_exists.mpr ⟨t, hdeadline⟩) _)

/-- **What a whole session says about the cycles** is what is said in a watch. -/
theorem watched_run (c : Config) (limit : Nat) (site : Site) (turns : Nat) : ∃ moves said z,
    Watched (ReplyStore.surroundings ⟨c.replies⟩) (.start c limit site) moves said z ∧
      z.observer = ((Session.start c limit site).run turns).2.observer ∧
      said.Sublist ((Session.start c limit site).run turns).1 :=
  watched_run_of_matches turns (matches_start c limit site) .begin

end Session

end HistogramMonitor.CommandLine
