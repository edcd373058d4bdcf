import Mathlib.Data.List.Induction
import HistogramMonitor.Proofs.Updater.Moves

/-!
# Histories of an updater

A history is a row of moves, each going on from the scene that the one before has left. It can be put
together and cut anywhere, and it can be played: whoever says what is to be done gets the moves
(`history_of_play`). The turns and timeouts of an updater are short histories
(`history_of_turn`, `history_of_timeout`).

Over a whole history the mail is kept in order (`History.mail`): the messages that have arrived are those that
were served, in this order, and then those that are still to be dealt with.
-/

namespace HistogramMonitor

variable {β : Type}

/-! ## Histories -/

/-- The moves lead from one scene to another. -/
inductive History (w : Surroundings (Desk β)) (x : Scene β) : List (Move β) → Scene β → Prop
  | nil : History w x [] x
  | snoc {moves : List (Move β)} {t : Move β} :
      History w x moves t.before → t.Occurs w → History w x (moves ++ [t]) t.after

namespace History

variable {w : Surroundings (Desk β)} {x y z : Scene β} {t : Move β} {moves more : List (Move β)}

theorem append (h : History w x moves y) (h' : History w y more z) : History w x (moves ++ more) z := by
  induction h' with
  | nil => exact (List.append_nil moves).symm ▸ h
  | snoc _ ht ih => exact List.append_assoc moves _ _ ▸ .snoc ih ht

theorem single (ht : t.Occurs w) : History w t.before [t] t.after := .snoc .nil ht

theorem snoc_inv (h : History w x (moves ++ [t]) y) : History w x moves t.before ∧ t.Occurs w ∧ y = t.after := by
  generalize heq : moves ++ [t] = all at h
  cases h with
  | nil => exact absurd heq (List.append_ne_nil_of_right_ne_nil _ (List.cons_ne_nil t []))
  | snoc hmoves ht =>
    obtain ⟨rfl, hlast⟩ := List.append_inj' heq rfl
    cases hlast
    exact ⟨hmoves, ht, rfl⟩

/-- A history can be cut at any of its moves. -/
theorem split {earlier later : List (Move β)} (h : History w x (earlier ++ t :: later) y) :
    History w x earlier t.before ∧ t.Occurs w ∧ History w t.after later y := by
  induction later using List.reverseRecOn generalizing y with
  | nil =>
    obtain ⟨hearlier, ht, rfl⟩ := h.snoc_inv
    exact ⟨hearlier, ht, .nil⟩
  | append_singleton later v ih =>
    rw [← List.cons_append, ← List.append_assoc] at h
    obtain ⟨hinit, hv, rfl⟩ := h.snoc_inv
    obtain ⟨hearlier, ht, hlater⟩ := ih hinit
    exact ⟨hearlier, ht, .snoc hlater hv⟩

end History

/-! ## Playing -/

/-- Does one thing after the other, where this is possible. -/
def play (w : Surroundings (Desk β)) : List Deed → Scene β → Option (List (Move β) × Scene β)
  | [], x => some ([], x)
  | deed :: deeds, x => do
    let (events, y) ← deed.perform w x
    let (moves, z) ← play w deeds y
    return (⟨deed, x, events, y⟩ :: moves, z)

/-- What is played is a history. -/
theorem history_of_play {w : Surroundings (Desk β)} {deeds : List Deed} {moves : List (Move β)} {x y : Scene β}
    (h : play w deeds x = some (moves, y)) : History w x moves y := by
  induction deeds generalizing x moves with
  | nil =>
    cases h
    exact .nil
  | cons deed deeds ih =>
    obtain ⟨⟨events, z⟩, hdeed, hrest⟩ := Option.bind_eq_some_iff.mp h
    obtain ⟨⟨more, z'⟩, hmore, heq⟩ := Option.bind_eq_some_iff.mp hrest
    cases heq
    exact (History.single (t := ⟨deed, x, events, z⟩) hdeed).append (ih hmore)

/-- What is played is what was to be done. -/
theorem map_deed_of_play {w : Surroundings (Desk β)} {deeds : List Deed} {moves : List (Move β)} {x y : Scene β}
    (h : play w deeds x = some (moves, y)) : moves.map Move.deed = deeds := by
  induction deeds generalizing x moves with
  | nil =>
    cases h
    rfl
  | cons deed deeds ih =>
    obtain ⟨⟨events, z⟩, -, hrest⟩ := Option.bind_eq_some_iff.mp h
    obtain ⟨⟨more, z'⟩, hmore, heq⟩ := Option.bind_eq_some_iff.mp hrest
    cases heq
    exact congrArg (deed :: ·) (ih hmore)

/-! ## Turns and timeouts -/

/-- A worker can always do its errand. -/
theorem occurs_work (w : Surroundings (Desk β)) (errand : Errand) (s : Scheduler) (d : Desk β) :
    Move.Occurs w ⟨.work, ⟨⟨.running s, d⟩, some errand⟩, (Updater.after (errand.action w s d)).1,
      ⟨(Updater.after (errand.action w s d)).2, none⟩⟩ := rfl

/-- A turn is a look, and the errand, if there is one. -/
theorem history_of_turn {w : Surroundings (Desk β)} {u u' : Updater β} {es : List Event}
    (h : u.turn w = some (es, u')) : ∃ moves, History w ⟨u, none⟩ moves ⟨u', none⟩ ∧
      (∀ t ∈ moves, ∀ msg, t.deed ≠ .post msg) ∧ moves.flatMap (·.events) = es := by
  rw [turn_eq] at h
  obtain ⟨x, hlook, hturn⟩ := Option.map_eq_some_iff.mp h
  have hfirst : Move.Occurs w ⟨.look, ⟨u, none⟩, [], x⟩ := Option.map_eq_some_iff.mpr ⟨x, hlook, rfl⟩
  cases hfirst.kind with
  | takes | departs =>
    cases hturn
    exact ⟨[_, _], (History.single hfirst).append (.single (occurs_work w _ _ _)), by simp, List.append_nil _⟩
  | stops =>
    cases hturn
    exact ⟨[_], .single hfirst, by simp, rfl⟩

/-- A timeout is the end of the wait, and the errand. -/
theorem history_of_timeout {w : Surroundings (Desk β)} {u : Updater β} {x : Scene β}
    (h : Scene.expire ⟨u, none⟩ = some x) : ∃ moves, History w ⟨u, none⟩ moves ⟨(u.timeout w).2, none⟩ ∧
      (∀ t ∈ moves, ∀ msg, t.deed ≠ .post msg) ∧ moves.flatMap (·.events) = (u.timeout w).1 := by
  have hwoken := timeout_eq h (w := w)
  have hfirst : Move.Occurs w ⟨.expire, ⟨u, none⟩, [], x⟩ := Option.map_eq_some_iff.mpr ⟨x, h, rfl⟩
  cases hfirst.kind with
  | expires =>
    rw [Option.some.inj hwoken]
    exact ⟨[_, _], (History.single hfirst).append (.single (occurs_work w .wake _ _)), by simp, List.append_nil _⟩

/-! ## What has happened in a history -/

/-- The messages that have arrived. -/
def arrivals (moves : List (Move β)) : List Message := moves.flatMap Move.arrivals

/-- The errands that the worker has done. -/
def errands (moves : List (Move β)) : List Errand := moves.filterMap Move.errand?

/-- The commands that the worker has served. -/
def served (moves : List (Move β)) : List Command := (errands moves).filterMap Errand.command?

/-- What was sent and not refused. -/
def sent (moves : List (Move β)) : List Sending := (moves.flatMap Move.sendings).filter Sending.taken

section Append

variable (moves more : List (Move β))

@[simp] theorem arrivals_append : arrivals (moves ++ more) = arrivals moves ++ arrivals more :=
  List.flatMap_append

@[simp] theorem errands_append : errands (moves ++ more) = errands moves ++ errands more :=
  List.filterMap_append

@[simp] theorem served_append : served (moves ++ more) = served moves ++ served more := by
  rw [served, errands_append, List.filterMap_append]
  rfl

@[simp] theorem sent_append : sent (moves ++ more) = sent moves ++ sent more := by
  rw [sent, List.flatMap_append, List.filter_append]
  rfl

end Append

theorem arrivals_singleton (t : Move β) : arrivals [t] = t.arrivals := List.append_nil _

theorem errands_singleton (t : Move β) : errands [t] = t.errand?.toList := by
  unfold errands
  cases h : t.errand? <;> simp [h]

theorem served_singleton (t : Move β) : served [t] = (t.errand?.bind Errand.command?).toList := by
  rw [served, errands_singleton]
  cases t.errand? with
  | none => rfl
  | some errand => cases errand <;> rfl

theorem sent_singleton (t : Move β) : sent [t] = t.sendings.filter Sending.taken := by
  rw [sent, List.flatMap_singleton]

/-! ## The mail of a history -/

variable {w : Surroundings β} {meanwhile : β → Call → List Message} {x y : Scene β} {moves : List (Move β)}

/-- What a history does to the mail. -/
structure Delivery (x : Scene β) (moves : List (Move β)) (y : Scene β) : Prop where
  /-- nothing is lost, doubled or overtaken -/
  pending : x.pending ++ arrivals moves = (served moves).map .request ++ y.pending
  sent : sent moves = answers x.mailbox.plotCount (commands (arrivals moves))
  plotCount : y.mailbox.plotCount = x.mailbox.plotCount + additions (commands (arrivals moves))

/-- Where nothing was to be dealt with at first, all that has arrived was served or is still to be. -/
theorem Delivery.arrivals_eq (h : Delivery x moves y) (hx : x.pending = []) :
    arrivals moves = (served moves).map .request ++ y.pending := by
  rw [← h.pending, hx, List.nil_append]

theorem Delivery.commands_eq (h : Delivery x moves y) (hx : x.pending = []) :
    commands (arrivals moves) = served moves ++ commands y.pending := by
  rw [h.arrivals_eq hx, commands_append, commands_map_request]

theorem History.mail (hs : x.Sound) (h : History (w.withMail meanwhile) x moves y) :
    y.Sound ∧ Delivery x moves y := by
  induction h with
  | nil => exact ⟨hs, (List.append_nil _), rfl, rfl⟩
  | @snoc moves t _ ht ih =>
    obtain ⟨hsound, hdelivery⟩ := ih
    obtain ⟨hafter, hmail⟩ := ht.mail hsound
    refine ⟨hafter, ?_, ?_, ?_⟩
    · rw [arrivals_append, arrivals_singleton, served_append, served_singleton, ← List.append_assoc,
        hdelivery.pending, List.append_assoc, hmail.pending, List.map_append, List.append_assoc]
    · rw [sent_append, sent_singleton, arrivals_append, arrivals_singleton, commands_append, answers_append,
        hdelivery.sent, hmail.sent, hdelivery.plotCount]
    · rw [hmail.plotCount, hdelivery.plotCount, arrivals_append, arrivals_singleton, commands_append,
        additions_append, Nat.add_assoc]

/-! ## The beginning -/

/-- A scheduler has just been moved onto a thread of its own. -/
def Scene.spawn (s : Scheduler) (outside : β) : Scene β := ⟨.spawn s outside, none⟩

theorem sound_spawn (s : Scheduler) (outside : β) : (Scene.spawn s outside).Sound := ⟨rfl, nofun⟩

end HistogramMonitor
