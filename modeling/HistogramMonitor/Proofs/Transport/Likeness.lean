import HistogramMonitor.Proofs.Transport.Fetching

/-!
# Backends that answer alike

A backend need not remember anything: then what it answers is a function of the call, an error or some bytes
(`Surroundings.AnswersBy`). What else there is to the surroundings, their memory, their clock, what the client
logs and what is sent meanwhile, stays open.

`Alike f g x y` compares an action `x` beside the backend `f` with an action `y` beside the backend `g`. If
the two answer alike the calls that `x` makes, then both do the same and come to the same. Only calls that
are made count, and so likeness is kept by sequences: the second part of `x` is reached with the value that
`y` has come to as well. The client is alike beside any two backends (`retrieve_alike`).
-/

namespace HistogramMonitor

variable {σ τ α β : Type}

/-! ## Backends without a memory -/

/-- What each call comes to. -/
abbrev Backend := Call → Except RpcError Bytes

/-- What the client gets to see of it. -/
def Reply.ofExcept : Except RpcError Bytes → Reply
  | .ok b => .bytes b
  | .error e => .failure e

/-- Every call is answered as the backend says, whatever happens otherwise. -/
def Surroundings.AnswersBy (w : Surroundings σ) (f : Backend) : Prop :=
  ∀ m c, (w.answer m c).reply = .ofExcept (f c)

/-- No call brings the client down. -/
def Surroundings.Answers (w : Surroundings σ) : Prop := ∀ m c, (w.answer m c).reply ≠ .death

theorem Surroundings.AnswersBy.answers {w : Surroundings σ} {f : Backend} (hf : w.AnswersBy f) : w.Answers := by
  intro m c
  rw [hf m c]
  cases f c <;> exact nofun

/-- A call comes to what the backend says. -/
theorem Surroundings.AnswersBy.call_value {w : Surroundings σ} {f : Backend} (hf : w.AnswersBy f) (c : Call)
    (m : σ) : (Action.call w c m).value = some (f c) := by
  rw [Action.call_value, hf m c]
  cases f c <;> rfl

/-! ## What is done -/

/-- Something that is done for a plot: a call, a drawing, a wiping, or telling somebody about a refresh. -/
def Event.IsAct : Event → Bool
  | .call _ | .display .. | .clear _ | .updateStart _ | .updateComplete _ => true
  | _ => false

/-- The acts among events. -/
def acts (es : List Event) : List Event := es.filter Event.IsAct

@[simp] theorem acts_nil : acts [] = [] := rfl

@[simp] theorem acts_append (es fs : List Event) : acts (es ++ fs) = acts es ++ acts fs :=
  List.filter_append es fs

theorem acts_eq_nil {es : List Event} (h : ∀ e ∈ es, e.IsAct = false) : acts es = [] :=
  List.filter_eq_nil_iff.mpr fun e he => Bool.eq_false_iff.mp (h e he)

/-- The only act of a call is the call. -/
theorem acts_call (w : Surroundings σ) (c : Call) (m : σ) : acts (Action.call w c m).events = [.call c] := by
  have hrest : acts ((w.answer m c).lines.map .log ++ (w.answer m c).sendings.map .sent) = [] := by
    refine acts_eq_nil fun e he => ?_
    rcases List.mem_append.mp he with he | he
    all_goals
      obtain ⟨-, -, rfl⟩ := List.mem_map.mp he
      rfl
  rw [Action.call_events]
  exact congrArg (.call c :: ·) hrest

/-! ## Likeness -/

namespace Action

variable {f g : Backend}

/-- If the backends answer alike the calls that the first action makes, both do the same and come to the
same, whatever they start from. -/
def Alike (f g : Backend) (x : Action σ α) (y : Action τ α) : Prop :=
  ∀ m n, (∀ c ∈ calls (x m).events, f c = g c) →
    acts (x m).events = acts (y n).events ∧ (x m).value = (y n).value

theorem alike_pure (a : α) : Alike f g (pure a : Action σ α) (pure a : Action τ α) :=
  fun _ _ _ => ⟨rfl, rfl⟩

theorem alike_tell (es : List Event) : Alike f g (tell es : Action σ Unit) (tell es : Action τ Unit) :=
  fun _ _ _ => ⟨rfl, rfl⟩

theorem alike_diagnose (level : Level) (text : String) :
    Alike f g (diagnose level text : Action σ Unit) (diagnose level text : Action τ Unit) :=
  alike_tell _

theorem Alike.bind {x : Action σ α} {y : Action τ α} {k : α → Action σ β} {l : α → Action τ β}
    (hxy : Alike f g x y) (hkl : ∀ a, Alike f g (k a) (l a)) : Alike f g (x >>= k) (y >>= l) := by
  intro m n hcalls
  rw [calls_bind] at hcalls
  obtain ⟨hacts, hvalue⟩ := hxy m n fun c hc => hcalls c (List.mem_append_left _ hc)
  rw [bind_apply, bind_apply, ← hvalue]
  cases hx : (x m).value with
  | none => exact ⟨hacts, rfl⟩
  | some a =>
    -- both go on with the same value
    rw [hx] at hcalls
    obtain ⟨hmore, hlast⟩ := hkl a (x m).next (y n).next fun c hc => hcalls c (List.mem_append_right _ hc)
    refine ⟨?_, hlast⟩
    dsimp only
    rw [acts_append, acts_append, hacts, hmore]

theorem Alike.ite {c : Prop} [Decidable c] {x x' : Action σ α} {y y' : Action τ α} (h : Alike f g x y)
    (h' : Alike f g x' y') : Alike f g (if c then x else x') (if c then y else y') := by
  split
  · exact h
  · exact h'

/-- Something is told only under a condition before both actions go on. -/
theorem Alike.tell_if {c : Prop} [Decidable c] {es : List Event} {x : Action σ α} {y : Action τ α}
    (h : Alike f g x y) : Alike f g (if c then tell es >>= fun _ => x else x)
      (if c then tell es >>= fun _ => y else y) :=
  .ite (.bind (alike_tell es) fun _ => h) h

/-- A call that the backends answer alike comes to the same. -/
theorem alike_call {w : Surroundings σ} {v : Surroundings τ} (hf : w.AnswersBy f) (hg : v.AnswersBy g)
    (c : Call) : Alike f g (call w c) (call v c) := by
  intro m n hcalls
  have hsame : f c = g c := hcalls c (by rw [calls_call]; exact List.mem_cons_self)
  rw [acts_call, acts_call, hf.call_value, hg.call_value, hsame]
  exact ⟨rfl, rfl⟩

end Action

open HistogramMonitor.Action

/-! ## The client -/

namespace Client

variable {f g : Backend} {w : Surroundings σ} {v : Surroundings τ}

theorem check_alike (reply : Bytes) (command : String) (expected : UInt32) :
    Alike f g (check reply command expected : Action σ _) (check reply command expected : Action τ _) := by
  unfold check
  cases Envelope.parse reply with
  | error e => exact alike_pure _
  | ok envelope => exact .tell_if (alike_pure _)

theorem refetch_alike (hf : w.AnswersBy f) (hg : v.AnswersBy g) (c : Call) (declared : Nat)
    (expected : UInt32) : Alike f g (refetch w c declared expected) (refetch v c declared expected) := by
  refine .bind (alike_call hf hg _) fun answer => ?_
  cases answer with
  | error e => exact alike_pure _
  | ok reply =>
    refine .bind (check_alike reply _ expected) fun header => ?_
    cases header with
    | error e => exact alike_pure _
    | ok envelope => exact .tell_if (alike_pure _)

theorem fetch_alike (hf : w.AnswersBy f) (hg : v.AnswersBy g) (c : Call) (expected : UInt32) :
    Alike f g (fetch w c expected) (fetch v c expected) := by
  refine .bind (alike_call hf hg c) fun answer => ?_
  cases answer with
  | error e => exact alike_pure _
  | ok reply =>
    refine .bind (check_alike reply _ expected) fun header => ?_
    cases header with
    | error e => exact alike_pure _
    | ok envelope =>
      exact .ite (.bind (alike_diagnose _ _) fun _ => refetch_alike hf hg c _ expected) (alike_pure _)

/-- A retrieval is the same beside two backends that answer its calls alike. -/
theorem retrieve_alike (hf : w.AnswersBy f) (hg : v.AnswersBy g) (name : String) (runs : List UInt32)
    (program : String) : Alike f g (retrieve w name runs program) (retrieve v name runs program) := by
  refine .bind (fetch_alike hf hg _ _) fun answer => ?_
  cases answer <;> exact alike_pure _

theorem verdict_of_ne_death (read : Bytes → Except TransportError α) {r : Reply} (h : r ≠ .death) :
    ∃ judged, verdict read r = some judged := by
  cases r with
  | death => exact absurd rfl h
  | bytes b | failure e => exact ⟨_, rfl⟩

/-- Unless a call brings the client down, every retrieval comes to an end. -/
theorem retrieve_value (hw : w.Answers) (name : String) (runs : List UInt32) (program : String) (m : σ) :
    ∃ answer, (retrieve w name runs program m).value = some answer := by
  have hexchange := retrieve_exchanges w name runs program m
  dsimp only at hexchange
  split at hexchange
  · rw [hexchange.2]
    exact verdict_of_ne_death _ (hw _ _)
  · rw [hexchange.2]
    exact verdict_of_ne_death _ (hw _ _)

end Client

end HistogramMonitor
