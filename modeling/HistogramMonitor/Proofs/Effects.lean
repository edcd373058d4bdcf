import HistogramMonitor.Transport.Client

/-!
# What actions come to

Three tools for reasoning about actions.

* **Inversion.** An action that came to a value went through all of its parts: `bind_eq_some` gives the
  outcomes of the parts of a sequence, and with them how its events are divided between them. One that did not
  has ended in one of its parts (`bind_eq_none`).
* **Emission.** `Emits P x` says that whatever memory `x` starts from, all of its events satisfy `P`, also
  when it dies on the way. Emission is kept by sequences, so it is shown part by part; the client of the
  backend, for instance, emits nothing but traffic (`retrieve_emits`).
* **Results.** `Gives P x` says the same of the values that `x` can come to.
-/

namespace HistogramMonitor

variable {σ α β : Type}

namespace Action

/-! ## Inversion -/

/-- Inversion for `pure`. -/
theorem pure_eq_some {a b : α} {m m' : σ} {es : List Event}
    (h : (pure a : Action σ α) m = ⟨es, m', some b⟩) : es = [] ∧ m' = m ∧ b = a := by
  rw [pure_apply] at h
  cases h
  exact ⟨rfl, rfl, rfl⟩

/-- Inversion for sequences: both parts came to values, and the events are those of the first part
followed by those of the second. -/
theorem bind_eq_some {x : Action σ α} {f : α → Action σ β} {m m' : σ} {es : List Event} {b : β}
    (h : (x >>= f) m = ⟨es, m', some b⟩) :
    ∃ es₁ m₁ a es₂, x m = ⟨es₁, m₁, some a⟩ ∧ f a m₁ = ⟨es₂, m', some b⟩ ∧ es = es₁ ++ es₂ := by
  rw [bind_apply] at h
  rcases hx : x m with ⟨es₁, m₁, _ | a⟩ <;> rw [hx] at h
  · cases h
  · rcases hf : f a m₁ with ⟨es₂, m₂, v⟩
    simp only [hf] at h
    cases h
    exact ⟨es₁, m₁, a, es₂, rfl, hf, rfl⟩

/-- Inversion for sequences that did not come to a value: the first part did not, or it did and the second did
not. -/
theorem bind_eq_none {x : Action σ α} {f : α → Action σ β} {m m' : σ} {es : List Event}
    (h : (x >>= f) m = ⟨es, m', none⟩) :
    x m = ⟨es, m', none⟩ ∨ ∃ es₁ m₁ a es₂, x m = ⟨es₁, m₁, some a⟩ ∧ f a m₁ = ⟨es₂, m', none⟩ := by
  rw [bind_apply] at h
  rcases hx : x m with ⟨es₁, m₁, _ | a⟩ <;> rw [hx] at h
  · cases h
    exact Or.inl rfl
  · rcases hf : f a m₁ with ⟨es₂, m₂, v⟩
    simp only [hf] at h
    cases h
    exact Or.inr ⟨es₁, m₁, a, es₂, rfl, hf⟩

/-- Where the first part has come to a value, it was the second that did not. -/
theorem bind_eq_none_of_eq {x : Action σ α} {f : α → Action σ β} {m m₁ m' : σ} {es es₁ : List Event} {a : α}
    (hx : x m = ⟨es₁, m₁, some a⟩) (h : (x >>= f) m = ⟨es, m', none⟩) : ∃ es₂, f a m₁ = ⟨es₂, m', none⟩ := by
  rcases bind_eq_none h with hfirst | ⟨_, _, _, es₂, hfirst, hsecond⟩
  · cases hx.symm.trans hfirst
  · cases hx.symm.trans hfirst
    exact ⟨es₂, hsecond⟩

@[simp] theorem tell_apply (es : List Event) (m : σ) : tell es m = ⟨es, m, some ()⟩ := rfl

/-- Inversion for something that is told only under a condition before the action goes on. -/
theorem tell_if_eq_some {c : Prop} [Decidable c] {es fs : List Event} {x : Action σ α} {m m' : σ}
    {a : α} (h : (if c then tell es >>= fun _ => x else x) m = ⟨fs, m', some a⟩) :
    ∃ gs, x m = ⟨gs, m', some a⟩ ∧ fs = (if c then es else []) ++ gs := by
  by_cases hc : c
  · rw [if_pos hc] at h ⊢
    obtain ⟨es₁, m₁, u, gs, h₁, h₂, rfl⟩ := bind_eq_some h
    rw [tell_apply] at h₁
    cases h₁
    exact ⟨gs, h₂, rfl⟩
  · rw [if_neg hc] at h ⊢
    exact ⟨fs, h, rfl⟩

/-! ## Emission -/

/-- Whatever memory it starts from, all events of the action satisfy `P`. -/
def Emits (P : Event → Prop) (x : Action σ α) : Prop := ∀ m, ∀ e ∈ (x m).events, P e

variable {P Q : Event → Prop}

theorem Emits.mono {x : Action σ α} (hx : x.Emits P) (h : ∀ e, P e → Q e) : x.Emits Q :=
  fun m e he => h e (hx m e he)

theorem emits_pure (a : α) : (pure a : Action σ α).Emits P := by
  intro m e he
  rw [pure_apply] at he
  cases he

theorem emits_tell {e : Event} (h : P e) : (tell [e] : Action σ Unit).Emits P := by
  intro m e' he
  rw [tell_apply, List.mem_singleton] at he
  rw [he]
  exact h

theorem emits_diagnose {level : Level} {text : String} (h : P (.diagnostic level text)) :
    (diagnose level text : Action σ Unit).Emits P :=
  emits_tell h

theorem Emits.bind {x : Action σ α} {f : α → Action σ β} (hx : x.Emits P) (hf : ∀ a, (f a).Emits P) :
    (x >>= f).Emits P := by
  intro m e he
  rw [bind_apply] at he
  rcases hv : (x m).value with _ | a
  · rw [hv] at he
    exact hx m e he
  · rw [hv] at he
    rcases List.mem_append.mp he with he | he
    · exact hx m e he
    · exact hf a _ e he

theorem Emits.ite {c : Prop} [Decidable c] {x y : Action σ α} (hx : x.Emits P) (hy : y.Emits P) :
    (if c then x else y).Emits P := by
  split
  · exact hx
  · exact hy

/-- Something is told only under a condition before the action goes on. -/
theorem Emits.tell_if {c : Prop} [Decidable c] {e : Event} {x : Action σ α} (hx : x.Emits P)
    (h : P e) : (if c then tell [e] >>= fun _ => x else x).Emits P :=
  Emits.ite ((emits_tell h).bind fun _ => hx) hx

/-! ## Results -/

/-- Whatever memory it starts from, a value that the action comes to satisfies `P`. -/
def Gives (P : α → Prop) (x : Action σ α) : Prop := ∀ m a, (x m).value = some a → P a

variable {R : α → Prop} {S : β → Prop}

theorem gives_pure {a : α} (h : R a) : (pure a : Action σ α).Gives R := by
  intro m b hb
  rw [pure_apply] at hb
  cases hb
  exact h

theorem gives_die : (die : Action σ α).Gives R := by
  intro m b hb
  cases hb

theorem gives_any (x : Action σ α) : x.Gives fun _ => True := fun _ _ _ => trivial

theorem Gives.bind {x : Action σ α} {f : α → Action σ β} (hx : x.Gives R)
    (hf : ∀ a, R a → (f a).Gives S) : (x >>= f).Gives S := by
  intro m b hb
  obtain ⟨a, ha, hb⟩ := value_bind_eq_some.mp hb
  exact hf a (hx m a ha) _ b hb

theorem Gives.ite {c : Prop} [Decidable c] {x y : Action σ α} (hx : x.Gives R) (hy : y.Gives R) :
    (if c then x else y).Gives R := by
  split
  · exact hx
  · exact hy

/-- Something is told only under a condition before the action goes on. -/
theorem Gives.tell_if {c : Prop} [Decidable c] {es : List Event} {x : Action σ α} (hx : x.Gives R) :
    (if c then tell es >>= fun _ => x else x).Gives R :=
  Gives.ite ((gives_any _).bind fun _ _ => hx) hx

end Action

/-! ## Traffic -/

/-- What a call can bring about: the call itself, the commands that were sent while it was in flight, and
lines in the log. -/
def Event.IsTraffic : Event → Prop
  | .call _ | .sent _ | .log _ => True
  | _ => False

open HistogramMonitor.Action

theorem call_emits (w : Surroundings σ) (c : Call) : (call w c).Emits Event.IsTraffic := by
  intro m e he
  have hmem : e ∈ .call c :: (w.answer m c).lines.map .log ++ (w.answer m c).sendings.map .sent := by
    unfold call at he
    cases hr : (w.answer m c).reply <;> simpa only [hr] using he
  simp only [List.cons_append, List.mem_cons, List.mem_append, List.mem_map] at hmem
  rcases hmem with rfl | ⟨l, -, rfl⟩ | ⟨s, -, rfl⟩ <;> trivial

namespace Client

theorem check_emits (reply : Bytes) (command : String) (expected : UInt32) :
    (check reply command expected : Action σ _).Emits Event.IsTraffic := by
  unfold check
  cases Envelope.parse reply with
  | error e => exact emits_pure _
  | ok envelope => exact (emits_pure _).tell_if (by trivial)

theorem refetch_emits (w : Surroundings σ) (c : Call) (declared : Nat) (expected : UInt32) :
    (refetch w c declared expected).Emits Event.IsTraffic := by
  refine (call_emits w _).bind fun answer => ?_
  cases answer with
  | error e => exact emits_pure _
  | ok reply =>
    refine (check_emits reply _ expected).bind fun header => ?_
    cases header with
    | error e => exact emits_pure _
    | ok envelope =>
      exact (emits_pure _).tell_if (by trivial)

theorem fetch_emits (w : Surroundings σ) (c : Call) (expected : UInt32) :
    (fetch w c expected).Emits Event.IsTraffic := by
  refine (call_emits w _).bind fun answer => ?_
  cases answer with
  | error e => exact emits_pure _
  | ok reply =>
    refine (check_emits reply _ expected).bind fun header => ?_
    cases header with
    | error e => exact emits_pure _
    | ok envelope =>
      exact Emits.ite ((emits_diagnose (by trivial)).bind fun _ => refetch_emits w c _ expected)
        (emits_pure _)

/-- Retrieving a histogram shows nothing but traffic. -/
theorem retrieve_emits (w : Surroundings σ) (name : String) (runs : List UInt32) (program : String) :
    (retrieve w name runs program).Emits Event.IsTraffic := by
  refine (fetch_emits w _ _).bind fun answer => ?_
  cases answer with
  | error e => exact emits_pure _
  | ok reply => exact emits_pure _

end Client

end HistogramMonitor
