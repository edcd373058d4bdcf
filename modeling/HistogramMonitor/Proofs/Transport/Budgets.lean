import HistogramMonitor.Proofs.Transport.Fetching

/-!
# Budgets

A message with its header in front declares its own length, and does so in the first four bytes, which every
budget of eight bytes or more lets through. So the client learns from a message that was cut how long it is as
a whole, and the second call, with just that budget, brings it. What a budget changes is the number of calls,
and nothing else (`budgets_do_not_matter`).
-/

namespace HistogramMonitor

variable {σ α : Type}

/-! ## Messages -/

namespace Envelope

@[simp] theorem length_header (messageType : UInt32) (declared : Nat) :
    (header messageType declared).length = size := by
  simp [header, Bytes.big, size]

theorem length_wrap (messageType : UInt32) (payload : Bytes) :
    (wrap messageType payload).length = size + payload.length := by
  rw [wrap, List.length_append, length_header]

theorem size_le_wrap (messageType : UInt32) (payload : Bytes) :
    size ≤ (wrap messageType payload).length :=
  length_wrap messageType payload ▸ Nat.le_add_right _ _

theorem drop_wrap (messageType : UInt32) (payload : Bytes) :
    (wrap messageType payload).drop size = payload :=
  List.drop_left' (length_header messageType _)

/-- The header counts itself, as far as four bytes count. -/
theorem declaredIn_wrap (messageType : UInt32) (payload : Bytes) :
    declaredIn (wrap messageType payload) = (wrap messageType payload).length % 0x100000000 := by
  have hfield : (wrap messageType payload).take 4 = Bytes.little 4 (size + payload.length) := by
    rw [wrap, header, List.append_assoc]
    exact List.take_left' (Bytes.length_little _ _)
  rw [declaredIn, hfield, length_wrap]
  exact Bytes.ofLittle_little _ _

/-- The length is declared in the part that every budget leaves. -/
theorem declaredIn_take {n : Nat} (h : size ≤ n) (message : Bytes) :
    declaredIn (message.take n) = declaredIn message := by
  rw [declaredIn, List.take_take, Nat.min_eq_left (Nat.le_trans (by decide) h)]
  rfl

end Envelope

/-- What of a message goes through within the budget of a call. -/
def Call.cut (c : Call) (message : Bytes) : Bytes :=
  match c.hint with
  | none => message
  | some n => message.take n

/-- A message of which the header and no more than `n` bytes have arrived falls short exactly if it declares more
than those, and then what it declares is known. -/
theorem Reply.shortfall?_take (messageType : UInt32) (payload : Bytes) {n : Nat} (hn : Envelope.size ≤ n) :
    (Reply.bytes ((Envelope.wrap messageType payload).take n)).shortfall? =
      if n < (Envelope.wrap messageType payload).length % 0x100000000
      then some ((Envelope.wrap messageType payload).length % 0x100000000) else none := by
  have hsize := Envelope.size_le_wrap messageType payload
  rw [shortfall?, Envelope.declaredIn_take hn, Envelope.declaredIn_wrap, List.length_take]
  generalize (Envelope.wrap messageType payload).length = length at hsize ⊢
  -- no message declares more than it has
  have hmod : length % 0x100000000 ≤ length := Nat.mod_le _ _
  have hshort : Envelope.size ≤ min n length ∧ min n length < length % 0x100000000 ↔ n < length % 0x100000000 := by
    omega
  simp only [hshort]

namespace Client

open HistogramMonitor.Action

/-- The calls that it takes to get a message of some length, beginning with a given one. -/
def callsFor (c : Call) (budget length : Nat) : List Call :=
  if length ≤ budget then [c] else [c, { c with hint := some length }]

/-- Where the first call is answered with a message up to the budget, and the second with the whole of it, the
whole of it is what counts. -/
theorem Exchanges.of_message {w : Surroundings σ} {c : Call} {judge : Reply → Option α} {x : Action σ α}
    (h : Exchanges w c judge x) {messageType : UInt32} {payload : Bytes}
    (hlt : (Envelope.wrap messageType payload).length < 0x100000000) {budget : Nat}
    (hbudget : Envelope.size ≤ budget) {m : σ}
    (hfirst : (w.answer m c).reply = .bytes ((Envelope.wrap messageType payload).take budget))
    (hagain :
      (w.answer (w.answer m c).next { c with hint := some (Envelope.wrap messageType payload).length }).reply =
        .bytes (Envelope.wrap messageType payload)) :
    calls (x m).events = callsFor c budget (Envelope.wrap messageType payload).length ∧
      (x m).value = judge (.bytes (Envelope.wrap messageType payload)) := by
  have hx := h m
  dsimp only at hx
  rw [hfirst, Reply.shortfall?_take messageType payload hbudget, Nat.mod_eq_of_lt hlt] at hx
  rw [callsFor]
  by_cases hfits : (Envelope.wrap messageType payload).length ≤ budget
  · rw [if_neg (Nat.not_lt.mpr hfits)] at hx
    rw [if_pos hfits]
    rwa [List.take_of_length_le hfits] at hx
  · rw [if_pos (Nat.lt_of_not_le hfits)] at hx
    rw [if_neg hfits]
    dsimp only at hx
    rwa [hagain] at hx

/-- A whole message is of use, and its payload is what is read. -/
theorem verdict_wrap (read : Bytes → Except TransportError α) (messageType : UInt32) (payload : Bytes) :
    verdict read (.bytes (Envelope.wrap messageType payload)) = some (read payload) := by
  rw [verdict, usable_of_size_le (Envelope.size_le_wrap messageType payload)]
  exact congrArg (fun b => some (read b)) (Envelope.drop_wrap messageType payload)

/-! ## Backends with a message -/

/-- The backend answers every call with the same message, up to the budget. -/
def Serves (w : Surroundings σ) (message : Bytes) : Prop :=
  ∀ m c, (w.answer m c).reply = .bytes (c.cut message)

theorem Serves.exchange {w : Surroundings σ} {messageType : UInt32} {payload : Bytes}
    (hw : Serves w (Envelope.wrap messageType payload))
    (hlt : (Envelope.wrap messageType payload).length < 0x100000000) {c : Call} {judge : Reply → Option α}
    {x : Action σ α} (h : Exchanges w c judge x) {budget : Nat} (hc : c.hint = some budget)
    (hbudget : Envelope.size ≤ budget) (m : σ) :
    calls (x m).events = callsFor c budget (Envelope.wrap messageType payload).length ∧
      (x m).value = judge (.bytes (Envelope.wrap messageType payload)) := by
  refine h.of_message hlt hbudget ?_ ?_
  · rw [hw, Call.cut, hc]
  · rw [hw, Call.cut]
    exact congrArg Reply.bytes (List.take_of_length_le (Nat.le_refl _))

/-- **Budgets do not matter.** Let a backend answer every call with the same message, up to the budget of the
call. A fetch returns the message whole, whatever budget of eight bytes or more it begins with, after one call
if the message is within the budget, and after two if not. A retrieval and a listing come to what they would
read from the whole payload. -/
theorem budgets_do_not_matter (w : Surroundings σ) (messageType : UInt32) (payload : Bytes)
    (hlt : (Envelope.wrap messageType payload).length < 0x100000000)
    (hw : Serves w (Envelope.wrap messageType payload)) (m : σ) :
    (∀ c budget expected, c.hint = some budget → Envelope.size ≤ budget →
      (fetch w c expected m).value = some (.ok (Envelope.wrap messageType payload)) ∧
      calls (fetch w c expected m).events = callsFor c budget (Envelope.wrap messageType payload).length) ∧
    (∀ name runs program, (retrieve w name runs program m).value = some (histogramIn payload)) ∧
    ∀ runs program, (list w runs program m).value = some (namesIn payload) := by
  refine ⟨?_, ?_, ?_⟩
  · intro c budget expected hc hbudget
    obtain ⟨hcalls, hvalue⟩ := hw.exchange hlt (fetch_exchanges w c expected) hc hbudget m
    rw [usable_of_size_le (Envelope.size_le_wrap messageType payload)] at hvalue
    exact ⟨hvalue, hcalls⟩
  · intro name runs program
    rw [← verdict_wrap histogramIn messageType payload]
    exact (hw.exchange hlt (retrieve_exchanges w name runs program) rfl (by decide) m).2
  · intro runs program
    rw [← verdict_wrap namesIn messageType payload]
    exact (hw.exchange hlt (list_exchanges w runs program) rfl (by decide) m).2

/-- A backend with a listing of one name, in eleven bytes. -/
def leaflet : Surroundings Unit where
  answer _ c :=
    { reply := .bytes (c.cut (Envelope.wrap Envelope.listType [0x61, 0x2F, 0x62])), next := () }
  now _ := (⟨0⟩, ())

/-- The least budget lets through the header alone, and the next one the whole. -/
theorem leaflet_in_two_calls :
    (Envelope.wrap Envelope.listType [0x61, 0x2F, 0x62]).length < 0x100000000 ∧
    (fetch leaflet ⟨"ana", "dqm::list", "", some 8⟩ Envelope.listType ()).value =
      some (.ok (Envelope.wrap Envelope.listType [0x61, 0x2F, 0x62])) ∧
    calls (fetch leaflet ⟨"ana", "dqm::list", "", some 8⟩ Envelope.listType ()).events =
      [⟨"ana", "dqm::list", "", some 8⟩, ⟨"ana", "dqm::list", "", some 11⟩] :=
  ⟨by decide, (budgets_do_not_matter leaflet Envelope.listType _ (by decide) (fun _ _ => rfl) ()).1
    ⟨"ana", "dqm::list", "", some 8⟩ 8 Envelope.listType rfl (by decide)⟩

end Client

end HistogramMonitor
