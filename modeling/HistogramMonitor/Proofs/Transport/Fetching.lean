import HistogramMonitor.Proofs.Transport.Calls

/-!
# What a fetch comes to

The client asks once, and a second time exactly if what it got has a header that declares more than has
arrived (`Reply.shortfall?`). What it returns depends on the last reply alone: `Client.usable` says of which
replies it makes use at all, and `fetch_eq` that a fetch returns those, in one call or two, whatever their type
and even if the second one is short again.

A retrieval and a listing are fetches whose payloads are read, and so the same holds of them
(`last_reply_decides`).
-/

namespace HistogramMonitor

variable {σ α β : Type}

/-! ## Headers -/

namespace Envelope

/-- The length of the whole message, as the first four bytes of a reply declare it. -/
def declaredIn (reply : Bytes) : Nat := Bytes.ofLittle (reply.take 4)

theorem declaredIn_lt (reply : Bytes) : declaredIn reply < 0x100000000 := by
  refine Nat.lt_of_lt_of_le (Bytes.ofLittle_lt (reply.take 4)) ?_
  exact Nat.pow_le_pow_right (by decide) (List.length_take_le 4 reply)

/-- A reply has a header exactly if it is long enough for one. -/
theorem parse_eq (reply : Bytes) : parse reply =
    if reply = [] then .error .empty
    else if reply.length < size then .error (.noEnvelope reply.length)
    else .ok ⟨UInt32.ofNat (declaredIn reply), UInt32.ofNat (Bytes.ofBig ((reply.drop 4).take 4))⟩ := by
  cases reply <;> rfl

theorem parse_of_size_le {reply : Bytes} (h : size ≤ reply.length) : parse reply =
    .ok ⟨UInt32.ofNat (declaredIn reply), UInt32.ofNat (Bytes.ofBig ((reply.drop 4).take 4))⟩ := by
  have hne : reply ≠ [] := List.ne_nil_of_length_pos (Nat.lt_of_lt_of_le (by decide) h)
  rw [parse_eq, if_neg hne, if_neg (Nat.not_lt_of_le h)]

end Envelope

/-! ## Replies -/

/-- The length to ask for again: what a reply declares, if it has a header and fewer bytes than that. -/
def Reply.shortfall? : Reply → Option Nat
  | .bytes b =>
    if Envelope.size ≤ b.length ∧ b.length < Envelope.declaredIn b then some (Envelope.declaredIn b)
    else none
  | _ => none

/-- A reply falls short if it has a header and is shorter than that says. -/
theorem Reply.shortfall?_bytes (b : Bytes) : (Reply.bytes b).shortfall? =
    match Envelope.parse b with
    | .ok envelope => if envelope.truncated b.length then some envelope.declared.toNat else none
    | .error _ => none := by
  by_cases hlen : Envelope.size ≤ b.length
  · have hdeclared : (UInt32.ofNat (Envelope.declaredIn b)).toNat = Envelope.declaredIn b :=
      UInt32.toNat_ofNat_of_lt' (Envelope.declaredIn_lt b)
    rw [Envelope.parse_of_size_le hlen]
    simp only [shortfall?, Envelope.truncated, hdeclared, hlen, true_and, decide_eq_true_eq]
  · have herror : ∃ e, Envelope.parse b = .error e := by
      rw [Envelope.parse_eq, if_pos (Nat.lt_of_not_le hlen)]
      split <;> exact ⟨_, rfl⟩
    obtain ⟨e, herror⟩ := herror
    rw [herror, shortfall?, if_neg fun h => hlen h.1]

namespace Client

/-- The reply as a whole, if it is of use: a call that failed, an empty reply and one without a header are
not. A client that died has no use for anything. -/
def usable : Reply → Option (Except TransportError Bytes)
  | .death => none
  | .failure e => some (.error (.rpc e))
  | .bytes b => some <|
    if b = [] then .error .empty
    else if b.length < Envelope.size then .error (.noEnvelope b.length)
    else .ok b

/-- What is read off the payload of a reply, if it is of use. -/
def verdict (read : Bytes → Except TransportError α) (r : Reply) : Option (Except TransportError α) :=
  (usable r).map fun used => used.bind fun b => read (b.drop Envelope.size)

theorem size_le_of_usable {r : Reply} {b : Bytes} (h : usable r = some (.ok b)) :
    r = .bytes b ∧ Envelope.size ≤ b.length := by
  cases r with
  | death => cases h
  | failure e => cases h
  | bytes b' =>
    simp only [usable, Option.some.injEq] at h
    split at h
    · cases h
    · split at h
      · cases h
      · rename_i hlen
        cases h
        exact ⟨rfl, Nat.le_of_not_lt hlen⟩

/-- A reply is of use if it has a header. -/
theorem usable_bytes (b : Bytes) : usable (.bytes b) = some ((Envelope.parse b).map fun _ => b) := by
  rw [usable, Envelope.parse_eq]
  split
  · rfl
  · split <;> rfl

theorem usable_of_size_le {b : Bytes} (h : Envelope.size ≤ b.length) : usable (.bytes b) = some (.ok b) := by
  have hne : b ≠ [] := List.ne_nil_of_length_pos (Nat.lt_of_lt_of_le (by decide) h)
  rw [usable, if_neg hne, if_neg (Nat.not_lt_of_le h)]

end Client

/-! ## Exchanges -/

namespace Action

/-- A sequence whose first part comes to a value goes on with it. -/
theorem bind_apply_of_eq {x : Action σ α} {f : α → Action σ β} {m m' : σ} {es : List Event} {a : α}
    (h : x m = ⟨es, m', some a⟩) :
    (x >>= f) m = ⟨es ++ (f a m').events, (f a m').next, (f a m').value⟩ := by
  rw [bind_apply, h]

theorem call_apply (w : Surroundings σ) (c : Call) {m : σ} {reply : Bytes}
    (h : (w.answer m c).reply = .bytes reply) :
    call w c m = ⟨(call w c m).events, (w.answer m c).next, some (.ok reply)⟩ := by
  unfold call
  simp only [h]

theorem call_value (w : Surroundings σ) (c : Call) (m : σ) : (call w c m).value =
    match (w.answer m c).reply with
    | .bytes b => some (.ok b)
    | .failure e => some (.error e)
    | .death => none := by
  unfold call
  cases hr : (w.answer m c).reply <;> simp only [hr]

end Action

namespace Client

open HistogramMonitor.Action

/-- The action makes a call, and comes to what is made of the reply. If the reply falls short of what it
declares, the action makes the call once more, with what was declared as its budget, and comes to what is made
of the second reply instead. -/
def Exchanges (w : Surroundings σ) (c : Call) (judge : Reply → Option α) (x : Action σ α) : Prop :=
  ∀ m, let first := w.answer m c
    match first.reply.shortfall? with
    | none => calls (x m).events = [c] ∧ (x m).value = judge first.reply
    | some declared =>
      let again := { c with hint := some declared }
      calls (x m).events = [c, again] ∧ (x m).value = judge (w.answer first.next again).reply

/-- What is done with the result afterwards needs no further call. -/
theorem Exchanges.map {w : Surroundings σ} {c : Call} {judge : Reply → Option α} {x : Action σ α}
    (h : Exchanges w c judge x) (f : α → β) :
    Exchanges w c (fun r => (judge r).map f) (x >>= fun a => pure (f a)) := by
  intro m
  have hcalls : calls ((x >>= fun a => pure (f a)) m).events = calls (x m).events :=
    calls_bind_of_emits m fun a => emits_pure (f a)
  have hvalue : ((x >>= fun a => pure (f a)) m).value = (x m).value.map f := by
    rw [bind_apply]
    cases (x m).value <;> rfl
  have hx := h m
  dsimp only at hx ⊢
  rw [hcalls, hvalue]
  split at hx
  · exact ⟨hx.1, congrArg _ hx.2⟩
  · exact ⟨hx.1, congrArg _ hx.2⟩

/-- A header is looked at without a call, and nothing but a warning comes of its type. -/
theorem check_apply (reply : Bytes) (command : String) (expected : UInt32) (m : σ) : ∃ quiet,
    calls quiet = [] ∧ check reply command expected m = ⟨quiet, m, some (Envelope.parse reply)⟩ := by
  refine ⟨_, calls_of_emits (check_silent reply command expected) m, ?_⟩
  unfold check
  cases Envelope.parse reply with
  | error e => rfl
  | ok envelope =>
    dsimp only
    split <;> rfl

theorem refetch_value (w : Surroundings σ) (c : Call) (declared : Nat) (expected : UInt32) (m : σ) :
    (refetch w c declared expected m).value = usable (w.answer m { c with hint := some declared }).reply := by
  unfold refetch
  cases hreply : (w.answer m { c with hint := some declared }).reply with
  | death | failure e =>
    rw [bind_apply, call_value, hreply]
    rfl
  | bytes reply =>
    obtain ⟨quiet, -, hcheck⟩ := check_apply reply c.command expected
      (w.answer m { c with hint := some declared }).next
    rw [bind_apply_of_eq (call_apply w _ hreply), usable_bytes]
    dsimp only
    rw [bind_apply_of_eq hcheck]
    cases Envelope.parse reply with
    | error e => rfl
    | ok envelope =>
      dsimp only
      split <;> rfl

/-- What a fetch does with a reply: it looks at the header, and asks again if the reply falls short. -/
theorem fetch_apply (w : Surroundings σ) (c : Call) (expected : UInt32) {m : σ} {reply : Bytes}
    (hreply : (w.answer m c).reply = .bytes reply) : ∃ quiet, calls quiet = [] ∧
    fetch w c expected m = match (Reply.bytes reply).shortfall? with
      | none => ⟨(call w c m).events ++ quiet, (w.answer m c).next, usable (.bytes reply)⟩
      | some declared =>
        let second := refetch w c declared expected (w.answer m c).next
        ⟨(call w c m).events ++ quiet ++ second.events, second.next, second.value⟩ := by
  obtain ⟨quiet, hquiet, hcheck⟩ := check_apply reply c.command expected (w.answer m c).next
  unfold fetch
  rw [bind_apply_of_eq (call_apply w c hreply), Reply.shortfall?_bytes, usable_bytes]
  dsimp only
  rw [bind_apply_of_eq hcheck]
  cases Envelope.parse reply with
  | error e =>
    refine ⟨quiet, hquiet, ?_⟩
    dsimp only
    rw [pure_apply, List.append_nil]
    rfl
  | ok envelope =>
    dsimp only
    by_cases hshort : envelope.truncated reply.length
    · -- the warning is no call
      have hwarn : ∀ text, diagnose (σ := σ) .warn text (w.answer m c).next =
          ⟨[.diagnostic .warn text], (w.answer m c).next, some ()⟩ := fun text => rfl
      rw [if_pos hshort, if_pos hshort, bind_apply_of_eq (hwarn _)]
      dsimp only
      rw [← List.append_assoc quiet, ← List.append_assoc (call w c m).events]
      refine ⟨_, ?_, rfl⟩
      rw [calls_append, hquiet]
      rfl
    · rw [if_neg hshort, if_neg hshort]
      refine ⟨quiet, hquiet, ?_⟩
      dsimp only
      rw [pure_apply, List.append_nil]
      rfl

/-- **A fetch** makes one call or two, and returns the last reply if it is of use. -/
theorem fetch_exchanges (w : Surroundings σ) (c : Call) (expected : UInt32) :
    Exchanges w c usable (fetch w c expected) := by
  intro m
  have hfirst := calls_call w c m
  dsimp only
  cases hreply : (w.answer m c).reply with
  | bytes reply =>
    obtain ⟨quiet, hquiet, hfetch⟩ := fetch_apply w c expected hreply
    rw [hfetch]
    cases (Reply.bytes reply).shortfall? with
    | none =>
      dsimp only
      exact ⟨by rw [calls_append, hfirst, hquiet]; rfl, rfl⟩
    | some declared =>
      dsimp only
      refine ⟨?_, refetch_value w c declared expected _⟩
      rw [calls_append, calls_append, hfirst, hquiet, calls_refetch]
      rfl
  | death | failure e =>
    refine ⟨?_, ?_⟩
    · unfold fetch
      rw [calls_bind, hfirst, call_value, hreply]
      rfl
    · unfold fetch
      rw [bind_apply, call_value, hreply]
      rfl

/-! ## Retrieving and listing -/

/-- The first call for a listing. -/
def listing (runs : List UInt32) (program : String) : Call :=
  ⟨program, listCommand, listArgs runs, some listBudget⟩

/-- The names in the payload of a listing. -/
def namesIn (payload : Bytes) : Except TransportError (List String) :=
  if payload.isEmpty then .ok []
  else match Utf8.decode payload with
    | .error f => .error (.listing f)
    | .ok text => .ok ((lines text).map String.ofList)

/-- The histogram in a payload. -/
def histogramIn (payload : Bytes) : Except TransportError Snapshot :=
  match Snapshot.decode payload with
  | .error e => .error (.decode e)
  | .ok h => .ok h

theorem namesOf_eq (reply : Bytes) : namesOf reply = namesIn (reply.drop Envelope.size) := rfl

theorem retrieve_eq (w : Surroundings σ) (name : String) (runs : List UInt32) (program : String) :
    retrieve w name runs program = fetch w (request name runs program) Envelope.histogramType >>=
      fun fetched => pure (fetched.bind fun b => histogramIn (b.drop Envelope.size)) := by
  refine congrArg (fetch w _ _ >>= ·) (funext fun fetched => ?_)
  cases fetched <;> rfl

theorem list_eq (w : Surroundings σ) (runs : List UInt32) (program : String) :
    list w runs program = fetch w (listing runs program) Envelope.listType >>=
      fun fetched => pure (fetched.bind fun b => namesIn (b.drop Envelope.size)) := by
  refine congrArg (fetch w _ _ >>= ·) (funext fun fetched => ?_)
  cases fetched with
  | error e => rfl
  | ok b => exact congrArg pure (namesOf_eq b)

theorem retrieve_exchanges (w : Surroundings σ) (name : String) (runs : List UInt32) (program : String) :
    Exchanges w (request name runs program) (verdict histogramIn) (retrieve w name runs program) :=
  retrieve_eq w name runs program ▸ (fetch_exchanges w _ _).map _

theorem list_exchanges (w : Surroundings σ) (runs : List UInt32) (program : String) :
    Exchanges w (listing runs program) (verdict namesIn) (list w runs program) :=
  list_eq w runs program ▸ (fetch_exchanges w _ _).map _

/-- **The last reply decides**, whatever the backend answers. A retrieval makes its call for the histogram, and
a listing its call for the names, and each makes it again, with what was declared as its budget, exactly if the
reply has a header that declares more than has arrived. There is never a third call. If the last call failed, if
its reply is empty, or if it is too short for a header, that is the error; of every other reply, whatever its
type and its length, what stands behind the header is read, and there always is a header to be left out. -/
theorem last_reply_decides (w : Surroundings σ) (runs : List UInt32) (program : String) :
    (∀ name, Exchanges w (request name runs program) (verdict histogramIn)
      (retrieve w name runs program)) ∧
    Exchanges w (listing runs program) (verdict namesIn) (list w runs program) ∧
    ∀ c expected, (fetch w c expected).Gives fun fetched =>
      ∀ b, fetched = .ok b → Envelope.size ≤ b.length := by
  refine ⟨fun name => retrieve_exchanges w name runs program, list_exchanges w runs program, ?_⟩
  rintro c expected m fetched hvalue b rfl
  have hfetch := fetch_exchanges w c expected m
  dsimp only at hfetch
  split at hfetch <;> exact (size_le_of_usable (hfetch.2.symm.trans hvalue)).2

/-- A backend that declares four bytes more than it sends, and the second time has something else to say. -/
def stammer : Surroundings Nat where
  answer n _ :=
    { reply := .bytes ([12, 0, 0, 0] ++ if n = 0 then [0x6C, 0x69, 0x73, 0x74] else [0x68, 0x69, 0x73, 0x74])
      next := n + 1 }
  now n := (⟨n⟩, n)

/-- There is a second call and no third, and the second reply counts as a listing of nothing. -/
theorem stammer_exchange :
    calls (list stammer [0] "ana" 0).events = [listing [0] "ana", { listing [0] "ana" with hint := some 12 }] ∧
    (list stammer [0] "ana" 0).value = some (.ok []) :=
  (last_reply_decides stammer [0] "ana").2.1 0

end Client

end HistogramMonitor
