import HistogramMonitor.Proofs.Transport.Budgets

/-!
# What a message says of itself

A payload that was wrapped is told apart again: its type and its bytes are what they were, and any part of the
message that has a header has the same one (`parse_take_wrap`). The length that it declares is another matter. The
field has four bytes, and what does not fit is dropped without a word. So a message declares its length, and shows
that it was cut, exactly if it has fewer than 2³² bytes (`faithful_iff`); a longer one declares what is left of its
length modulo 2³², and there are cuts that do not show.
-/

namespace HistogramMonitor.Envelope

variable {messageType : UInt32} {payload : Bytes} {n : Nat}

/-! ## The header of a message -/

/-- The header that a message begins with. -/
def ofMessage (messageType : UInt32) (payload : Bytes) : Envelope :=
  ⟨UInt32.ofNat (wrap messageType payload).length, messageType⟩

@[simp] theorem declared_ofMessage : (ofMessage messageType payload).declared.toNat =
    (wrap messageType payload).length % 0x100000000 :=
  UInt32.toNat_ofNat'

theorem truncated_iff {envelope : Envelope} : envelope.truncated n = true ↔ n < envelope.declared.toNat :=
  decide_eq_true_iff

theorem typeIn_wrap (messageType : UInt32) (payload : Bytes) :
    Bytes.ofBig (((wrap messageType payload).drop 4).take 4) = messageType.toNat := by
  have hfield : ((wrap messageType payload).drop 4).take 4 = Bytes.big 4 messageType.toNat := by
    rw [wrap, header, List.append_assoc, List.drop_left' (Bytes.length_little _ _)]
    exact List.take_left' (by simp [Bytes.big])
  rw [hfield, Bytes.ofBig, Bytes.big, List.reverse_reverse]
  exact Bytes.ofLittle_little_of_lt messageType.toNat_lt

theorem parse_wrap (messageType : UInt32) (payload : Bytes) :
    parse (wrap messageType payload) = .ok (ofMessage messageType payload) := by
  have hdeclared : UInt32.ofNat ((wrap messageType payload).length % 0x100000000) =
      (ofMessage messageType payload).declared := by
    apply UInt32.toNat_inj.mp
    simp
  rw [parse_of_size_le (size_le_wrap messageType payload), typeIn_wrap, declaredIn_wrap, hdeclared,
    UInt32.ofNat_toNat]
  rfl

/-- Nothing behind the header matters for it. -/
theorem parse_take {reply : Bytes} (hn : size ≤ n) : parse (reply.take n) = parse reply := by
  by_cases hlen : size ≤ reply.length
  · have hcut : size ≤ (reply.take n).length := by
      rw [List.length_take]
      exact Nat.le_min.mpr ⟨hn, hlen⟩
    have htype : ((reply.take n).drop 4).take 4 = (reply.drop 4).take 4 := by
      rw [List.drop_take, List.take_take, Nat.min_eq_left (Nat.le_sub_of_add_le hn)]
    rw [parse_of_size_le hcut, parse_of_size_le hlen, declaredIn_take hn, htype]
  · rw [List.take_of_length_le (by omega)]

/-- Any part of a message has its header, unless it is too short for one. -/
theorem parse_take_wrap (hn : n ≤ (wrap messageType payload).length) :
    parse ((wrap messageType payload).take n) =
      if n = 0 then .error .empty
      else if n < size then .error (.noEnvelope n)
      else .ok (ofMessage messageType payload) := by
  by_cases hsize : size ≤ n
  · have hpos : n ≠ 0 := Nat.ne_of_gt (Nat.lt_of_lt_of_le (by decide) hsize)
    rw [parse_take hsize, parse_wrap, if_neg hpos, if_neg (Nat.not_lt_of_le hsize)]
  · have hlen : ((wrap messageType payload).take n).length = n := List.length_take_of_le hn
    have hnil : (wrap messageType payload).take n = [] ↔ n = 0 := by
      rw [← List.length_eq_zero_iff, hlen]
    simp only [parse_eq, hlen, hnil, if_pos (Nat.lt_of_not_le hsize)]

/-! ## Messages that are what they say -/

/-- Where only the first `n` bytes of a message have arrived, the reader sees that this is not all of it: they have no
header, or one that declares more. -/
def CutShows (messageType : UInt32) (payload : Bytes) (n : Nat) : Prop :=
  ∀ envelope, parse ((wrap messageType payload).take n) = .ok envelope → envelope.truncated n = true

/-- A message is read as what was written: it has a header of that type, which declares the length that it has, the
payload is behind it, and no cut goes unnoticed. -/
structure Faithful (messageType : UInt32) (payload : Bytes) : Prop where
  header : ∃ envelope, parse (wrap messageType payload) = .ok envelope ∧
    envelope.messageType = messageType ∧ envelope.declared.toNat = 8 + payload.length ∧
    ∀ n, envelope.truncated n = true ↔ n < (wrap messageType payload).length
  content : (wrap messageType payload).drop 8 = payload
  cuts : ∀ n < (wrap messageType payload).length, CutShows messageType payload n

/-- A cut shows if it is within the header, or short of what is declared. -/
theorem cutShows_iff (hn : n ≤ (wrap messageType payload).length) : CutShows messageType payload n ↔
    n < size ∨ n < (wrap messageType payload).length % 0x100000000 := by
  by_cases hsize : n < size
  · refine iff_of_true (fun envelope hparse => ?_) (.inl hsize)
    rw [parse_take_wrap hn, if_pos hsize] at hparse
    split at hparse <;> cases hparse
  · have hparse : parse ((wrap messageType payload).take n) = .ok (ofMessage messageType payload) :=
      (parse_take (Nat.le_of_not_lt hsize)).trans (parse_wrap messageType payload)
    rw [CutShows, hparse, or_iff_right hsize, ← declared_ofMessage, ← truncated_iff]
    constructor
    · intro hshows
      exact hshows _ rfl
    · rintro htruncated envelope ⟨⟩
      exact htruncated

/-- A message is read as what was written exactly if its length fits into the header. -/
theorem faithful_iff : Faithful messageType payload ↔ (wrap messageType payload).length < 0x100000000 := by
  constructor
  · rintro ⟨⟨envelope, -, -, hdeclared, -⟩, -, -⟩
    rw [length_wrap, size, ← hdeclared]
    exact envelope.declared.toNat_lt
  · intro hshort
    have hmod := Nat.mod_eq_of_lt hshort
    refine ⟨⟨_, parse_wrap messageType payload, rfl, ?_, fun n => ?_⟩, drop_wrap messageType payload, ?_⟩
    · rw [declared_ofMessage, hmod, length_wrap, size]
    · rw [truncated_iff, declared_ofMessage, hmod]
    · intro n hn
      exact (cutShows_iff (Nat.le_of_lt hn)).mpr (.inr (hmod.symm ▸ hn))

/-- **A message is read back**, whatever its type and its payload. It has a header of that type, and behind the
header is the payload. The header declares the length of the message modulo 2³²: that is what is compared with the
bytes that arrive, so a part of the message passes for the whole exactly if it has a header and no fewer bytes than
that. A message of fewer than 2³² bytes, and no other, is read as what was written: it declares its length, and every
cut shows. -/
theorem message_read_back (messageType : UInt32) (payload : Bytes) :
    let length := (wrap messageType payload).length
    length = 8 + payload.length ∧ (wrap messageType payload).drop 8 = payload ∧
    (∃ envelope, parse (wrap messageType payload) = .ok envelope ∧ envelope.messageType = messageType ∧
      envelope.declared.toNat = length % 0x100000000 ∧
      ∀ n, envelope.truncated n = true ↔ n < length % 0x100000000) ∧
    (∀ n ≤ length, CutShows messageType payload n ↔ n < 8 ∨ n < length % 0x100000000) ∧
    (Faithful messageType payload ↔ length < 0x100000000) := by
  refine ⟨length_wrap messageType payload, drop_wrap messageType payload,
    ⟨_, parse_wrap messageType payload, rfl, declared_ofMessage, fun n => ?_⟩,
    fun n hn => cutShows_iff hn, faithful_iff⟩
  rw [truncated_iff, declared_ofMessage]

/-- Three characters make a message of eleven bytes, and where the last of them is missing, this shows. -/
theorem message_read_back_abc : 10 ≤ (wrap listType [0x61, 0x62, 0x63]).length ∧
    (CutShows listType [0x61, 0x62, 0x63] 10 ↔ 10 < 8 ∨ 10 < 11 % 0x100000000) := by
  have hlen : 10 ≤ (wrap listType [0x61, 0x62, 0x63]).length := by decide
  exact ⟨hlen, (message_read_back listType [0x61, 0x62, 0x63]).2.2.2.1 10 hlen⟩

/-- A payload of 2³² bytes is declared to be empty, and then the header alone passes for the whole message. -/
theorem long_message_misread :
    let payload := List.replicate 0x100000000 0
    (∃ envelope, parse (wrap listType payload) = .ok envelope ∧ envelope.declared.toNat = 8) ∧
      ¬ CutShows listType payload 8 ∧ ¬ Faithful listType payload := by
  intro payload
  have hlen : (wrap listType payload).length = 0x100000008 := by
    rw [length_wrap, List.length_replicate, size]
  refine ⟨⟨_, parse_wrap listType payload, ?_⟩, ?_, ?_⟩
  · rw [declared_ofMessage, hlen]
  · rw [cutShows_iff (by omega), hlen, size]
    omega
  · rw [faithful_iff, hlen]
    omega

end HistogramMonitor.Envelope
