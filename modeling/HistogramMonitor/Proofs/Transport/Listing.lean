import HistogramMonitor.Proofs.Text.Utf8
import HistogramMonitor.Proofs.Transport.Messages

/-!
# Listings

Names are listed one to a line, and reading a listing is the inverse of joining names by newlines
(`listing_inverts_joining`). The text is cut at every newline (`lines_eq_splitOn`), so that empty names are kept
wherever they stand. A payload without any bytes has to be told apart beforehand, because joining nothing and joining
one empty name come to the same; so one empty name is what no listing stands for. What is no text is not read at all.
-/

namespace HistogramMonitor

variable {σ : Type}

namespace Client

/-! ## Lines -/

/-- The lines of a text are what it falls into at its newlines. -/
theorem lines_eq_splitOn (text : List Char) : lines text = text.splitOn '\n' := by
  induction text with
  | nil => rfl
  | cons c text ih =>
    rw [List.splitOn_cons_eq_if_modifyHead, ← ih, lines, List.foldr_cons]
    by_cases hc : c = '\n'
    · simp [hc, lines]
    · have hne : lines text ≠ [] := ih ▸ List.splitOn_ne_nil '\n' text
      rw [lines] at hne
      obtain ⟨line, more, hlines⟩ := List.exists_cons_of_ne_nil hne
      simp [hc, lines, hlines]

theorem intercalate_lines (text : List Char) : ['\n'].intercalate (lines text) = text := by
  rw [lines_eq_splitOn, List.intercalate_splitOn]

/-- There is no newline within a line. -/
theorem newline_not_mem_of_mem_lines {line text : List Char} (h : line ∈ lines text) : '\n' ∉ line := by
  rw [lines_eq_splitOn] at h
  induction text generalizing line with
  | nil => simp_all
  | cons c text ih =>
    rw [List.splitOn_cons_eq_if_modifyHead] at h
    by_cases hc : c = '\n'
    · simp only [hc, beq_self_eq_true, if_true, List.mem_cons] at h
      rcases h with rfl | h
      · exact List.not_mem_nil
      · exact ih h
    · obtain ⟨first, more, hlines⟩ := List.exists_cons_of_ne_nil (List.splitOn_ne_nil '\n' text)
      simp only [hlines, beq_iff_eq, hc, if_false, List.modifyHead_cons, List.mem_cons] at h
      -- a character in front of the first line leaves the others as they are
      rcases h with rfl | h
      · rw [List.mem_cons, not_or]
        exact ⟨Ne.symm hc, ih (hlines ▸ List.mem_cons_self)⟩
      · exact ih (hlines ▸ List.mem_cons_of_mem _ h)

/-! ## Names -/

variable {payload : Bytes} {names : List String} {text : List Char}

/-- The payload of a listing of names. -/
def listed (names : List String) : Bytes := Utf8.ofString ("\n".intercalate names)

theorem listed_eq (names : List String) :
    listed names = Utf8.encode (['\n'].intercalate (names.map String.toList)) := by
  rw [listed, Utf8.ofString, String.toList_intercalate]
  rfl

/-- The message that lists names. -/
def listMessage (names : List String) : Bytes := Envelope.wrap Envelope.listType (listed names)

/-- No name has a newline in it. -/
def OneLiners (names : List String) : Prop := ∀ name ∈ names, '\n' ∉ name.toList

/-- The names are the lines of what they are joined to, if there are any. -/
theorem lines_joined (hne : names ≠ []) (hnames : OneLiners names) :
    (lines (['\n'].intercalate (names.map String.toList))).map String.ofList = names := by
  have hlines : ∀ line ∈ names.map String.toList, '\n' ∉ line := by
    intro line hline
    obtain ⟨name, hname, rfl⟩ := List.mem_map.mp hline
    exact hnames name hname
  have hmap : names.map String.toList ≠ [] := by simpa using hne
  rw [lines_eq_splitOn, List.splitOn_intercalate '\n' hlines hmap, List.map_map]
  simp [Function.comp_def]

/-- What is read off the payload of a listing, if it is a text. -/
theorem namesIn_encode (text : List Char) : namesIn (Utf8.encode text) =
    .ok (if text = [] then [] else (lines text).map String.ofList) := by
  simp only [namesIn, List.isEmpty_iff, Utf8.encode_eq_nil_iff, Utf8.decode_encode]
  split <;> rfl

/-- And if it is none, there is an error. -/
theorem namesIn_of_not_text (h : ∀ text, payload ≠ Utf8.encode text) :
    ∃ f, namesIn payload = .error (.listing f) := by
  have hne : payload ≠ [] := h []
  cases hdecode : Utf8.decode payload with
  | error f => exact ⟨f, by simp [namesIn, hdecode, hne]⟩
  | ok text => exact absurd (Utf8.decode_eq_ok_iff.mp hdecode) (h text)

/-- Of one empty name nothing is left when it is joined with no other. -/
theorem joined_eq_nil_iff : ['\n'].intercalate (names.map String.toList) = [] ↔ names = [] ∨ names = [""] := by
  cases names with
  | nil => simp
  | cons name names =>
    cases names with
    | nil => simp [String.toList_eq_nil_iff]
    | cons other names => simp

theorem joined_lines (text : List Char) :
    ['\n'].intercalate (((lines text).map String.ofList).map String.toList) = text := by
  rw [List.map_map, show String.toList ∘ String.ofList = id from funext fun _ => String.toList_ofList,
    List.map_id, intercalate_lines]

/-- **Names are read off a payload exactly if they are what was joined to it.** -/
theorem namesIn_eq_ok_iff : namesIn payload = .ok names ↔
    OneLiners names ∧ names ≠ [""] ∧ payload = listed names := by
  constructor
  · intro h
    by_cases htext : ∃ text, payload = Utf8.encode text
    · obtain ⟨text, rfl⟩ := htext
      rw [namesIn_encode] at h
      split at h
      · rename_i hnil
        cases h
        exact ⟨nofun, nofun, by rw [hnil, listed_eq]; rfl⟩
      · rename_i hne
        cases h
        refine ⟨?_, fun hone => hne ?_, by rw [listed_eq, joined_lines]⟩
        · intro name hname
          obtain ⟨line, hline, rfl⟩ := List.mem_map.mp hname
          rw [String.toList_ofList]
          exact newline_not_mem_of_mem_lines hline
        · rw [← joined_lines text, joined_eq_nil_iff]
          exact .inr hone
    · obtain ⟨f, hf⟩ := namesIn_of_not_text fun text hpayload => htext ⟨text, hpayload⟩
      rw [hf] at h
      cases h
  · rintro ⟨hnames, hone, rfl⟩
    rw [listed_eq, namesIn_encode]
    split
    · rename_i hnil
      rcases joined_eq_nil_iff.mp hnil with rfl | rfl
      · rfl
      · exact absurd rfl hone
    · rename_i hne
      rw [lines_joined (fun h => hne (joined_eq_nil_iff.mpr (.inl h))) hnames]

/-- There are names in every payload that is a text, and in no other. -/
theorem exists_namesIn_iff : (∃ names, namesIn payload = .ok names) ↔ ∃ text, payload = Utf8.encode text := by
  constructor
  · rintro ⟨names, h⟩
    exact ⟨_, (namesIn_eq_ok_iff.mp h).2.2.trans (listed_eq names)⟩
  · rintro ⟨text, rfl⟩
    exact ⟨_, namesIn_encode text⟩

end Client

/-! ## Replies -/

namespace Envelope

/-- A reply that has a header and no fewer bytes than that declares. -/
def Complete (reply : Bytes) : Prop := size ≤ reply.length ∧ declaredIn reply ≤ reply.length

/-- No message lacks anything, whatever its length. -/
theorem complete_wrap (messageType : UInt32) (payload : Bytes) : Complete (wrap messageType payload) := by
  refine ⟨size_le_wrap messageType payload, ?_⟩
  rw [declaredIn_wrap]
  exact Nat.mod_le _ _

end Envelope

namespace Client

variable {w : Surroundings σ} {c : Call} {m : σ} {reply : Bytes}

/-- The reply that counts: the one to the first call, or if that falls short of what it declares, the one to the
second. -/
def lastReply (w : Surroundings σ) (c : Call) (m : σ) : Reply :=
  match (w.answer m c).reply.shortfall? with
  | none => (w.answer m c).reply
  | some declared => (w.answer (w.answer m c).next { c with hint := some declared }).reply

theorem lastReply_of_complete (hreply : (w.answer m c).reply = .bytes reply)
    (hcomplete : Envelope.Complete reply) : lastReply w c m = .bytes reply := by
  have hwhole : (Reply.bytes reply).shortfall? = none :=
    if_neg fun h => Nat.not_lt_of_le hcomplete.2 h.2
  simp only [lastReply, hreply, hwhole]

theorem Exchanges.value {α : Type} {judge : Reply → Option α} {x : Action σ α} (h : Exchanges w c judge x)
    (m : σ) : (x m).value = judge (lastReply w c m) := by
  have hx := h m
  cases hfirst : (w.answer m c).reply.shortfall? with
  | none =>
    simp only [hfirst] at hx
    simp only [lastReply, hfirst, hx.2]
  | some declared =>
    simp only [hfirst] at hx
    simp only [lastReply, hfirst, hx.2]

theorem list_value {runs : List UInt32} {program : String}
    (hreply : lastReply w (listing runs program) m = .bytes reply) (hsize : Envelope.size ≤ reply.length) :
    (list w runs program m).value = some (namesIn (reply.drop Envelope.size)) := by
  rw [(list_exchanges w runs program).value, hreply, verdict, usable_of_size_le hsize]
  rfl

/-- **Listing is inverse to joining.** A listing is read off the reply to its first call if that is complete. Of
every complete reply, names are read exactly if its payload is a text; if it is none, that is the error. The names have
no newline in them, joined by newlines they give back the payload, and there are none exactly if it is empty.
Conversely, whatever names without newlines are joined, one empty name alone excepted, the same names are read off the
message with them, empty ones in their places. -/
theorem listing_inverts_joining (w : Surroundings σ) (runs : List UInt32) (program : String) (m : σ) :
    (∀ reply, (w.answer m (listing runs program)).reply = .bytes reply → Envelope.Complete reply →
      lastReply w (listing runs program) m = .bytes reply) ∧
    (∀ reply, lastReply w (listing runs program) m = .bytes reply → Envelope.Complete reply →
      ∃ result, (list w runs program m).value = some result ∧
        ((∃ names, result = .ok names) ↔ ∃ text, reply.drop 8 = Utf8.encode text) ∧
        ((∀ text, reply.drop 8 ≠ Utf8.encode text) → ∃ f, result = .error (.listing f)) ∧
        ∀ names, result = .ok names → (∀ name ∈ names, '\n' ∉ name.toList) ∧
          (names = [] ↔ reply.drop 8 = []) ∧ Utf8.ofString ("\n".intercalate names) = reply.drop 8) ∧
    ∀ messageType names, (∀ name ∈ names, '\n' ∉ name.toList) → names ≠ [""] →
      lastReply w (listing runs program) m =
        .bytes (Envelope.wrap messageType (Utf8.ofString ("\n".intercalate names))) →
      (list w runs program m).value = some (.ok names) := by
  refine ⟨fun reply hreply hcomplete => lastReply_of_complete hreply hcomplete,
    fun reply hreply hcomplete => ⟨_, list_value hreply hcomplete.1, exists_namesIn_iff,
      namesIn_of_not_text, fun names hnames => ?_⟩, fun messageType names hnames hone hreply => ?_⟩
  · obtain ⟨hlines, hone, hpayload⟩ := namesIn_eq_ok_iff.mp hnames
    refine ⟨hlines, ?_, hpayload.symm⟩
    change names = [] ↔ reply.drop Envelope.size = []
    rw [hpayload, listed_eq, Utf8.encode_eq_nil_iff, joined_eq_nil_iff, or_iff_left hone]
  · rw [list_value hreply (Envelope.size_le_wrap _ _), Envelope.drop_wrap]
    exact congrArg some (namesIn_eq_ok_iff.mpr ⟨hnames, hone, rfl⟩)

/-- Names with empty ones among them, at both ends too, and with a character of two bytes before a newline. -/
def holes : List String := ["", "quad/é", "", "hitmap", ""]

/-- A backend that lists them. -/
def bulletin : Surroundings Unit where
  answer _ _ := { reply := .bytes (Envelope.wrap Envelope.listType (listed holes)), next := () }
  now _ := (⟨0⟩, ())

/-- They are read as they are. -/
theorem holes_listed : (∀ name ∈ holes, '\n' ∉ name.toList) ∧ holes ≠ [""] ∧
    (list bulletin [0] "ana" ()).value = some (.ok holes) := by
  have hlines : ∀ name ∈ holes, '\n' ∉ name.toList := by decide
  have hone : holes ≠ [""] := by decide
  obtain ⟨hlast, -, hread⟩ := listing_inverts_joining bulletin [0] "ana" ()
  exact ⟨hlines, hone, hread _ holes hlines hone (hlast _ rfl (Envelope.complete_wrap _ _))⟩

end Client

end HistogramMonitor
