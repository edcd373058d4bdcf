import HistogramMonitor.Proofs.Histogram.RoundTrip

/-!
# Cutting what was encoded

An encoding has no byte to spare: what remains of it after a cut is refused, wherever the cut is
(`every_cut_shows`). A row of fields that loses bytes at its end does not reach its last field any more
(`Row.ends_of_cut`). So a cut within the header leaves a field out, and one behind it leaves fewer bytes than
the bins take, which is noticed before the first of them is read.
-/

namespace HistogramMonitor

variable {c c' : Cursor} {b : Bytes} {fields : List Bytes} {n : Nat}

/-- A row that was cut somewhere ends early, whether the cut is in a field or in the padding before it. -/
theorem Row.ends_of_cut (h : Row c fields c') (hn : n + c'.rest.length < c.rest.length) :
    Ends ⟨c.offset, c.rest.take n⟩ fields := by
  induction h generalizing n with
  | nil c => exact absurd hn (Nat.not_lt_of_le (Nat.le_add_left _ n))
  | @cons offset pad field rest fields c aligned more ih =>
    simp only [List.length_append] at hn ih ⊢
    by_cases hfield : n < pad.length + field.length
    · -- the cut is within the first field or its padding
      apply Ends.here
      simp only [Cursor.Cuts, List.length_take, List.length_append, ← aligned]
      omega
    · have htake : (pad ++ (field ++ rest)).take n =
          pad ++ (field ++ rest.take (n - pad.length - field.length)) := by
        rw [List.take_append, List.take_of_length_le (by omega), List.take_append,
          List.take_of_length_le (by omega)]
      rw [htake]
      exact .later (.cons aligned (.nil _)) (ih (by omega))

theorem Lays.ends_of_cut (h : Lays b fields) (hn : n < b.length) : Ends ⟨0, b.take n⟩ fields := by
  have hrow := h []
  rw [List.append_nil] at hrow
  exact hrow.ends_of_cut hn

theorem Content.length_encode (v : Content) : v.encode.length = v.length * v.element.size := by
  rw [encode_eq, length_flatten_of_length_eq fun f => length_of_mem_fields, length_fields]

namespace Snapshot

variable (h : Snapshot)

/-- What is missing when only the first `n` bytes have arrived. -/
def shortage (n : Nat) : DecodeError :=
  if n < h.header.length then .headerCut
  else .contentCut h.content.length h.kind.element.size (n - h.header.length)

theorem incomplete_shortage (n : Nat) : (h.shortage n).incomplete = true := by
  rw [shortage]
  split <;> rfl

/-- A part of an encoding lacks something, and nothing else is wrong with it. -/
theorem fault_of_cut (hn : n < h.encode.length) : Fault (h.encode.take n) (h.shortage n) := by
  rw [shortage]
  split
  · rename_i hheader
    rw [encode, List.take_append_of_le_length (Nat.le_of_lt hheader)]
    exact .missing (h.lays_header.ends_of_cut hheader)
  · rename_i hheader
    obtain ⟨hcount, hfits⟩ := h.rounded.length_content
    rw [content_rounded] at hcount
    rw [← h.axes_written] at hcount hfits
    have hgap : Bytes.gap h.header.length h.written.kind.element.size = 0 :=
      Bytes.gap_eq_zero (Bytes.length_aligned_mod _ h.kind.element.size_pos)
    have hroom : (h.content.encode.take (n - h.header.length)).length = n - h.header.length ∧
        n - h.header.length < h.content.length * h.kind.element.size := by
      rw [encode, List.length_append] at hn
      rw [List.length_take, ← h.element_eq, ← Content.length_encode]
      omega
    -- the header is whole, and what is left does not hold the bins
    rw [encode, List.take_append, List.take_of_length_le (Nat.le_of_not_lt hheader), hcount]
    rw [hcount] at hroom
    apply Fault.contentCut (h.lays_header _) hfits rfl
    · simp only [Cursor.aligned, hgap, List.drop_zero, hroom.1]
    · exact hroom.2

end Snapshot

/-- **Every cut shows.** Of an encoded snapshot, whatever its kind, axes and bins, no beginning but the whole is
decoded to anything: it is refused for being too short. What it says depends on where the cut is: a field is
missing if it is within the header, and room for the bins if it is behind that. -/
theorem every_cut_shows (h : Snapshot) (n : Nat) (hn : n < h.encode.length) :
    Snapshot.decode (h.encode.take n) = .error (h.shortage n) ∧ (h.shortage n).incomplete = true :=
  ⟨decode_eq_error_iff.mpr (.inl (h.fault_of_cut hn)), h.incomplete_shortage n⟩

/-- Without its last byte the series lacks room for its bins, and cut within the padding before the entry counter
it lacks a field. -/
theorem tenthSeries_cut :
    (43 < tenthSeries.encode.length ∧
      Snapshot.decode (tenthSeries.encode.take 43) = .error (.contentCut 3 4 11)) ∧
    (22 < tenthSeries.encode.length ∧ Snapshot.decode (tenthSeries.encode.take 22) = .error .headerCut) := by
  have hlast : 43 < tenthSeries.encode.length := by decide
  have hpadding : 22 < tenthSeries.encode.length := by decide
  exact ⟨⟨hlast, (every_cut_shows tenthSeries 43 hlast).1⟩,
    ⟨hpadding, (every_cut_shows tenthSeries 22 hpadding).1⟩⟩

end HistogramMonitor
