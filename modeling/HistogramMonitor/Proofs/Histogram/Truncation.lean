import HistogramMonitor.Proofs.Histogram.RoundTrip
import HistogramMonitor.Transport.Client

/-!
# Buffers that were cut short

A buffer that was cut short is still safe to decode: what comes of it is what comes of the whole buffer, or
the news that it is too short. The reason is in the format. A row of fields stays a row when bytes are
put behind it, so a buffer that starts with a snapshot still does, and so does one that starts with a field
that is wrong. Only a buffer that ends too early can turn into something else.
-/

namespace HistogramMonitor

variable {b : Bytes} {h : Snapshot} {e : DecodeError}

theorem Snapshot.StartsIn.append (hb : h.StartsIn b) (s : Bytes) : h.StartsIn (b ++ s) := by
  obtain ⟨head, c, hkind, haxes, hentries, hlen, hrow⟩ := hb
  exact ⟨head, c.extend s, hkind, haxes, hentries, hlen, hrow.extend s⟩

theorem Invalid.extend {c : Cursor} (h : Invalid c e) (s : Bytes) : Invalid (c.extend s) e := by
  cases h with
  | version read wrong => exact .version (read.extend s) wrong
  | kind read wrong => exact .kind (read.extend s) wrong
  | dimensions read wrong => exact .dimensions (read.extend s) wrong
  | abscissaSize fine fewer read wrong => exact .abscissaSize fine fewer (read.extend s) wrong
  | ordinateSize fine all read wrong => exact .ordinateSize fine all (read.extend s) wrong
  | ordinateMismatch fine all read known wrong =>
    exact .ordinateMismatch fine all (read.extend s) known wrong

/-- A fault that is not the end of the buffer stays one. -/
theorem Fault.append (hb : Fault b e) (he : e.incomplete = false) (s : Bytes) : Fault (b ++ s) e := by
  cases hb with
  | missing => cases he
  | invalid first => exact .invalid (first.extend s)
  | tooManyBins read wrong => exact .tooManyBins (read.extend s) wrong
  | contentCut => cases he

/-- What a buffer is decoded to does not depend on what follows, unless the buffer is too short. -/
theorem decode_append (h : ∀ e, Snapshot.decode b = .error e → e.incomplete = false) (s : Bytes) :
    Snapshot.decode (b ++ s) = Snapshot.decode b := by
  cases hb : Snapshot.decode b with
  | ok snapshot =>
    obtain ⟨hstarts, hsize⟩ := decode_eq_ok_iff.mp hb
    exact decode_eq_ok_iff.mpr ⟨hstarts.append s, hsize⟩
  | error e =>
    have he := h e hb
    refine decode_eq_error_iff.mpr (.inl ?_)
    rcases decode_eq_error_iff.mp hb with hfault | ⟨head, c, -, -, -, rfl⟩
    · exact hfault.append he s
    · cases he

/-- A prefix of a buffer is decoded to the same or too short. -/
theorem decode_prefix (b s : Bytes) : Snapshot.decode b = Snapshot.decode (b ++ s) ∨
    ∃ e, Snapshot.decode b = .error e ∧ e.incomplete = true := by
  by_cases hshort : ∃ e, Snapshot.decode b = .error e ∧ e.incomplete = true
  · exact .inr hshort
  · refine .inl (decode_append (fun e he => ?_) s).symm
    cases hincomplete : e.incomplete with
    | false => rfl
    | true => exact absurd ⟨e, he, hincomplete⟩ hshort

namespace Client

/-- The header of a reply is not part of the buffer, whether the reply was cut behind it or within it. -/
theorem histogramOf_prefix (reply s : Bytes) : histogramOf reply = histogramOf (reply ++ s) ∨
    ∃ e, histogramOf reply = .error (.decode e) ∧ e.incomplete = true := by
  rw [histogramOf, histogramOf, List.drop_append]
  rcases decode_prefix (reply.drop Envelope.size) (s.drop (Envelope.size - reply.length)) with
    hsame | ⟨e, he, hincomplete⟩
  · exact .inl (by rw [hsame])
  · exact .inr ⟨e, by rw [he], hincomplete⟩

end Client

/-- **Truncation never turns into wrong data.** A buffer that is decoded to a snapshot, or refused for
anything but being too short, is decoded to the same with any bytes behind it. So a prefix of a buffer that
holds a snapshot is decoded to that snapshot or found too short; and so is a reply of which only the
beginning has arrived, however often it was requested. -/
theorem truncation_is_safe (b s : Bytes) :
    ((∀ e, Snapshot.decode b = .error e → e.incomplete = false) →
      Snapshot.decode (b ++ s) = Snapshot.decode b) ∧
    (∀ h, Snapshot.decode (b ++ s) = .ok h →
      Snapshot.decode b = .ok h ∨ ∃ e, Snapshot.decode b = .error e ∧ e.incomplete = true) ∧
    (∀ h, Client.histogramOf (b ++ s) = .ok h →
      Client.histogramOf b = .ok h ∨
        ∃ e, Client.histogramOf b = .error (.decode e) ∧ e.incomplete = true) := by
  refine ⟨fun h => decode_append h s, fun h hok => ?_, fun h hok => ?_⟩
  · rw [← hok]
    exact decode_prefix b s
  · rw [← hok]
    exact Client.histogramOf_prefix b s

/-- A series is found in its encoding also with two bytes behind it. Of all but the last byte of the encoding, and of
a reply that holds it and was cut at the thirtieth byte, no series is made at all. -/
theorem decode_tenthSeries_cut :
    Snapshot.decode (tenthSeries.encode ++ [1, 2]) = .ok tenthSeries.rounded ∧
    (∃ e, Snapshot.decode (tenthSeries.encode.take 43) = .error e ∧ e.incomplete = true) ∧
    ∃ e, Client.histogramOf ((Envelope.wrap Envelope.histogramType tenthSeries.encode).take 30) =
      .error (.decode e) ∧ e.incomplete = true := by
  have hwhole : Snapshot.decode tenthSeries.encode = .ok tenthSeries.rounded := tenthSeries.decode_encode (by decide)
  have hreply : Client.histogramOf (Envelope.wrap Envelope.histogramType tenthSeries.encode) =
      .ok tenthSeries.rounded := by
    have hpayload : (Envelope.wrap Envelope.histogramType tenthSeries.encode).drop Envelope.size =
        tenthSeries.encode := List.drop_left' rfl
    rw [Client.histogramOf, hpayload, hwhole]
  have hcut : ∀ h, Snapshot.decode (tenthSeries.encode.take 43) ≠ .ok h := by
    intro h hok
    cases hok
  have hreplyCut : ∀ h, Client.histogramOf
      ((Envelope.wrap Envelope.histogramType tenthSeries.encode).take 30) ≠ .ok h := by
    intro h hok
    cases hok
  rw [← List.take_append_drop 30 (Envelope.wrap _ _)] at hreply
  refine ⟨?_, ?_, ?_⟩
  · rw [(truncation_is_safe tenthSeries.encode [1, 2]).1 fun e he => ?_]
    · exact hwhole
    · rw [hwhole] at he
      cases he
  · rw [← List.take_append_drop 43 tenthSeries.encode] at hwhole
    exact ((truncation_is_safe _ _).2.1 _ hwhole).resolve_left (hcut _)
  · exact ((truncation_is_safe _ _).2.2 _ hreply).resolve_left (hreplyCut _)

end HistogramMonitor
