import HistogramMonitor.Proofs.Yaml.Characters

/-!
# Reading on

Where reading stands after some characters is a function of where it stood before and of the characters
(`Scan.across`): the places change, and all else stays. The readers of single characters are described by it, and so
a row of them is one step over the row (`Scan.across_across`).
-/

namespace HistogramMonitor.Yaml

namespace Scan

/-! ## Places -/

/-- After some characters, with the text to come. -/
def across (s : Scan) (w text : List Char) : Scan := { w.foldl past s with rest := text }

variable (s : Scan) (w v text more : List Char)

theorem past_with_rest (c : Char) : past { s with rest := text } c = { past s c with rest := text } := by
  unfold past
  split <;> rfl

theorem foldl_past_with_rest :
    w.foldl past { s with rest := text } = { w.foldl past s with rest := text } := by
  induction w generalizing s with
  | nil => rfl
  | cons c w ih => rw [List.foldl_cons, past_with_rest, ih, List.foldl_cons]

theorem across_across : (s.across w more).across v text = s.across (w ++ v) text := by
  unfold across
  rw [foldl_past_with_rest, List.foldl_append]

theorem across_nil : s.across [] s.rest = s := rfl

theorem skip_eq_across (h : s.rest = w ++ text) : s.skip w.length = s.across w text := by
  unfold skip across
  rw [h, List.take_left, List.drop_left]

@[simp]
theorem across_rest : (s.across w text).rest = text := rfl

theorem past_fixed (c : Char) : (past s c).fresh = s.fresh ∧ (past s c).blocks = s.blocks ∧
    (past s c).key = s.key ∧ (past s c).outer = s.outer ∧ (past s c).tokens = s.tokens := by
  unfold past
  split <;> exact ⟨rfl, rfl, rfl, rfl, rfl⟩

theorem across_fixed : (s.across w text).fresh = s.fresh ∧ (s.across w text).blocks = s.blocks ∧
    (s.across w text).key = s.key ∧ (s.across w text).outer = s.outer ∧ (s.across w text).tokens = s.tokens := by
  induction w generalizing s with
  | nil => exact ⟨rfl, rfl, rfl, rfl, rfl⟩
  | cons c w ih =>
    obtain ⟨hfresh, hblocks, hkey, houter, htokens⟩ := past_fixed s c
    rw [← hfresh, ← hblocks, ← hkey, ← houter, ← htokens]
    exact ih (past s c)

@[simp]
theorem across_fresh : (s.across w text).fresh = s.fresh := (across_fixed s w text).1

@[simp]
theorem across_blocks : (s.across w text).blocks = s.blocks := (across_fixed s w text).2.1

@[simp]
theorem across_key : (s.across w text).key = s.key := (across_fixed s w text).2.2.1

@[simp]
theorem across_outer : (s.across w text).outer = s.outer := (across_fixed s w text).2.2.2.1

@[simp]
theorem across_tokens : (s.across w text).tokens = s.tokens := (across_fixed s w text).2.2.2.2

variable {w v}

/-- Within a line, each character is one column. -/
theorem across_column_line (hw : ∀ c ∈ w, isBreak c = false) :
    (s.across w text).column = s.column + w.length ∧ (s.across w text).line = s.line := by
  induction w generalizing s with
  | nil => exact ⟨rfl, rfl⟩
  | cons c w ih =>
    have hc : past s c = { s with index := s.index + c.utf8Size, column := s.column + 1 } := by
      rw [past, if_neg (by rw [hw c List.mem_cons_self]; exact Bool.false_ne_true)]
    obtain ⟨hcolumn, hline⟩ := ih (past s c) fun d hd => hw d (List.mem_cons_of_mem c hd)
    have hstep : s.across (c :: w) text = (past s c).across w text := rfl
    rw [hstep, hcolumn, hline, hc, List.length_cons, Nat.add_assoc, Nat.add_comm 1]
    exact ⟨rfl, rfl⟩

theorem column_pos_across (h : 0 < s.column) (hw : ∀ c ∈ w, isBreak c = false) :
    0 < (s.across w text).column := by
  rw [(across_column_line s text hw).1]
  omega

theorem line_le_across : s.line ≤ (s.across w text).line := by
  induction w generalizing s with
  | nil => exact Nat.le_refl s.line
  | cons c w ih =>
    refine Nat.le_trans ?_ (ih (past s c))
    unfold past
    split
    · exact Nat.le_succ s.line
    · exact Nat.le_refl s.line

/-- After the end of a line, columns count from there. -/
theorem across_break {c : Char} (hc : isBreak c = true) (hv : ∀ d ∈ v, isBreak d = false) :
    (s.across (w ++ c :: v) text).column = v.length ∧ s.line < (s.across (w ++ c :: v) text).line := by
  have hpast : ∀ t : Scan, (past t c).column = 0 ∧ (past t c).line = t.line + 1 := by
    intro t
    rw [past, if_pos hc]
    exact ⟨rfl, rfl⟩
  have hstep : s.across (w ++ c :: v) text = (past (s.across w []) c).across v text := by
    rw [← across_across s w (c :: v) text []]
    rfl
  obtain ⟨hcolumn, hline⟩ := across_column_line (past (s.across w []) c) text hv
  rw [hstep, hcolumn, hline, (hpast _).1, (hpast _).2, Nat.zero_add]
  exact ⟨rfl, Nat.lt_succ_of_le (line_le_across s [])⟩

theorem across_breaks (hne : w ≠ []) (hw : ∀ c ∈ w, isBreak c = true) (hv : ∀ d ∈ v, isBreak d = false) :
    (s.across (w ++ v) text).column = v.length := by
  have hsplit := List.dropLast_concat_getLast hne
  have hlast : isBreak (w.getLast hne) = true := hw _ (List.getLast_mem hne)
  rw [← hsplit, List.append_assoc, List.singleton_append]
  exact (across_break s text hlast hv).1

/-- Characters of one octet. -/
theorem across_index (hw : ∀ c ∈ w, c.utf8Size = 1) : (s.across w text).index = s.index + w.length := by
  induction w generalizing s with
  | nil => rfl
  | cons c w ih =>
    have hstep : s.across (c :: w) text = (past s c).across w text := rfl
    have hc : (past s c).index = s.index + 1 := by
      unfold past
      rw [hw c List.mem_cons_self]
      split <;> rfl
    rw [hstep, ih (past s c) fun d hd => hw d (List.mem_cons_of_mem c hd), hc, List.length_cons]
    omega

/-- The same at the start of a line, where a key may begin. -/
def acrossLine (s : Scan) (w text : List Char) : Scan := { s.across w text with fresh := true }

theorem across_acrossLine : (s.across w more).acrossLine v text = s.acrossLine (w ++ v) text := by
  rw [acrossLine, across_across, acrossLine]

/-- Markers of documents stand at the start of a line only. -/
theorem atMarker_eq_false {s : Scan} (h : 0 < s.column) : s.atMarker = false := by
  have hcolumn : decide (s.column = 0) = false := decide_eq_false (Nat.ne_of_gt h)
  rw [atMarker, marker, marker, hcolumn, Bool.false_and, Bool.false_and, Bool.false_or]

theorem marker_of_head {s : Scan} {c d : Char} {text : List Char} (hrest : s.rest = d :: text) (h : d ≠ c) :
    s.marker c = false := by
  unfold marker
  rw [hrest]
  rcases text with - | ⟨y, - | ⟨z, text⟩⟩ <;> simp [h]

/-- What begins with another character is no marker. -/
theorem atMarker_of_head {s : Scan} {c : Char} {text : List Char} (hrest : s.rest = c :: text) (hdash : c ≠ '-')
    (hdot : c ≠ '.') : s.atMarker = false := by
  rw [atMarker, marker_of_head hrest hdash, marker_of_head hrest hdot, Bool.or_false]

/-- A dash with a space after it is no marker. -/
theorem atMarker_of_dash {s : Scan} {text : List Char} (hrest : s.rest = '-' :: ' ' :: text) :
    s.atMarker = false := by
  have hdash : s.marker '-' = false := by
    unfold marker
    rw [hrest]
    cases text <;> simp
  rw [atMarker, hdash, marker_of_head hrest (by decide), Bool.or_false]

end Scan

/-- A reader that takes one step at most for each character has one left for what comes first, and enough for
what follows. -/
theorem exists_ahead {rest w text ahead : List Char} (h : rest.length ≤ ahead.length)
    (hrest : rest = w ++ text) (hne : w ≠ []) : ∃ a more, ahead = a :: more ∧ text.length ≤ more.length := by
  have hpos := List.length_pos_of_ne_nil hne
  rw [hrest, List.length_append] at h
  cases ahead with
  | nil =>
    rw [List.length_nil] at h
    omega
  | cons a more =>
    refine ⟨a, more, rfl, ?_⟩
    rw [List.length_cons] at h
    omega

theorem foldWhite_of_line {w : List Char} (hw : ∀ c ∈ w, isBreak c = false) : foldWhite w = w := by
  have hany : w.any isBreak = false := by simpa using hw
  rw [foldWhite, hany, if_neg Bool.false_ne_true]

namespace Reader

variable {α β : Type} {s t : Scan} {w text : List Char}

/-! ## Steps of reading -/

/-- A step of reading goes well: it comes to a value and leads from one state to another. -/
def Reads (r : Reader α) (s : Scan) (a : α) (t : Scan) : Prop := r s = .ok (a, t)

theorem Reads.bind {r : Reader α} {f : α → Reader β} {a : α} {b : β} {u : Scan} (hr : Reads r s a t)
    (hf : Reads (f a) t b u) : Reads (r >>= f) s b u := by
  have hbind : (r >>= f) s = (r s >>= fun p => f p.1 p.2) := rfl
  rw [Reads, hbind, hr]
  exact hf

theorem reads_pure (a : α) (s : Scan) : Reads (pure a) s a s := rfl

theorem reads_get (s : Scan) : Reads get s s s := rfl

theorem reads_modify (f : Scan → Scan) (s : Scan) : Reads (modify f) s ⟨⟩ (f s) := rfl

theorem reads_modify_eq {f : Scan → Scan} (h : f s = t) : Reads (modify f) s ⟨⟩ t := by
  rw [← h]
  exact reads_modify f s

theorem reads_setFresh (fresh : Bool) (s : Scan) : Reads (setFresh fresh) s ⟨⟩ { s with fresh := fresh } := rfl

theorem reads_drop (w : List Char) (h : s.rest = w ++ text) : Reads (drop w.length) s ⟨⟩ (s.across w text) := by
  rw [← Scan.skip_eq_across s w text h]
  rfl

theorem reads_drop_one {c : Char} (h : s.rest = c :: text) : Reads (drop 1) s ⟨⟩ (s.across [c] text) :=
  reads_drop [c] h

theorem reads_take (w : List Char) (h : s.rest = w ++ text) : Reads (take w.length) s w (s.across w text) := by
  rw [← Scan.skip_eq_across s w text h, Reads, take, h, List.take_left]

theorem takeWhile_append {p : Char → Bool} (hw : ∀ c ∈ w, p c = true) (htext : ∀ c ∈ text.head?, p c = false) :
    (w ++ text).takeWhile p = w := by
  have hnil : text.takeWhile p = [] := by
    cases text with
    | nil => rfl
    | cons c text => exact List.takeWhile_cons_of_neg (by simp [htext c rfl])
  rw [List.takeWhile_append_of_pos hw, hnil, List.append_nil]

theorem reads_takeWhile {p : Char → Bool} (h : s.rest = w ++ text) (hw : ∀ c ∈ w, p c = true)
    (htext : ∀ c ∈ text.head?, p c = false) : Reads (takeWhile p) s w (s.across w text) := by
  rw [← Scan.skip_eq_across s w text h, Reads, takeWhile, h, takeWhile_append hw htext]

end Reader

end HistogramMonitor.Yaml
