import Mathlib.Data.List.Chain
import Mathlib.Data.List.TakeWhile
import HistogramMonitor.Yaml.Tokens
import HistogramMonitor.Yaml.Writer

/-!
# Characters and gaps

What the classes of characters have to do with each other, and how a text falls into words and the gaps between
them: a reader takes a gap as a whole, so an induction on a text goes along its words and gaps
(`gaps_induction`). What a text may not hold in neighbouring places is said with `List.IsChain`, since that
passes to each part of the text.
-/

namespace HistogramMonitor.Yaml

/-! ## Classes -/

theorem isAllowed_of_isPrintable {c : Char} (h : isPrintable c = true) : isAllowed c = true := by
  simp only [isPrintable, isAllowed, Bool.or_eq_true, Bool.and_eq_true, decide_eq_true_eq] at h ⊢
  grind

/-- The characters that need no escape are not among the line ends that are read as others. -/
theorem not_unified_of_isPrintable {c : Char} (h : isPrintable c = true) : ¬(c = '\r' ∨ c = '\u0085') := by
  rintro (rfl | rfl) <;> exact absurd h (by decide)

theorem not_mark_of_isPrintable {c : Char} (h : isPrintable c = true) : c ≠ '\uFEFF' := by
  rintro rfl
  exact absurd h (by decide)

theorem isBreak_eq_false_of_isWhite {c : Char} (h : isWhite c = false) : isBreak c = false :=
  (Bool.or_eq_false_iff.1 h).2

theorem ne_space_of_isBreak {c : Char} (h : isBreak c = true) : c ≠ ' ' := by
  rintro rfl
  exact absurd h (by decide)

/-- The only blank that needs no escape is the space. -/
theorem space_or_break {c : Char} (h : isPrintable c = true) (hwhite : isWhite c = true) :
    c = ' ' ∨ isBreak c = true := by
  simp only [isWhite, isBlank, Bool.or_eq_true, decide_eq_true_eq] at hwhite
  obtain (hspace | rfl) | hbreak := hwhite
  · exact .inl hspace
  · exact absurd h (by decide)
  · exact .inr hbreak

theorem isWhite_eq_false {c : Char} (h : isPrintable c = true) (hspace : c ≠ ' ') (hbreak : isBreak c = false) :
    isWhite c = false := by
  refine Bool.eq_false_iff.2 fun hwhite => ?_
  obtain hc | hc := space_or_break h hwhite
  · exact hspace hc
  · exact absurd hc (by rw [hbreak]; exact Bool.false_ne_true)

theorem ne_of_not_white {text : List Char} (h : ∀ c ∈ text.head?, isWhite c = false) {d : Char}
    (hd : isWhite d = true) : ∀ c ∈ text.head?, c ≠ d := by
  rintro c hc rfl
  rw [h c hc] at hd
  contradiction

/-- The character needs no escape and does not end a line. -/
def Inline (c : Char) : Prop := isPrintable c = true ∧ isBreak c = false

instance (c : Char) : Decidable (Inline c) := inferInstanceAs (Decidable (_ ∧ _))

theorem Inline.isWhite {c : Char} (h : Inline c) (hspace : c ≠ ' ') : isWhite c = false :=
  isWhite_eq_false h.1 hspace h.2

theorem Inline.ne_tab {c : Char} (h : Inline c) : c ≠ '\t' := by
  rintro rfl
  exact absurd h (by decide)

theorem inline_of_ascii {c : Char} (hlow : 0x20 ≤ c.toNat) (hhigh : c.toNat ≤ 0x7e) : Inline c := by
  have hbreak : ∀ d : Char, 0x7e < d.toNat ∨ d.toNat < 0x20 → c ≠ d := by
    rintro d hd rfl
    omega
  refine ⟨?_, ?_⟩
  · simp only [isPrintable, hlow, hhigh, decide_true, Bool.and_true, Bool.or_true, Bool.true_or]
  · simp only [isBreak, hbreak '\n' (by decide), hbreak '\u2028' (by decide), hbreak '\u2029' (by decide),
      decide_false, Bool.or_false]

/-- A text of characters that need no escape is read as it stands. -/
theorem unifyBreaks_eq {s : List Char} (h : ∀ c ∈ s, isPrintable c = true) : unifyBreaks s = s := by
  induction s with
  | nil => rfl
  | cons c s ih =>
    have hc := not_unified_of_isPrintable (h c List.mem_cons_self)
    have hs := ih fun d hd => h d (List.mem_cons_of_mem c hd)
    rw [unifyBreaks, if_neg hc, hs]
    rintro rest rfl
    exact absurd (.inl rfl) hc

/-! ## Rows of spaces -/

theorem space_of_mem_indent {n : Nat} : ∀ c ∈ indent n, c = ' ' := fun _ hc => List.eq_of_mem_replicate hc

section Spaces

variable {v : List Char} (h : ∀ c ∈ v, c = ' ')
include h

theorem isBreak_of_spaces : ∀ c ∈ v, isBreak c = false := by
  intro c hc
  rw [h c hc]
  decide

theorem isWhite_of_spaces : ∀ c ∈ v, isWhite c = true := by
  intro c hc
  rw [h c hc]
  decide

theorem tab_not_mem_spaces : '\t' ∉ v := fun hc => absurd (h _ hc) (by decide)

end Spaces

/-! ## Neighbours -/

theorem adjacent_eq_false_iff (p q : Char → Bool) (s : List Char) :
    Plain.adjacent p q s = false ↔ s.IsChain fun c d => ¬(p c = true ∧ q d = true) := by
  induction s with
  | nil => exact ⟨fun _ => .nil, fun _ => rfl⟩
  | cons c s ih =>
    cases s with
    | nil => exact ⟨fun _ => .singleton c, fun _ => rfl⟩
    | cons d s =>
      rw [Plain.adjacent, Bool.or_eq_false_iff, ih, List.isChain_cons_cons, ← Bool.not_eq_true,
        Bool.and_eq_true]

/-! ## Words and gaps -/

/-- The first row of characters with a property, and what follows it. -/
theorem exists_row (p : Char → Bool) (s : List Char) :
    ∃ w r, s = w ++ r ∧ (∀ c ∈ w, p c = true) ∧ ∀ c ∈ r.head?, p c = false := by
  refine ⟨s.takeWhile p, s.dropWhile p, List.takeWhile_append_dropWhile.symm,
    fun c hc => List.mem_takeWhile_imp hc, fun c hc => ?_⟩
  have hnot := List.head?_dropWhile_not p s
  rw [Option.mem_def.1 hc] at hnot
  exact hnot

/-- An induction along the characters of a text, except for the rows of those in between. -/
@[elab_as_elim]
theorem gaps_induction (p : Char → Bool) {motive : List Char → Prop} (nil : motive [])
    (char : ∀ c s, p c = false → motive s → motive (c :: s))
    (gap : ∀ w s, w ≠ [] → (∀ c ∈ w, p c = true) → (∀ c ∈ s.head?, p c = false) → motive s → motive (w ++ s))
    (s : List Char) : motive s := by
  induction hn : s.length using Nat.strongRecOn generalizing s with
  | ind n ih =>
    obtain ⟨w, r, rfl, hw, hr⟩ := exists_row p s
    cases w with
    | nil =>
      cases r with
      | nil => exact nil
      | cons c r => exact char c r (hr c rfl) (ih r.length (hn ▸ Nat.lt_succ_self _) r rfl)
    | cons c w =>
      refine gap _ _ (List.cons_ne_nil c w) hw hr (ih r.length ?_ r rfl)
      rw [← hn, List.length_append, List.length_cons]
      omega

end HistogramMonitor.Yaml
