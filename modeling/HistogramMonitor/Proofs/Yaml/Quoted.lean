import Mathlib.Tactic.IntervalCases
import HistogramMonitor.Proofs.Yaml.Reading

/-!
# Reading back quoted scalars

A text in quotes is read gap by gap and character by character, so the inductions are on the text as rows of white
characters with others between them (`gaps_induction`). Single quotes hold no escapes: a quote is doubled, spaces and
line ends stand as they are, and they never meet (`SingleText`), for reading drops the spaces around a line end. In
double quotes a character is itself or an escape, which is read back by itself (`Escapes`).
-/

namespace HistogramMonitor.Yaml

/-! ## Single quotes -/

/-- A text that single quotes can hold on a line of a block. -/
structure SingleText (s : List Char) : Prop where
  printable : ∀ c ∈ s, isPrintable c = true
  breaks : '\n' ∉ s
  space_after : s.IsChain fun c d => ¬(isBreak c = true ∧ decide (d = ' ') = true)
  space_before : s.IsChain fun c d => ¬(decide (c = ' ') = true ∧ isBreak d = true)

namespace SingleText

variable {s w : List Char} {c : Char}

theorem of_allowed (h : singleAllowed s = true) (hbreaks : '\n' ∉ s) : SingleText s := by
  simp only [singleAllowed, Bool.and_eq_true, List.all_eq_true, Bool.not_eq_true',
    adjacent_eq_false_iff] at h
  exact ⟨h.1.1, hbreaks, h.1.2, h.2⟩

theorem right (h : SingleText (w ++ s)) : SingleText s :=
  ⟨fun c hc => h.printable c (List.mem_append_right w hc), fun hs => h.breaks (List.mem_append_right w hs),
    h.space_after.right_of_append, h.space_before.right_of_append⟩

theorem left (h : SingleText (w ++ s)) : SingleText w :=
  ⟨fun c hc => h.printable c (List.mem_append_left s hc), fun hs => h.breaks (List.mem_append_left s hs),
    h.space_after.left_of_append, h.space_before.left_of_append⟩

/-- A gap in it is a row of spaces or one of line ends. -/
theorem gap (h : SingleText w) (hw : ∀ c ∈ w, isWhite c = true) :
    (∀ c ∈ w, c = ' ') ∨ ∀ c ∈ w, isBreak c = true := by
  induction w with
  | nil => exact .inl fun c hc => absurd hc List.not_mem_nil
  | cons c w ih =>
    have hc := space_or_break (h.printable c List.mem_cons_self) (hw c List.mem_cons_self)
    have htail : SingleText w := right (w := [c]) h
    have hrest := ih htail fun d hd => hw d (List.mem_cons_of_mem c hd)
    cases w with
    | nil =>
      rw [List.forall_mem_singleton, List.forall_mem_singleton]
      exact hc
    | cons d w =>
      have hafter := (List.isChain_cons_cons.1 h.space_after).1
      have hbefore := (List.isChain_cons_cons.1 h.space_before).1
      simp only [decide_eq_true_eq] at hafter hbefore
      rcases hc with hc | hc <;> rcases hrest with hrest | hrest
      · exact .inl (List.forall_mem_cons.2 ⟨hc, hrest⟩)
      · exact absurd ⟨hc, hrest d List.mem_cons_self⟩ hbefore
      · exact absurd ⟨hc, hrest d List.mem_cons_self⟩ hafter
      · exact .inr (List.forall_mem_cons.2 ⟨hc, hrest⟩)

end SingleText

theorem singleInside_of_line {margin : Nat} {w : List Char} (hw : ∀ c ∈ w, isBreak c = false ∧ c ≠ '\'')
    (s : List Char) : singleInside margin false (w ++ s) = w ++ singleInside margin false s := by
  induction w with
  | nil => rfl
  | cons c w ih =>
    obtain ⟨hbreak, hquote⟩ := hw c List.mem_cons_self
    rw [List.cons_append, singleInside, if_neg (by rw [hbreak]; exact Bool.false_ne_true), if_neg hquote,
      ih fun d hd => hw d (List.mem_cons_of_mem c hd)]
    rfl

/-- At the start of a line stands the margin. -/
theorem singleInside_fresh {margin : Nat} {s : List Char} (hs : ∀ c ∈ s.head?, isBreak c = false) :
    singleInside margin true s = indent margin ++ singleInside margin false s := by
  cases s with
  | nil => exact (List.append_nil _).symm
  | cons c s =>
    have hc : ¬isBreak c = true := by
      rw [hs c rfl]
      exact Bool.false_ne_true
    rw [singleInside, singleInside, if_neg hc, if_neg hc, if_pos rfl, if_neg Bool.false_ne_true,
      List.nil_append, List.append_assoc]

theorem singleInside_of_breaks {margin : Nat} {fresh : Bool} {w : List Char} (hne : w ≠ [])
    (hw : ∀ c ∈ w, isBreak c = true) {s : List Char} (hs : ∀ c ∈ s.head?, isBreak c = false) :
    singleInside margin fresh (w ++ s) = w ++ (indent margin ++ singleInside margin false s) := by
  induction w generalizing fresh with
  | nil => exact absurd rfl hne
  | cons c w ih =>
    rw [List.cons_append, singleInside, if_pos (hw c List.mem_cons_self)]
    cases w with
    | nil => rw [List.nil_append, singleInside_fresh hs, List.singleton_append]
    | cons d w =>
      rw [ih (List.cons_ne_nil d w) fun e he => hw e (List.mem_cons_of_mem c he)]
      rfl

/-- What stands first inside the quotes, if not a gap does, and what ends them. -/
theorem head_singleInside (margin : Nat) {s : List Char} (hs : ∀ c ∈ s.head?, isWhite c = false)
    (text : List Char) : ∀ c ∈ (singleInside margin false s ++ '\'' :: text).head?, isWhite c = false := by
  cases s with
  | nil =>
    intro c hc
    cases hc
    decide
  | cons d s =>
    have hd := hs d rfl
    intro c hc
    rw [singleInside, if_neg (by rw [isBreak_eq_false_of_isWhite hd]; exact Bool.false_ne_true)] at hc
    by_cases hquote : d = '\''
    · rw [if_pos hquote] at hc
      cases hc
      decide
    · rw [if_neg hquote] at hc
      cases hc
      exact hd

/-- Line ends that are no newlines are kept. -/
theorem foldWhite_of_breaks {w v : List Char} (hne : w ≠ []) (hw : ∀ c ∈ w, isBreak c = true)
    (hnewline : '\n' ∉ w) (hv : ∀ c ∈ v, isBreak c = false) : foldWhite (w ++ v) = w := by
  have hfilter : (w ++ v).filter isBreak = w := by
    rw [List.filter_append, List.filter_eq_self.2 hw, List.filter_eq_nil_iff.2 (by simpa using hv),
      List.append_nil]
  cases w with
  | nil => exact absurd rfl hne
  | cons c w =>
    have hc : c ≠ '\n' := by
      rintro rfl
      exact hnewline List.mem_cons_self
    have hany : (c :: w ++ v).any isBreak = true := by
      rw [List.cons_append, List.any_cons, hw c List.mem_cons_self, Bool.true_or]
    rw [foldWhite, hany, if_pos rfl, hfilter]
    unfold foldBreaks
    split
    · simp_all
    · simp_all
    · rfl

namespace Reader

variable {s t : Scan} {text ahead done : List Char} {str : String}

theorem Reads.singleQuotedRest_end (htext : text.head? ≠ some '\'') (hrest : s.rest = '\'' :: text)
    (hcolumn : 0 < s.column) (a : Char) (ahead done : List Char) :
    Reads (singleQuotedRest (a :: ahead) done) s (String.ofList done.reverse) (s.across ['\''] text) := by
  rw [singleQuotedRest]
  refine (reads_get s).bind ?_
  rw [Scan.atMarker_eq_false hcolumn, if_neg Bool.false_ne_true, hrest]
  split
  · rename_i heq
    cases heq
    exact absurd rfl htext
  · exact (reads_drop_one hrest).bind (reads_pure _ _)
  · rename_i hnot heq
    cases heq
    exact (hnot rfl).elim
  · contradiction

theorem Reads.singleQuotedRest_quote (hrest : s.rest = '\'' :: '\'' :: text) (hcolumn : 0 < s.column)
    (a : Char) (h : Reads (singleQuotedRest ahead ('\'' :: done)) (s.across ['\'', '\''] text) str t) :
    Reads (singleQuotedRest (a :: ahead) done) s str t := by
  rw [singleQuotedRest]
  refine (reads_get s).bind ?_
  rw [Scan.atMarker_eq_false hcolumn, if_neg Bool.false_ne_true, hrest]
  exact (reads_drop ['\'', '\''] hrest).bind h

theorem Reads.singleQuotedRest_char {c : Char} (hquote : c ≠ '\'') (hc : isWhite c = false)
    (hrest : s.rest = c :: text) (hcolumn : 0 < s.column) (a : Char)
    (h : Reads (singleQuotedRest ahead (c :: done)) (s.across [c] text) str t) :
    Reads (singleQuotedRest (a :: ahead) done) s str t := by
  rw [singleQuotedRest]
  refine (reads_get s).bind ?_
  rw [Scan.atMarker_eq_false hcolumn, if_neg Bool.false_ne_true, hrest]
  split
  · simp_all
  · simp_all
  · rename_i heq
    cases heq
    rw [hc, if_neg Bool.false_ne_true]
    exact (reads_drop_one hrest).bind h
  · contradiction

theorem Reads.singleQuotedRest_gap {w : List Char} (hne : w ≠ []) (hw : ∀ c ∈ w, isWhite c = true)
    (htext : ∀ c ∈ text.head?, isWhite c = false) (hrest : s.rest = w ++ text) (hcolumn : 0 < s.column)
    (a : Char) (h : Reads (singleQuotedRest ahead ((foldWhite w).reverse ++ done)) (s.across w text) str t) :
    Reads (singleQuotedRest (a :: ahead) done) s str t := by
  obtain ⟨c, v, rfl⟩ := List.exists_cons_of_ne_nil hne
  have hc : isWhite c = true := hw c List.mem_cons_self
  have hquote : c ≠ '\'' := by
    rintro rfl
    exact absurd hc (by decide)
  rw [singleQuotedRest]
  refine (reads_get s).bind ?_
  rw [Scan.atMarker_eq_false hcolumn, if_neg Bool.false_ne_true, hrest]
  split
  · simp_all
  · simp_all
  · rename_i heq
    cases heq
    rw [hc, if_pos rfl]
    exact (reads_takeWhile hrest hw htext).bind h
  · contradiction

/-- The inside of single quotes is read back. -/
theorem reads_singleQuotedRest {margin : Nat} (hmargin : 0 < margin) (htext : text.head? ≠ some '\'')
    {cs : List Char} (hcs : SingleText cs) (hahead : s.rest.length ≤ ahead.length)
    (hrest : s.rest = singleInside margin false cs ++ '\'' :: text) (hcolumn : 0 < s.column)
    (done : List Char) : Reads (singleQuotedRest ahead done) s (String.ofList (done.reverse ++ cs))
      (s.across (singleInside margin false cs ++ ['\'']) text) := by
  induction cs using gaps_induction isWhite generalizing s ahead done with
  | nil =>
    have hend : s.rest = ['\''] ++ text := hrest
    obtain ⟨a, ahead, rfl, -⟩ := exists_ahead hahead hend (List.cons_ne_nil _ _)
    rw [List.append_nil]
    exact .singleQuotedRest_end htext hrest hcolumn a ahead done
  | char c cs hc ih =>
    have htail : SingleText cs := hcs.right (w := [c])
    have hbreak := isBreak_eq_false_of_isWhite hc
    by_cases hquote : c = '\''
    · subst hquote
      have hinside : singleInside margin false ('\'' :: cs) =
        ['\'', '\''] ++ singleInside margin false cs := by rfl
      rw [hinside, List.append_assoc] at hrest ⊢
      obtain ⟨a, ahead, rfl, hmore⟩ := exists_ahead hahead hrest (List.cons_ne_nil _ _)
      have hpos := s.column_pos_across (singleInside margin false cs ++ '\'' :: text) hcolumn
        (w := ['\'', '\'']) (by simp [isBreak])
      have hread := ih htail hmore rfl hpos ('\'' :: done)
      rw [List.reverse_cons, List.append_assoc, Scan.across_across] at hread
      exact .singleQuotedRest_quote hrest hcolumn a hread
    · have hinside : singleInside margin false ([c] ++ cs) = [c] ++ singleInside margin false cs :=
        singleInside_of_line (by simpa using ⟨hbreak, hquote⟩) cs
      rw [← List.singleton_append, hinside, List.append_assoc] at hrest ⊢
      obtain ⟨a, ahead, rfl, hmore⟩ := exists_ahead hahead hrest (List.cons_ne_nil _ _)
      have hpos := s.column_pos_across (singleInside margin false cs ++ '\'' :: text) hcolumn
        (w := [c]) (by simpa using hbreak)
      have hread := ih htail hmore rfl hpos (c :: done)
      rw [List.reverse_cons, List.append_assoc, Scan.across_across] at hread
      exact .singleQuotedRest_char hquote hc hrest hcolumn a hread
  | gap w cs hne hw hhead ih =>
    have htail : SingleText cs := hcs.right
    have hstart := head_singleInside margin hhead text
    have hbreak : ∀ c ∈ cs.head?, isBreak c = false := fun c hc => isBreak_eq_false_of_isWhite (hhead c hc)
    obtain hspaces | hbreaks := hcs.left.gap hw
    · -- spaces stand as they are
      have hline : ∀ c ∈ w, isBreak c = false ∧ c ≠ '\'' := by
        intro c hc
        rw [hspaces c hc]
        decide
      have hnone : ∀ c ∈ w, isBreak c = false := fun c hc => (hline c hc).1
      rw [singleInside_of_line hline, List.append_assoc] at hrest ⊢
      obtain ⟨a, ahead, rfl, hmore⟩ := exists_ahead hahead hrest hne
      have hread := ih htail hmore rfl (s.column_pos_across _ hcolumn hnone) ((foldWhite w).reverse ++ done)
      rw [List.reverse_append, List.reverse_reverse, List.append_assoc, Scan.across_across,
        foldWhite_of_line hnone] at hread
      refine .singleQuotedRest_gap hne hw hstart hrest hcolumn a ?_
      rw [foldWhite_of_line hnone]
      exact hread
    · -- line ends are read with the margin of the line after them
      have hmarginBreaks : ∀ c ∈ indent margin, isBreak c = false := isBreak_of_spaces space_of_mem_indent
      have hwhite : ∀ c ∈ w ++ indent margin, isWhite c = true := by
        intro c hc
        obtain hc | hc := List.mem_append.1 hc
        · exact hw c hc
        · exact isWhite_of_spaces space_of_mem_indent c hc
      have hfold : foldWhite (w ++ indent margin) = w :=
        foldWhite_of_breaks hne hbreaks hcs.left.breaks hmarginBreaks
      have hne' : w ++ indent margin ≠ [] := List.append_ne_nil_of_left_ne_nil hne _
      rw [singleInside_of_breaks hne hbreaks hbreak, ← List.append_assoc w,
        List.append_assoc (w ++ indent margin)] at hrest ⊢
      obtain ⟨a, ahead, rfl, hmore⟩ := exists_ahead hahead hrest hne'
      have hpos : 0 < (s.across (w ++ indent margin) (singleInside margin false cs ++ '\'' :: text)).column := by
        rw [s.across_breaks _ hne hbreaks hmarginBreaks, indent, List.length_replicate]
        exact hmargin
      have hread := ih htail hmore rfl hpos ((foldWhite (w ++ indent margin)).reverse ++ done)
      rw [List.reverse_append, List.reverse_reverse, List.append_assoc, Scan.across_across, hfold] at hread
      refine .singleQuotedRest_gap hne' hwhite hstart hrest hcolumn a ?_
      rw [hfold]
      exact hread

end Reader

/-! ## Escapes -/

theorem hexPadded_of_lt {n : Nat} (h : n < 16) : hexPadded 1 n = [n.digitChar.toUpper] := by
  rw [hexPadded, Nat.toDigits_of_lt_base h]
  rfl

/-- The last of the digits is that of the remainder. -/
theorem hexPadded_succ {width : Nat} (hwidth : 0 < width) (n : Nat) :
    hexPadded (width + 1) n = hexPadded width (n / 16) ++ [(n % 16).digitChar.toUpper] := by
  unfold hexPadded
  by_cases h : n < 16
  · obtain ⟨w, rfl⟩ := Nat.exists_eq_succ_of_ne_zero (Nat.ne_of_gt hwidth)
    rw [Nat.toDigits_of_lt_base h, Nat.div_eq_of_lt h, Nat.mod_eq_of_lt h,
      Nat.toDigits_of_lt_base (by decide)]
    simp only [List.map_cons, List.map_nil, List.length_cons, List.length_nil, Nat.zero_add,
      Nat.add_sub_cancel]
    rw [List.replicate_succ']
    rfl
  · rw [Nat.toDigits_of_base_le (by decide) (Nat.le_of_not_lt h)]
    simp only [List.map_append, List.map_cons, List.map_nil, List.length_append, List.length_cons,
      List.length_nil, Nat.zero_add, Nat.add_sub_add_right, List.append_assoc]

theorem hexValue?_digitChar {n : Nat} (h : n < 16) : Text.hexValue? n.digitChar.toUpper = some n := by
  interval_cases n <;> rfl

/-- The digits of a number are read back. -/
theorem hexPadded_read {width : Nat} (hwidth : 0 < width) {n : Nat} (hn : n < 16 ^ width) :
    (hexPadded width n).length = width ∧
    ((hexPadded width n).map Text.hexValue?).all (·.isSome) = true ∧
    ((hexPadded width n).map Text.hexValue?).foldl (fun v d => v * 16 + d.getD 0) 0 = n := by
  induction width, hwidth using Nat.le_induction generalizing n with
  | base =>
    have hvalue := hexValue?_digitChar (n := n) (by simpa using hn)
    rw [hexPadded_of_lt (by simpa using hn)]
    simp [hvalue]
  | succ width hwidth ih =>
    obtain ⟨hlength, hall, hfold⟩ := ih (n := n / 16) (by rw [Nat.pow_succ] at hn; omega)
    have hlast := hexValue?_digitChar (n := n % 16) (Nat.mod_lt n (by decide))
    rw [hexPadded_succ hwidth, List.length_append, List.map_append, List.all_append, List.foldl_append,
      hlength, hall, hfold]
    simp only [List.map_cons, List.map_nil, hlast]
    refine ⟨rfl, rfl, ?_⟩
    exact Nat.div_add_mod' n 16

theorem inline_of_hexValue? {c : Char} {n : Nat} (h : Text.hexValue? c = some n) : Inline c := by
  unfold Text.hexValue? at h
  simp only [Char.le_def, UInt32.le_iff_toNat_le] at h
  split_ifs at h with hdigit hlower hupper
  · exact inline_of_ascii (Nat.le_trans (by decide) hdigit.1) (Nat.le_trans hdigit.2 (by decide))
  · exact inline_of_ascii (Nat.le_trans (by decide) hlower.1) (Nat.le_trans hlower.2 (by decide))
  · exact inline_of_ascii (Nat.le_trans (by decide) hupper.1) (Nat.le_trans hupper.2 (by decide))

theorem inline_hexPadded {width : Nat} (hwidth : 0 < width) {n : Nat} (hn : n < 16 ^ width) :
    ∀ c ∈ hexPadded width n, Inline c := by
  intro c hc
  have hall := (hexPadded_read hwidth hn).2.1
  rw [List.all_map, List.all_eq_true] at hall
  obtain ⟨v, hv⟩ := Option.isSome_iff_exists.1 (hall c hc)
  exact inline_of_hexValue? hv

namespace Reader

variable {s t : Scan} {text ahead done : List Char} {str : String}

theorem reads_codePoint {width : Nat} (hwidth : 0 < width) {c : Char} (hc : c.toNat < 16 ^ width)
    (hrest : s.rest = hexPadded width c.toNat ++ text) :
    Reads (codePoint width) s c (s.across (hexPadded width c.toNat) text) := by
  obtain ⟨hlength, hall, hfold⟩ := hexPadded_read hwidth hc
  have hvalid : c.toNat < 0xd800 ∨ 0xdfff < c.toNat ∧ c.toNat < 0x110000 := c.valid
  have htake : s.rest.take width = hexPadded width c.toNat := by
    rw [hrest]
    exact List.take_left' hlength
  unfold codePoint
  refine (reads_get s).bind ?_
  rw [htake]
  dsimp only
  rw [if_pos ⟨by rw [List.length_map, hlength], hall⟩, hfold, if_neg (by omega), Char.ofNat_toNat]
  have hdrop := reads_drop _ hrest
  rw [hlength] at hdrop
  exact hdrop.bind (reads_pure c _)

/-- The characters after the backslash of an escape for a character. -/
structure Escapes (c : Char) (e : List Char) : Prop where
  ne_nil : e ≠ []
  inline : ∀ d ∈ e, Inline d
  reads {s : Scan} {text : List Char} (hrest : s.rest = e ++ text) : Reads escape s c (s.across e text)

theorem Escapes.letter {l c : Char} (hinline : Inline l) (hl : letterEscape? l = some c) : Escapes c [l] := by
  refine ⟨List.cons_ne_nil l [], List.forall_mem_singleton.2 hinline, fun {s text} hrest => ?_⟩
  rw [List.singleton_append] at hrest
  unfold escape
  refine (reads_get s).bind ?_
  rw [hrest]
  split
  · simp_all [letterEscape?]
  · simp_all [letterEscape?]
  · simp_all [letterEscape?]
  · rename_i heq
    cases heq
    rw [hl]
    exact (reads_drop_one hrest).bind (reads_pure c _)
  · contradiction

theorem Escapes.number {l c : Char} {width : Nat} (hl : (l, width) ∈ [('x', 2), ('u', 4), ('U', 8)])
    (hc : c.toNat < 16 ^ width) : Escapes c (l :: hexPadded width c.toNat) := by
  simp only [List.mem_cons, Prod.mk.injEq, List.not_mem_nil, or_false] at hl
  have hwidth : 0 < width := by omega
  refine ⟨List.cons_ne_nil _ _, List.forall_mem_cons.2 ⟨?_, inline_hexPadded hwidth hc⟩,
    fun {s text} hrest => ?_⟩
  · obtain ⟨rfl, -⟩ | ⟨rfl, -⟩ | ⟨rfl, -⟩ := hl <;> decide
  · have hnumber : Reads (do drop 1; codePoint width) s c (s.across (l :: hexPadded width c.toNat) text) := by
      have hcode := reads_codePoint hwidth hc (s := s.across [l] (hexPadded width c.toNat ++ text)) rfl
      rw [Scan.across_across] at hcode
      exact (reads_drop_one hrest).bind hcode
    unfold escape
    refine (reads_get s).bind ?_
    rw [hrest]
    obtain ⟨rfl, rfl⟩ | ⟨rfl, rfl⟩ | ⟨rfl, rfl⟩ := hl <;> exact hnumber

/-- A character is written as itself or as an escape. -/
theorem doubleEscaped_cases (c : Char) :
    (doubleEscaped c = [c] ∧ Inline c ∧ c ≠ '"' ∧ c ≠ '\\') ∨
    ∃ e, doubleEscaped c = '\\' :: e ∧ Escapes c e := by
  unfold doubleEscaped
  split
  · rename_i h
    simp only [Bool.and_eq_true, Bool.not_eq_true', decide_eq_true_eq] at h
    exact .inl ⟨rfl, h.1.1, h.1.2, h.2⟩
  · refine .inr ?_
    split
    iterate 14
      exact ⟨_, rfl, .letter (by decide) rfl⟩
    have hbound : c.toNat < 0x110000 := by
      have hvalid : c.toNat < 0xd800 ∨ 0xdfff < c.toNat ∧ c.toNat < 0x110000 := c.valid
      omega
    split_ifs with hshort hmiddle
    · exact ⟨_, rfl, .number (by simp) (by omega)⟩
    · exact ⟨_, rfl, .number (by simp) (by omega)⟩
    · exact ⟨_, rfl, .number (by simp) (by omega)⟩

/-! ## Double quotes -/

theorem Reads.doubleQuotedRest_end (hrest : s.rest = '"' :: text) (hcolumn : 0 < s.column) (a : Char)
    (ahead done : List Char) :
    Reads (doubleQuotedRest (a :: ahead) done) s (String.ofList done.reverse) (s.across ['"'] text) := by
  rw [doubleQuotedRest]
  refine (reads_get s).bind ?_
  rw [Scan.atMarker_eq_false hcolumn, if_neg Bool.false_ne_true, hrest]
  exact (reads_drop_one hrest).bind (reads_pure _ _)

theorem Reads.doubleQuotedRest_escape {c : Char} {e : List Char} (hescape : Escapes c e)
    (hrest : s.rest = '\\' :: e ++ text) (hcolumn : 0 < s.column) (a : Char)
    (h : Reads (doubleQuotedRest ahead (c :: done)) (s.across ('\\' :: e) text) str t) :
    Reads (doubleQuotedRest (a :: ahead) done) s str t := by
  have hread := hescape.reads (s := s.across ['\\'] (e ++ text)) rfl
  rw [Scan.across_across] at hread
  obtain ⟨l, e, rfl⟩ := List.exists_cons_of_ne_nil hescape.ne_nil
  rw [doubleQuotedRest]
  refine (reads_get s).bind ?_
  rw [Scan.atMarker_eq_false hcolumn, if_neg Bool.false_ne_true, hrest]
  refine (reads_drop_one hrest).bind ?_
  rw [(hescape.inline l List.mem_cons_self).2, if_neg Bool.false_ne_true]
  exact hread.bind h

theorem Reads.doubleQuotedRest_char {c : Char} (hquote : c ≠ '"') (hbackslash : c ≠ '\\')
    (hc : isWhite c = false) (hrest : s.rest = c :: text) (hcolumn : 0 < s.column) (a : Char)
    (h : Reads (doubleQuotedRest ahead (c :: done)) (s.across [c] text) str t) :
    Reads (doubleQuotedRest (a :: ahead) done) s str t := by
  rw [doubleQuotedRest]
  refine (reads_get s).bind ?_
  rw [Scan.atMarker_eq_false hcolumn, if_neg Bool.false_ne_true, hrest]
  split
  · simp_all
  · simp_all
  · rename_i heq
    cases heq
    rw [if_neg hbackslash, hc, if_neg Bool.false_ne_true]
    exact (reads_drop_one hrest).bind h
  · contradiction

theorem Reads.doubleQuotedRest_gap {w : List Char} (hne : w ≠ []) (hw : ∀ c ∈ w, c = ' ')
    (htext : ∀ c ∈ text.head?, isWhite c = false) (hrest : s.rest = w ++ text) (hcolumn : 0 < s.column)
    (a : Char) (h : Reads (doubleQuotedRest ahead (w.reverse ++ done)) (s.across w text) str t) :
    Reads (doubleQuotedRest (a :: ahead) done) s str t := by
  obtain ⟨c, v, rfl⟩ := List.exists_cons_of_ne_nil hne
  obtain rfl : c = ' ' := hw c List.mem_cons_self
  have hwhite := isWhite_of_spaces hw
  have hfold := foldWhite_of_line (isBreak_of_spaces hw)
  rw [doubleQuotedRest]
  refine (reads_get s).bind ?_
  rw [Scan.atMarker_eq_false hcolumn, if_neg Bool.false_ne_true, hrest]
  refine (reads_takeWhile hrest hwhite htext).bind ?_
  rw [hfold]
  exact h

/-- What stands first inside the quotes, if not a space does, and what ends them. -/
theorem head_doubleEscaped {s : List Char} (hs : ∀ c ∈ s.head?, c ≠ ' ') (text : List Char) :
    ∀ c ∈ (s.flatMap doubleEscaped ++ '"' :: text).head?, isWhite c = false := by
  intro c hc
  cases s with
  | nil =>
    cases hc
    decide
  | cons d s =>
    have hspace := hs d rfl
    rw [List.flatMap_cons] at hc
    obtain ⟨hself, hinline, -, -⟩ | ⟨e, hself, -⟩ := doubleEscaped_cases d
    · rw [hself] at hc
      cases hc
      exact hinline.isWhite hspace
    · rw [hself] at hc
      cases hc
      decide

/-- The inside of double quotes is read back. -/
theorem reads_doubleQuotedRest (cs : List Char) (hahead : s.rest.length ≤ ahead.length)
    (hrest : s.rest = cs.flatMap doubleEscaped ++ '"' :: text) (hcolumn : 0 < s.column) (done : List Char) :
    Reads (doubleQuotedRest ahead done) s (String.ofList (done.reverse ++ cs))
      (s.across (cs.flatMap doubleEscaped ++ ['"']) text) := by
  induction cs using gaps_induction (fun c => decide (c = ' ')) generalizing s ahead done with
  | nil =>
    have hend : s.rest = ['"'] ++ text := hrest
    obtain ⟨a, ahead, rfl, -⟩ := exists_ahead hahead hend (List.cons_ne_nil _ _)
    rw [List.append_nil]
    exact .doubleQuotedRest_end hrest hcolumn a ahead done
  | char c cs hc ih =>
    rw [List.flatMap_cons, List.append_assoc] at hrest ⊢
    obtain ⟨hself, hinline, hquote, hbackslash⟩ | ⟨e, hself, hescape⟩ := doubleEscaped_cases c
    · rw [hself] at hrest ⊢
      obtain ⟨a, ahead, rfl, hmore⟩ := exists_ahead hahead hrest (List.cons_ne_nil _ _)
      have hpos := s.column_pos_across (cs.flatMap doubleEscaped ++ '"' :: text) hcolumn
        (List.forall_mem_singleton.2 hinline.2)
      have hread := ih hmore rfl hpos (c :: done)
      rw [List.reverse_cons, List.append_assoc, Scan.across_across] at hread
      exact .doubleQuotedRest_char hquote hbackslash (hinline.isWhite (of_decide_eq_false hc)) hrest hcolumn a
        hread
    · rw [hself] at hrest ⊢
      obtain ⟨a, ahead, rfl, hmore⟩ := exists_ahead hahead hrest (List.cons_ne_nil _ _)
      have hpos := s.column_pos_across (cs.flatMap doubleEscaped ++ '"' :: text) hcolumn
        (w := '\\' :: e) (List.forall_mem_cons.2 ⟨by decide, fun d hd => (hescape.inline d hd).2⟩)
      have hread := ih hmore rfl hpos (c :: done)
      rw [List.reverse_cons, List.append_assoc, Scan.across_across] at hread
      exact .doubleQuotedRest_escape hescape hrest hcolumn a hread
  | gap w cs hne hw hhead ih =>
    have hspaces : ∀ c ∈ w, c = ' ' := fun c hc => of_decide_eq_true (hw c hc)
    have hself : w.flatMap doubleEscaped = w := by
      have hsingle : w.flatMap doubleEscaped = w.flatMap fun c => [c] :=
        List.flatMap_congr fun c hc => by rw [hspaces c hc]; rfl
      rw [hsingle, List.flatMap_singleton']
    have hnone := isBreak_of_spaces hspaces
    rw [List.flatMap_append, hself, List.append_assoc] at hrest ⊢
    obtain ⟨a, ahead, rfl, hmore⟩ := exists_ahead hahead hrest hne
    have hread := ih hmore rfl (s.column_pos_across _ hcolumn hnone) (w.reverse ++ done)
    rw [List.reverse_append, List.reverse_reverse, List.append_assoc, Scan.across_across] at hread
    have hstart := head_doubleEscaped (fun c hc => of_decide_eq_false (hhead c hc)) text
    exact .doubleQuotedRest_gap hne hspaces hstart hrest hcolumn a hread

end Reader

end HistogramMonitor.Yaml
