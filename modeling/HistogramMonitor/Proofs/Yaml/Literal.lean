import HistogramMonitor.Proofs.Yaml.Reading

/-!
# Reading back blocks of lines

A text with line ends is written as a block: a header, the lines behind a margin, and the line ends after the last
one, of which the sign in the header says what becomes (`Chomping.kept`). Reading a block goes from line to line, and
between two lines over the blank ones (`reads_blankLines`). So the text is taken as lines with rows of line ends
between them (`BlockLines`), and the induction is on these. The margin is given in the header if the text begins with
a gap (`reads_given_lines`, `reads_given_breaks`); if not, the first line shows it (`reads_shown_lines`).
-/

namespace HistogramMonitor.Yaml

/-! ## The header -/

/-- The sign in the header of a block for what becomes of the line ends after the last line. -/
def Reader.Chomping.sign : Reader.Chomping → List Char
  | .strip => ['-']
  | .clip => []
  | .keep => ['+']

/-- The chomping that keeps some line ends after the last line. -/
def Reader.Chomping.of : List Char → Reader.Chomping
  | [] => .strip
  | [_] => .clip
  | _ => .keep

namespace Reader

/-- The header of a block is read back with the end of its line; `further` says whether it gives the margin. -/
theorem reads_blockHeader {s : Scan} {t : List Char} (chomping : Chomping) (further : Bool)
    (hrest : s.rest = (if further then ['2'] else []) ++ chomping.sign ++ '\n' :: t) :
    Reads blockHeader s (chomping, if further then 2 else 0)
      (s.across ((if further then ['2'] else []) ++ chomping.sign ++ ['\n']) t) := by
  obtain ⟨rest, index, line, column, fresh, blocks, key, outer, tokens⟩ := s
  dsimp only at hrest
  subst hrest
  cases chomping <;> cases further <;> rfl

/-! ## Blank lines -/

variable {s : Scan} {text ahead : List Char}

theorem takeWhile_indent (n : Nat) (htext : ∀ c ∈ text.head?, c ≠ ' ') :
    (indent n ++ text).takeWhile (· = ' ') = indent n :=
  takeWhile_append (fun c hc => decide_eq_true (space_of_mem_indent c hc))
    fun c hc => decide_eq_false (htext c hc)

theorem le_length_takeWhile_indent (n : Nat) (text : List Char) :
    n ≤ ((indent n ++ text).takeWhile (· = ' ')).length := by
  rw [List.takeWhile_append_of_pos fun c hc => decide_eq_true (space_of_mem_indent c hc), List.length_append,
    indent, List.length_replicate]
  exact Nat.le_add_right n _

/-- At the first line that is not blank, the spaces of the margin are taken. -/
theorem reads_blankLines_end (margin : Option Nat) {n : Nat} (hrest : s.rest = indent n ++ text)
    (hcolumn : s.column = 0) (hmargin : margin = some n ∨ margin.all (n < ·) ∧ ∀ c ∈ text.head?, c ≠ ' ')
    (htext : ∀ c ∈ text.head?, c ≠ '\t' ∧ isBreak c = false) (hahead : s.rest.length ≤ ahead.length)
    (widest : Nat) (done : List Char) :
    Reads (blankLines margin ahead widest done) s (max widest n, done) (s.across (indent n) text) := by
  have hlength : (indent n).length = n := List.length_replicate
  cases ahead with
  | nil =>
    have hnil := List.length_eq_zero_iff.1 (Nat.le_zero.1 hahead)
    rw [hnil] at hrest
    obtain ⟨hindent, rfl⟩ := List.append_eq_nil_iff.1 hrest.symm
    have hn : n = 0 := by rw [← hlength, hindent, List.length_nil]
    rw [hn, Nat.max_zero, blankLines]
    exact hnil ▸ reads_pure _ s
  | cons a ahead =>
    have hdrop : ∀ k, k = n → Reads (drop k) s ⟨⟩ (s.across (indent n) text) := by
      rintro k rfl
      have hread := reads_drop (indent k) hrest
      rwa [hlength] at hread
    have hfound : (s.across (indent n) text).column = n := by
      rw [(s.across_column_line text (isBreak_of_spaces space_of_mem_indent)).1, hcolumn, hlength, Nat.zero_add]
    rw [blankLines]
    refine (reads_get s).bind ((hdrop _ ?_).bind ((reads_get _).bind ?_))
    · rw [hrest, hcolumn]
      obtain rfl | ⟨hless, hspace⟩ := hmargin
      · exact Nat.min_eq_right (le_length_takeWhile_indent n text)
      · rw [takeWhile_indent n hspace, hlength]
        cases margin with
        | none => rfl
        | some m => exact Nat.min_eq_left (Nat.le_of_lt (of_decide_eq_true hless))
    · rw [hfound, Scan.across_rest, if_neg fun h => (htext '\t' h.1).1 rfl]
      split
      · rename_i c text
        rw [(htext c rfl).2, if_neg Bool.false_ne_true]
        exact reads_pure _ _
      · exact reads_pure _ _

theorem reads_blankLines (margin : Nat) {n : Nat} {v : List Char} (hv : ∀ c ∈ v, isBreak c = true)
    (hrest : s.rest = v ++ (indent n ++ text)) (hcolumn : s.column = 0)
    (hmargin : n = margin ∨ n < margin ∧ ∀ c ∈ text.head?, c ≠ ' ')
    (htext : ∀ c ∈ text.head?, c ≠ '\t' ∧ isBreak c = false) (hahead : s.rest.length ≤ ahead.length)
    (widest : Nat) (done : List Char) :
    ∃ widest', Reads (blankLines (some margin) ahead widest done) s (widest', v.reverse ++ done)
      (s.across (v ++ indent n) text) := by
  induction v generalizing s ahead widest done with
  | nil =>
    refine ⟨max widest n, reads_blankLines_end (some margin) hrest hcolumn ?_ htext hahead widest done⟩
    exact hmargin.imp (congrArg some ·.symm) (And.imp_left decide_eq_true)
  | cons c v ih =>
    have hc := hv c List.mem_cons_self
    have hfirst : s.rest = [c] ++ (v ++ (indent n ++ text)) := hrest
    obtain ⟨a, ahead, rfl, hmore⟩ := exists_ahead hahead hfirst (List.cons_ne_nil _ _)
    have hcolumn' := (s.across_break (v ++ (indent n ++ text)) (w := []) (v := []) hc (by simp)).1
    have htail : ∀ d ∈ v, isBreak d = true := fun d hd => hv d (List.mem_cons_of_mem c hd)
    obtain ⟨widest', hread⟩ := ih htail (s := s.across [c] _) rfl hcolumn' hmore (max widest s.column) (c :: done)
    refine ⟨widest', ?_⟩
    have hstay : ∀ k, k = 0 → Reads (drop k) s ⟨⟩ s := by
      rintro k rfl
      exact reads_drop [] rfl
    rw [blankLines]
    refine (reads_get s).bind ((hstay _ ?_).bind ((reads_get _).bind ?_))
    · dsimp only
      rw [hrest, List.cons_append, List.takeWhile_cons_of_neg, List.length_nil, Nat.zero_min]
      rw [decide_eq_true_eq]
      exact ne_space_of_isBreak hc
    · have htab : ¬(s.rest.head? = some '\t' ∧ (some margin).all (s.column < ·) = true) := by
        rintro ⟨h, -⟩
        rw [hrest] at h
        cases h
        exact absurd hc (by decide)
      rw [if_neg htab, hrest]
      dsimp only [List.cons_append]
      rw [hc, if_pos rfl]
      refine (reads_drop_one hrest).bind ?_
      rw [Scan.across_across] at hread
      rw [List.reverse_cons, List.append_assoc]
      exact hread

end Reader

/-! ## Lines -/

/-- A line of a block, without its end. -/
structure BlockLine (l : List Char) : Prop where
  ne_nil : l ≠ []
  inline : ∀ c ∈ l, Inline c

/-- The lines of a block from the middle of one on, with the chomping that keeps what follows the last of
them. -/
inductive BlockLines : Reader.Chomping → List Char → Prop
  | last {l v : List Char} (hl : BlockLine l) (hv : ∀ c ∈ v, isBreak c = true) : BlockLines (.of v) (l ++ v)
  | more {chomping : Reader.Chomping} {l v s : List Char} (hl : BlockLine l) (hne : v ≠ [])
    (hv : ∀ c ∈ v, isBreak c = true) (hs : BlockLines chomping s) : BlockLines chomping (l ++ (v ++ s))

theorem BlockLine.head {l : List Char} (h : BlockLine l) (text : List Char) :
    ∀ c ∈ (l ++ text).head?, Inline c := by
  intro c hc
  rw [List.head?_append_of_ne_nil _ h.ne_nil] at hc
  exact h.inline c (List.mem_of_mem_head? hc)

variable {margin : Nat}

theorem blockInside_line {l : List Char} (hl : ∀ c ∈ l, isBreak c = false) (s : List Char) :
    blockInside margin false (l ++ s) = l ++ blockInside margin false s := by
  induction l with
  | nil => rfl
  | cons c l ih =>
    rw [List.cons_append, blockInside, if_neg (by rw [hl c List.mem_cons_self]; exact Bool.false_ne_true),
      ih fun d hd => hl d (List.mem_cons_of_mem c hd)]
    rfl

theorem blockInside_of_breaks {v : List Char} (hv : ∀ c ∈ v, isBreak c = true) (fresh : Bool) :
    blockInside margin fresh v = v := by
  induction v generalizing fresh with
  | nil => rfl
  | cons c v ih =>
    rw [blockInside, if_pos (hv c List.mem_cons_self), ih fun d hd => hv d (List.mem_cons_of_mem c hd)]

theorem BlockLines.ne_nil {chomping : Reader.Chomping} {s : List Char} (h : BlockLines chomping s) : s ≠ [] := by
  cases h with
  | last hl => exact List.append_ne_nil_of_left_ne_nil hl.ne_nil _
  | more hl => exact List.append_ne_nil_of_left_ne_nil hl.ne_nil _

theorem BlockLines.head {chomping : Reader.Chomping} {s : List Char} (h : BlockLines chomping s) :
    ∀ c ∈ s.head?, Inline c := by
  cases h with
  | last hl => exact hl.head _
  | more hl => exact hl.head _

theorem BlockLines.head_inside {chomping : Reader.Chomping} {s : List Char} (h : BlockLines chomping s)
    (margin : Nat) (text : List Char) : ∀ c ∈ (blockInside margin false s ++ text).head?, Inline c := by
  cases h with
  | last hl =>
    rw [blockInside_line fun c hc => (hl.inline c hc).2, List.append_assoc]
    exact hl.head _
  | more hl =>
    rw [blockInside_line fun c hc => (hl.inline c hc).2, List.append_assoc]
    exact hl.head _

theorem BlockLines.head_inside_ne {chomping : Reader.Chomping} {s : List Char} (h : BlockLines chomping s)
    {d : Char} (hs : ∀ c ∈ s.head?, c ≠ d) (text : List Char) :
    ∀ c ∈ (blockInside margin false s ++ text).head?, c ≠ d := by
  obtain ⟨c, s, rfl⟩ := List.exists_cons_of_ne_nil h.ne_nil
  have hc : ¬isBreak c = true := by
    rw [(h.head c rfl).2]
    exact Bool.false_ne_true
  rw [blockInside, if_neg hc]
  exact hs

theorem blockInside_fresh (margin : Nat) {s : List Char} (hne : s ≠ []) (hs : ∀ c ∈ s.head?, isBreak c = false) :
    blockInside margin true s = indent margin ++ blockInside margin false s := by
  obtain ⟨c, s, rfl⟩ := List.exists_cons_of_ne_nil hne
  have hc : ¬isBreak c = true := by
    rw [hs c rfl]
    exact Bool.false_ne_true
  rw [blockInside, blockInside, if_neg hc, if_neg hc, if_pos rfl, if_neg Bool.false_ne_true, List.nil_append]

theorem blockInside_breaks {v : List Char} (hv : ∀ c ∈ v, isBreak c = true) (hne : v ≠ []) (fresh : Bool)
    (s : List Char) : blockInside margin fresh (v ++ s) = v ++ blockInside margin true s := by
  induction v generalizing fresh with
  | nil => exact absurd rfl hne
  | cons c v ih =>
    rw [List.cons_append, blockInside, if_pos (hv c List.mem_cons_self)]
    cases v with
    | nil => rfl
    | cons d v =>
      rw [ih (fun e he => hv e (List.mem_cons_of_mem c he)) (List.cons_ne_nil d v)]
      rfl

namespace Reader

variable {s t : Scan} {text ahead l v first more done : List Char} {chomping : Chomping} {str : String}

/-- A line and the way to the next one that is not blank. -/
theorem Reads.blockLines_line {b : Char} {v : List Char} {n : Nat} (hl : BlockLine l) (hb : isBreak b = true)
    (hv : ∀ c ∈ v, isBreak c = true) (hrest : s.rest = l ++ (b :: v ++ (indent n ++ text)))
    (hcolumn : s.column = margin) (hn : n = margin ∨ n < margin ∧ ∀ c ∈ text.head?, c ≠ ' ')
    (htext : ∀ c ∈ text.head?, c ≠ '\t' ∧ isBreak c = false) (a : Char) (blank : Bool)
    (h : ∀ blank, Reads (blockLines true chomping margin ahead blank [b] v
      (l.reverse ++ (first ++ more).reverse ++ done)) (s.across (l ++ (b :: v ++ indent n)) text) str t) :
    Reads (blockLines true chomping margin (a :: ahead) blank first more done) s str t := by
  have hne : s.rest.isEmpty = false := by
    rw [hrest, List.isEmpty_eq_false_iff]
    exact List.append_ne_nil_of_left_ne_nil hl.ne_nil _
  rw [List.cons_append] at hrest
  have hline : Reads (takeWhile (!isBreak ·)) s l (s.across l (b :: (v ++ (indent n ++ text)))) :=
    reads_takeWhile hrest (fun c hc => by rw [(hl.inline c hc).2]; rfl) fun c hc => by cases hc; rw [hb]; rfl
  have hbreak := reads_take [b] (s := s.across l (b :: (v ++ (indent n ++ text)))) rfl
  obtain ⟨widest, hblank⟩ := reads_blankLines margin
    (s := (s.across l (b :: (v ++ (indent n ++ text)))).across [b] (v ++ (indent n ++ text))) hv rfl
    (Scan.across_break (w := []) (v := []) _ _ hb (by simp)).1 hn htext (Nat.le_refl _) 0 []
  have hplace : l ++ [b] ++ (v ++ indent n) = l ++ (b :: v ++ indent n) := by
    simp only [List.append_assoc, List.cons_append, List.nil_append]
  rw [Scan.across_across, Scan.across_across, hplace, List.append_nil] at hblank
  rw [blockLines.eq_def]
  refine (reads_get s).bind ?_
  rw [hne, if_pos ⟨hcolumn, Bool.false_ne_true⟩]
  dsimp only
  refine hline.bind ((reads_get _).bind (hbreak.bind ((reads_get _).bind ?_)))
  rw [Scan.across_across]
  refine hblank.bind ?_
  dsimp only
  rw [List.reverse_reverse]
  exact h _

theorem across_line_column {b : Char} {v : List Char} {n : Nat} (hb : isBreak b = true)
    (hv : ∀ c ∈ v, isBreak c = true) : (s.across (l ++ (b :: v ++ indent n)) text).column = n := by
  rw [← s.across_across l _ text [], Scan.across_breaks _ text (List.cons_ne_nil b v)
    (List.forall_mem_cons.2 ⟨hb, hv⟩) (isBreak_of_spaces space_of_mem_indent), indent, List.length_replicate]

/-- What is left at the end of a block of the line ends after its last line. -/
def Chomping.kept (chomping : Chomping) (first more : List Char) : List Char :=
  match chomping with
  | .strip => []
  | .clip => first
  | .keep => first ++ more

theorem reads_blockLines_end (hcolumn : s.column ≠ margin) (chomping : Chomping) (ahead : List Char)
    (blank : Bool) (first more done : List Char) :
    Reads (blockLines true chomping margin ahead blank first more done) s
      (String.ofList (done.reverse ++ chomping.kept first more)) { s with fresh := true } := by
  rw [blockLines.eq_def]
  refine (reads_get s).bind ?_
  rw [if_neg fun h => hcolumn h.1]
  cases chomping <;> exact (reads_setFresh true s).bind (reads_pure _ _)

/-- The line ends after the last line, with one more if there are none. -/
theorem exists_ends (hv : ∀ c ∈ v, isBreak c = true) :
    ∃ b bs, v ++ (if v.isEmpty then ['\n'] else []) = b :: bs ∧ isBreak b = true ∧
      (∀ c ∈ bs, isBreak c = true) ∧ (Chomping.of v).kept [b] bs = v := by
  rcases v with _ | ⟨b, _ | ⟨c, v⟩⟩
  · exact ⟨'\n', [], rfl, by decide, by simp, rfl⟩
  · exact ⟨b, [], rfl, hv b List.mem_cons_self, by simp, rfl⟩
  · exact ⟨b, c :: v, List.append_nil _, hv b List.mem_cons_self, fun d hd => hv d (List.mem_cons_of_mem b hd),
      rfl⟩

/-- The end of the last line, if it is not in the text. -/
def lastEnd (cs : List Char) : List Char := if cs.getLast?.any isBreak then [] else ['\n']

theorem lastEnd_append (hl : BlockLine l) (hv : ∀ c ∈ v, isBreak c = true) :
    lastEnd (l ++ v) = if v.isEmpty then ['\n'] else [] := by
  unfold lastEnd
  by_cases hne : v = []
  · subst hne
    have hlast := (hl.inline _ (List.getLast_mem hl.ne_nil)).2
    rw [List.append_nil, List.getLast?_eq_some_getLast hl.ne_nil, Option.any_some, hlast]
    rfl
  · have hlast := hv _ (List.getLast_mem hne)
    rw [List.getLast?_append_of_ne_nil _ hne, List.getLast?_eq_some_getLast hne, Option.any_some, hlast,
      List.isEmpty_eq_false_iff.2 hne]
    rfl

/-- The lines of a block are read back, up to the next line that begins left of the margin. -/
theorem reads_blockLines {n : Nat} {cs : List Char} (hcs : BlockLines chomping cs)
    (htext : ∀ c ∈ text.head?, isWhite c = false) (hn : n < margin) (hahead : s.rest.length ≤ ahead.length)
    (hrest : s.rest = blockInside margin false cs ++ (lastEnd cs ++ (indent n ++ text)))
    (hcolumn : s.column = margin) (blank : Bool) (first more done : List Char) :
    Reads (blockLines true chomping margin ahead blank first more done) s
      (String.ofList (done.reverse ++ (first ++ (more ++ cs))))
      (s.acrossLine (blockInside margin false cs ++ (lastEnd cs ++ indent n)) text) := by
  -- the line ends in hand stand before a line and are kept once it is read; after the last one the sign decides
  induction hcs generalizing s ahead blank first more done with
  | last hl hv =>
    rename_i l v
    obtain ⟨b, bs, hends, hb, hbs, hkept⟩ := exists_ends hv
    have hlines : blockInside margin false (l ++ v) ++ (lastEnd (l ++ v) ++ indent n) =
        l ++ (b :: bs ++ indent n) := by
      rw [blockInside_line fun c hc => (hl.inline c hc).2, lastEnd_append hl hv, blockInside_of_breaks hv,
        ← hends]
      simp only [List.append_assoc]
    rw [← List.append_assoc (lastEnd (l ++ v)), ← List.append_assoc, hlines, List.append_assoc,
      List.append_assoc] at hrest
    obtain ⟨a, ahead, rfl, -⟩ := exists_ahead hahead hrest hl.ne_nil
    have hleft : (s.across (l ++ (b :: bs ++ indent n)) text).column ≠ margin := by
      rw [across_line_column hb hbs]
      exact Nat.ne_of_lt hn
    have hvalue : (l.reverse ++ (first ++ more).reverse ++ done).reverse ++ v =
        done.reverse ++ (first ++ (more ++ (l ++ v))) := by
      simp only [List.reverse_append, List.reverse_reverse, List.append_assoc]
    rw [hlines]
    refine .blockLines_line hl hb hbs hrest hcolumn (.inr ⟨hn, ne_of_not_white htext (by decide)⟩)
      (fun c hc => ⟨ne_of_not_white htext (by decide) c hc, isBreak_eq_false_of_isWhite (htext c hc)⟩) a blank
      fun blank => ?_
    have hread := reads_blockLines_end hleft (.of v) ahead blank [b] bs
      (l.reverse ++ (first ++ more).reverse ++ done)
    rw [hkept, hvalue] at hread
    exact hread
  | more hl hne hv hs ih =>
    rename_i chomping l v cs
    obtain ⟨b, bs, rfl⟩ := List.exists_cons_of_ne_nil hne
    have hb := hv b List.mem_cons_self
    have hbs : ∀ c ∈ bs, isBreak c = true := fun c hc => hv c (List.mem_cons_of_mem b hc)
    have hstart := hs.head_inside margin (lastEnd cs ++ (indent n ++ text))
    have hlines : blockInside margin false (l ++ (b :: bs ++ cs)) =
        l ++ (b :: bs ++ indent margin) ++ blockInside margin false cs := by
      rw [blockInside_line fun c hc => (hl.inline c hc).2, blockInside_breaks hv hne,
        blockInside_fresh margin hs.ne_nil fun c hc => (hs.head c hc).2]
      simp only [List.append_assoc]
    have hend : lastEnd (l ++ (b :: bs ++ cs)) = lastEnd cs := by
      rw [lastEnd, List.getLast?_append_of_ne_nil _ (List.append_ne_nil_of_left_ne_nil hne cs),
        List.getLast?_append_of_ne_nil _ hs.ne_nil]
      rfl
    have hvalue : (l.reverse ++ (first ++ more).reverse ++ done).reverse ++ ([b] ++ (bs ++ cs)) =
        done.reverse ++ (first ++ (more ++ (l ++ (b :: bs ++ cs)))) := by
      simp only [List.reverse_append, List.reverse_reverse, List.append_assoc, List.cons_append, List.nil_append]
    rw [hlines, hend] at hrest ⊢
    rw [List.append_assoc, List.append_assoc, List.append_assoc] at hrest
    obtain ⟨a, ahead, rfl, hmore⟩ := exists_ahead hahead hrest hl.ne_nil
    refine .blockLines_line hl hb hbs hrest hcolumn (.inl rfl)
      (fun c hc => ⟨(hstart c hc).ne_tab, (hstart c hc).2⟩) a blank fun blank => ?_
    rw [← hvalue, List.append_assoc _ (blockInside margin false cs), ← Scan.across_acrossLine]
    refine ih ?_ rfl (across_line_column hb hbs) blank [b] bs _
    refine Nat.le_trans ?_ hmore
    simp only [Scan.across_rest, List.length_append]
    omega

end Reader

/-! ## Blocks -/

/-- A text that begins with a line falls into lines. -/
theorem exists_blockLines {cs : List Char} (hne : cs ≠ []) (hprintable : ∀ c ∈ cs, isPrintable c = true)
    (hhead : ∀ c ∈ cs.head?, isBreak c = false) : ∃ chomping, BlockLines chomping cs := by
  induction hn : cs.length using Nat.strongRecOn generalizing cs with
  | ind n ih =>
    obtain ⟨l, r, rfl, hl, hr⟩ := exists_row (fun c => !isBreak c) cs
    have hline : BlockLine l := by
      refine ⟨?_, fun c hc => ⟨hprintable c (List.mem_append_left r hc), by simpa using hl c hc⟩⟩
      rintro rfl
      obtain ⟨c, r, rfl⟩ := List.exists_cons_of_ne_nil hne
      have hc : isBreak c = true := by simpa using hr c rfl
      exact absurd hc (by rw [hhead c rfl]; exact Bool.false_ne_true)
    obtain ⟨v, cs, rfl, hv, hcs⟩ := exists_row isBreak r
    by_cases hnil : cs = []
    · subst hnil
      rw [List.append_nil]
      exact ⟨_, .last hline hv⟩
    · have hvne : v ≠ [] := by
        rintro rfl
        obtain ⟨c, cs, rfl⟩ := List.exists_cons_of_ne_nil hnil
        have hc : isBreak c = true := by simpa using hr c rfl
        exact absurd hc (by rw [hcs c rfl]; exact Bool.false_ne_true)
      have hshort : cs.length < n := by
        have hpos := List.length_pos_iff.2 hline.ne_nil
        rw [← hn, List.length_append, List.length_append]
        omega
      obtain ⟨chomping, hlines⟩ := ih _ hshort hnil
        (fun c hc => hprintable c (List.mem_append_right l (List.mem_append_right v hc))) hcs rfl
      exact ⟨chomping, .more hline hvne hv hlines⟩

/-- The last of the lines and what follows it. -/
theorem BlockLines.exists_last {chomping : Reader.Chomping} {cs : List Char} (h : BlockLines chomping cs) :
    ∃ before l v, cs = before ++ (l ++ v) ∧ BlockLine l ∧ (∀ c ∈ v, isBreak c = true) ∧ chomping = .of v := by
  induction h with
  | last hl hv => exact ⟨[], _, _, rfl, hl, hv, rfl⟩
  | more hl hne hv hs ih =>
    rename_i l v _
    obtain ⟨before, l', v', rfl, hl', hv', hchomping⟩ := ih
    refine ⟨l ++ (v ++ before), l', v', ?_, hl', hv', hchomping⟩
    simp only [List.append_assoc]

/-- Whether the header gives the margin. -/
def furtherSign (cs : List Char) : List Char := if cs.head?.any Plain.isGap then ['2'] else []

theorem blockHeader_lines {chomping : Reader.Chomping} {cs : List Char} (h : BlockLines chomping cs)
    (v : List Char) : blockHeader (v ++ cs) = '|' :: furtherSign (v ++ cs) ++ chomping.sign := by
  obtain ⟨before, l, u, rfl, hl, hu, rfl⟩ := h.exists_last
  obtain ⟨init, c, rfl⟩ := (List.eq_nil_or_concat' l).resolve_left hl.ne_nil
  have hc : isBreak c = false := (hl.inline c (by simp)).2
  have hreverse : (v ++ (before ++ (init ++ [c] ++ u))).reverse =
      u.reverse ++ c :: (v ++ (before ++ init)).reverse := by simp
  unfold blockHeader furtherSign
  rw [hreverse]
  rcases hends : u.reverse with _ | ⟨b, _ | ⟨d, w⟩⟩
  · rw [List.reverse_eq_nil_iff.1 hends, List.nil_append]
    cases (v ++ (before ++ init)).reverse <;> simp [hc, Reader.Chomping.of, Reader.Chomping.sign]
  · have hb : isBreak b = true := hu b (by rw [List.reverse_eq_cons_iff.1 hends]; simp)
    rw [List.reverse_eq_cons_iff.1 hends]
    simp [hb, hc, Reader.Chomping.of, Reader.Chomping.sign]
  · have hlong : 2 ≤ u.length := by
      rw [← List.length_reverse, hends]
      exact Nat.le_add_left _ _
    obtain ⟨x, _ | ⟨y, z⟩, rfl⟩ := List.exists_cons_of_length_pos (Nat.lt_of_lt_of_le (by decide) hlong)
    · contradiction
    · have hb : isBreak b = true := hu b (by rw [← List.mem_reverse, hends]; simp)
      have hd : isBreak d = true := hu d (by rw [← List.mem_reverse, hends]; simp)
      simp [hb, hd, Reader.Chomping.of, Reader.Chomping.sign]

theorem blockHeader_breaks {v : List Char} (hne : v ≠ []) (hv : ∀ c ∈ v, isBreak c = true) :
    blockHeader v = '|' :: '2' :: Reader.Chomping.keep.sign := by
  have hgap : v.head?.any Plain.isGap = true := by
    obtain ⟨c, v, rfl⟩ := List.exists_cons_of_ne_nil hne
    rw [List.head?_cons, Option.any_some, Plain.isGap, hv c List.mem_cons_self, Bool.or_true]
  have hbreak : ∀ c ∈ v.reverse, isBreak c = true := fun c hc => hv c (List.mem_reverse.1 hc)
  unfold blockHeader
  rw [hgap, if_pos rfl]
  rcases hends : v.reverse with _ | ⟨b, _ | ⟨d, w⟩⟩
  · exact absurd (List.reverse_eq_nil_iff.1 hends) hne
  · simp [hbreak b (by simp [hends]), Reader.Chomping.sign]
  · simp [hbreak b (by simp [hends]), hbreak d (by simp [hends]), Reader.Chomping.sign]

theorem blockInside_fresh_breaks {chomping : Reader.Chomping} {cs v : List Char} (h : BlockLines chomping cs)
    (hv : ∀ c ∈ v, isBreak c = true) : blockInside margin true (v ++ cs) =
      v ++ (indent margin ++ blockInside margin false cs) := by
  have hfresh := blockInside_fresh margin h.ne_nil fun c hc => (h.head c hc).2
  by_cases hne : v = []
  · rw [hne, List.nil_append, List.nil_append, hfresh]
  · rw [blockInside_breaks hv hne, hfresh]

namespace Reader

variable {s t u : Scan} {text body v : List Char} {base widest : Nat} {chomping : Chomping} {str : String}

/-- Past the line ends before the first line. -/
theorem across_blank_column {n : Nat} (text : List Char) (hcolumn : s.column = 0)
    (hv : ∀ c ∈ v, isBreak c = true) : (s.across (v ++ indent n) text).column = n := by
  have hindent : ∀ c ∈ indent n, isBreak c = false := isBreak_of_spaces space_of_mem_indent
  have hlength : (indent n).length = n := List.length_replicate
  by_cases hne : v = []
  · rw [hne, List.nil_append, (s.across_column_line text hindent).1, hcolumn, hlength, Nat.zero_add]
  · rw [s.across_breaks text hne hv hindent, hlength]

/-- After a header that gives the margin, a text of lines. -/
theorem reads_given_lines {cs : List Char} {n : Nat} (hcs : BlockLines chomping cs)
    (hv : ∀ c ∈ v, isBreak c = true) (htext : ∀ c ∈ text.head?, isWhite c = false) (hn : n < margin)
    (hcolumn : s.column = 0)
    (hrest : s.rest = v ++ (indent margin ++ (blockInside margin false cs ++ (lastEnd cs ++ (indent n ++ text))))) :
    Reads (blankLines (some margin) s.rest 0 [] >>= fun blank =>
        blockLines true chomping margin s.rest false [] blank.2.reverse [])
      s (String.ofList (v ++ cs))
      (s.acrossLine (v ++ (indent margin ++ (blockInside margin false cs ++ (lastEnd cs ++ indent n))))
        text) := by
  have hstart := hcs.head_inside margin (lastEnd cs ++ (indent n ++ text))
  obtain ⟨widest, hblank⟩ := reads_blankLines margin hv hrest hcolumn (.inl rfl)
    (fun c hc => ⟨(hstart c hc).ne_tab, (hstart c hc).2⟩) (Nat.le_refl _) 0 []
  have hahead : (blockInside margin false cs ++ (lastEnd cs ++ (indent n ++ text))).length ≤ s.rest.length := by
    simp only [hrest, List.length_append]
    omega
  have hlines := reads_blockLines hcs htext hn (s := s.across (v ++ indent margin) _) hahead rfl
    (across_blank_column _ hcolumn hv) false [] v []
  rw [Scan.across_acrossLine, List.append_assoc] at hlines
  refine hblank.bind ?_
  dsimp only
  rw [List.append_nil, List.reverse_reverse]
  exact hlines

/-- After such a header, a text of line ends. -/
theorem reads_given_breaks {n : Nat} (hv : ∀ c ∈ v, isBreak c = true)
    (htext : ∀ c ∈ text.head?, isWhite c = false) (hn : n < margin) (hcolumn : s.column = 0)
    (hrest : s.rest = v ++ (indent n ++ text)) :
    Reads (blankLines (some margin) s.rest 0 [] >>= fun blank =>
        blockLines true .keep margin s.rest false [] blank.2.reverse [])
      s (String.ofList v) (s.acrossLine (v ++ indent n) text) := by
  obtain ⟨widest, hblank⟩ := reads_blankLines margin hv hrest hcolumn
    (.inr ⟨hn, ne_of_not_white htext (by decide)⟩)
    (fun c hc => ⟨ne_of_not_white htext (by decide) c hc, isBreak_eq_false_of_isWhite (htext c hc)⟩)
    (Nat.le_refl _) 0 []
  have hleft : (s.across (v ++ indent n) text).column ≠ margin := by
    rw [across_blank_column text hcolumn hv]
    exact Nat.ne_of_lt hn
  refine hblank.bind ?_
  dsimp only
  rw [List.append_nil, List.reverse_reverse]
  exact reads_blockLines_end hleft .keep s.rest false [] v []

/-- After a header that does not give the margin, a text whose first line shows it. -/
theorem reads_shown_lines {cs : List Char} {n : Nat} (hcs : BlockLines chomping cs)
    (hspace : ∀ c ∈ cs.head?, c ≠ ' ') (htext : ∀ c ∈ text.head?, isWhite c = false) (hn : n < base + 2)
    (hcolumn : s.column = 0)
    (hrest : s.rest = indent (base + 2) ++ (blockInside (base + 2) false cs ++ (lastEnd cs ++ (indent n ++ text)))) :
    Reads (blankLines none s.rest 0 [] >>= fun blank =>
        blockLines true chomping (max (max blank.1 (base + 1)) 1) s.rest false [] blank.2.reverse [])
      s (String.ofList cs)
      (s.acrossLine (indent (base + 2) ++ (blockInside (base + 2) false cs ++ (lastEnd cs ++ indent n)))
        text) := by
  have hstart := hcs.head_inside (base + 2) (lastEnd cs ++ (indent n ++ text))
  have hblank := reads_blankLines_end none hrest hcolumn (.inr ⟨rfl, hcs.head_inside_ne hspace _⟩)
    (fun c hc => ⟨(hstart c hc).ne_tab, (hstart c hc).2⟩) (Nat.le_refl _) 0 []
  have hahead : (blockInside (base + 2) false cs ++ (lastEnd cs ++ (indent n ++ text))).length ≤
      s.rest.length := by
    simp only [hrest, List.length_append]
    omega
  have hblankColumn := across_blank_column (v := []) (n := base + 2)
    (blockInside (base + 2) false cs ++ (lastEnd cs ++ (indent n ++ text))) hcolumn (by simp)
  have hlines := reads_blockLines hcs htext hn hahead rfl hblankColumn false [] [] []
  have hmargin : max (max (max 0 (base + 2)) (base + 1)) 1 = base + 2 := by omega
  rw [Scan.across_acrossLine] at hlines
  refine hblank.bind ?_
  dsimp only
  rw [hmargin]
  exact hlines

theorem reads_blockScalar_given (hrest : s.rest = '|' :: '2' :: (chomping.sign ++ '\n' :: body))
    (h : Reads (blankLines (some (base + 2)) body 0 [] >>= fun blank =>
        blockLines true chomping (base + 2) body false [] blank.2.reverse [])
      (s.across ('|' :: '2' :: (chomping.sign ++ ['\n'])) body) str t) :
    Reads (blockScalar true (base + 1)) s str t := by
  have hheader := reads_blockHeader (s := s.across ['|'] _) (t := body) chomping true rfl
  rw [Scan.across_across] at hheader
  unfold blockScalar
  exact (reads_drop_one hrest).bind (hheader.bind ((reads_get _).bind h))

theorem reads_blockScalar_shown (hrest : s.rest = '|' :: (chomping.sign ++ '\n' :: body))
    (h : Reads (blankLines none body 0 [] >>= fun blank =>
        blockLines true chomping (max (max blank.1 (base + 1)) 1) body false [] blank.2.reverse [])
      (s.across ('|' :: (chomping.sign ++ ['\n'])) body) str t) :
    Reads (blockScalar true (base + 1)) s str t := by
  have hheader := reads_blockHeader (s := s.across ['|'] _) (t := body) chomping false rfl
  rw [Scan.across_across] at hheader
  unfold blockScalar
  exact (reads_drop_one hrest).bind (hheader.bind ((reads_get _).bind h))

theorem across_header_column (w : List Char) : (s.across (w ++ ['\n']) text).column = 0 :=
  (s.across_break (v := []) text (by decide) (by simp)).1

/-- A block is read back, up to the next line that begins left of its margin. -/
theorem reads_blockScalar {n : Nat} {cs : List Char} (hne : cs ≠ [])
    (hprintable : ∀ c ∈ cs, isPrintable c = true) (htext : ∀ c ∈ text.head?, isWhite c = false) (hn : n ≤ base)
    (hrest : s.rest = Yaml.blockHeader cs ++ ('\n' :: (blockInside (base + 2) true cs ++ (lastEnd cs ++
      (indent n ++ text))))) :
    Reads (blockScalar true (base + 1)) s (String.ofList cs) (s.acrossLine (Yaml.blockHeader cs ++
      ('\n' :: (blockInside (base + 2) true cs ++ (lastEnd cs ++ indent n)))) text) := by
  have hn' : n < base + 2 := by omega
  obtain ⟨v, cs, rfl, hv, hcs⟩ := exists_row isBreak cs
  by_cases hnil : cs = []
  · -- nothing but line ends
    subst hnil
    rw [List.append_nil] at hne hrest ⊢
    have hend : lastEnd v = [] := by
      rw [lastEnd, List.getLast?_eq_some_getLast hne, Option.any_some, hv _ (List.getLast_mem hne), if_pos rfl]
    rw [blockHeader_breaks hne hv, blockInside_of_breaks hv, hend, List.nil_append] at hrest ⊢
    have hread := reads_given_breaks (s := s.across ('|' :: '2' :: Chomping.keep.sign ++ ['\n']) _) hv htext hn'
      (across_header_column _) rfl
    rw [Scan.across_acrossLine] at hread
    exact reads_blockScalar_given hrest hread
  · obtain ⟨chomping, hlines⟩ := exists_blockLines hnil
      (fun c hc => hprintable c (List.mem_append_right v hc)) hcs
    have hend : lastEnd (v ++ cs) = lastEnd cs := by
      rw [lastEnd, List.getLast?_append_of_ne_nil _ hnil]
      rfl
    rw [blockHeader_lines hlines, blockInside_fresh_breaks hlines hv, hend] at hrest ⊢
    by_cases hgap : (v ++ cs).head?.any Plain.isGap = true
    · rw [furtherSign, if_pos hgap] at hrest ⊢
      have hread := reads_given_lines (s := s.across ('|' :: '2' :: chomping.sign ++ ['\n']) _) hlines hv htext
        hn' (across_header_column _) rfl
      rw [Scan.across_acrossLine] at hread
      simp only [List.append_assoc, List.cons_append, List.nil_append] at hrest hread ⊢
      exact reads_blockScalar_given hrest hread
    · rw [furtherSign, if_neg hgap] at hrest ⊢
      have hhead : ∀ c ∈ (v ++ cs).head?, ¬Plain.isGap c = true := fun c hc hspace =>
        hgap (by rw [Option.mem_def.1 hc]; exact hspace)
      obtain rfl : v = [] := by
        cases v with
        | nil => rfl
        | cons c v => exact absurd (by rw [Plain.isGap, hv c List.mem_cons_self, Bool.or_true]) (hhead c rfl)
      have hspace : ∀ c ∈ cs.head?, c ≠ ' ' := by
        rintro c hc rfl
        exact hhead ' ' hc rfl
      have hread := reads_shown_lines (s := s.across ('|' :: chomping.sign ++ ['\n']) _) hlines hspace htext hn'
        (across_header_column _) rfl
      rw [Scan.across_acrossLine] at hread
      simp only [List.append_assoc, List.cons_append, List.nil_append] at hrest hread ⊢
      exact reads_blockScalar_shown hrest hread

end Reader

end HistogramMonitor.Yaml
