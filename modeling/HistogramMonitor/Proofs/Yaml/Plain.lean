import HistogramMonitor.Proofs.Yaml.Reading

/-!
# Reading back plain scalars

A text that may stand as it is consists of words with gaps of spaces between them (`Words`), and it is read word
by word. After the last word follows the end of a line, and the scalar ends because the next line lies left of
its margin. A key is a single word, and what ends it is its colon.
-/

namespace HistogramMonitor.Yaml

/-! ## Words -/

/-- A word of a plain text. -/
structure PlainWord (w : List Char) : Prop where
  ne_nil : w ≠ []
  dark : ∀ c ∈ w, isWhite c = false
  comment : w.head? ≠ some '#'
  colon : w.getLast? ≠ some ':'

/-- A text of words with gaps of spaces between them. -/
inductive Words : List Char → Prop
  | last {w : List Char} (hw : PlainWord w) : Words w
  | more {w v s : List Char} (hw : PlainWord w) (hne : v ≠ []) (hv : ∀ c ∈ v, c = ' ') (hs : Words s) :
    Words (w ++ (v ++ s))

theorem PlainWord.head {w : List Char} (h : PlainWord w) (text : List Char) :
    ∀ c ∈ (w ++ text).head?, isWhite c = false := by
  intro c hc
  rw [List.head?_append_of_ne_nil _ h.ne_nil] at hc
  exact h.dark c (List.mem_of_mem_head? hc)

theorem Words.head {s : List Char} (h : Words s) (text : List Char) :
    ∀ c ∈ (s ++ text).head?, isWhite c = false := by
  cases h with
  | last hw => exact hw.head text
  | more hw =>
    rw [List.append_assoc]
    exact hw.head _

/-- What is asked of a text that stands as it is. -/
structure PlainText (s : List Char) : Prop where
  ne_nil : s ≠ []
  inline : ∀ c ∈ s, Inline c
  first : ∀ c ∈ s.head?, c ≠ ' ' ∧ c ≠ '#'
  last : ∀ c ∈ s.getLast?, c ≠ ' ' ∧ c ≠ ':'
  colon : s.IsChain fun c d => ¬(decide (c = ':') = true ∧ isWhite d = true)
  comment : s.IsChain fun c d => ¬(isWhite c = true ∧ decide (d = '#') = true)

namespace PlainText

variable {s w v : List Char}

theorem of_allowed (h : plainAllowed s = true) : PlainText s := by
  simp only [plainAllowed, Bool.and_eq_true, Bool.not_eq_true', List.isEmpty_eq_false_iff, List.all_eq_true,
    Plain.holdsColon, Plain.holdsComment, Bool.or_eq_false_iff, adjacent_eq_false_iff,
    decide_eq_false_iff_not] at h
  obtain ⟨⟨⟨⟨⟨⟨hne, hinline⟩, hother⟩, hcolon, hlast⟩, hcomment⟩, hfirst⟩, hgap⟩ := h
  refine ⟨hne, hinline, fun c hc => ⟨?_, ?_⟩, fun c hc => ⟨?_, ?_⟩, hcolon, hcomment⟩
  · rintro rfl
    rw [Option.mem_def.1 hc] at hfirst
    exact absurd hfirst (by decide)
  · rintro rfl
    obtain ⟨s, rfl⟩ := List.head?_eq_some_iff.1 hc
    exact absurd hother (by simp [Plain.opensOther, isIndicator])
  · rintro rfl
    rw [Option.mem_def.1 hc] at hgap
    exact absurd hgap (by decide)
  · rintro rfl
    exact hlast hc

theorem isWhite_eq (h : PlainText s) {c : Char} (hc : c ∈ s) : isWhite c = decide (c = ' ') := by
  by_cases hspace : c = ' '
  · subst hspace
    decide
  · rw [(h.inline c hc).isWhite hspace, decide_eq_false hspace]

/-- What follows a gap is asked the same. -/
theorem right (h : PlainText (w ++ (v ++ s))) (hne : v ≠ []) (hv : ∀ c ∈ v, isWhite c = true)
    (hs : ∀ c ∈ s.head?, isWhite c = false) : PlainText s := by
  have hmem : ∀ c ∈ v ++ s, c ∈ w ++ (v ++ s) := fun c hc => List.mem_append_right w hc
  have hchain := h.comment.right_of_append
  have hlast : v.getLast? = some (v.getLast hne) := List.getLast?_eq_some_getLast hne
  have hwhite : isWhite (v.getLast hne) = true := hv _ (List.getLast_mem hne)
  have hsne : s ≠ [] := by
    rintro rfl
    have hend : v.getLast hne ∈ (w ++ (v ++ [])).getLast? := by
      rw [List.append_nil, List.getLast?_append, hlast]
      rfl
    have hspace := (h.last _ hend).1
    rw [h.isWhite_eq (hmem _ (List.mem_append_left _ (List.getLast_mem hne)))] at hwhite
    exact hspace (of_decide_eq_true hwhite)
  refine ⟨hsne, fun c hc => h.inline c (hmem c (List.mem_append_right v hc)), fun c hc => ⟨?_, ?_⟩, ?_,
    h.colon.right_of_append.right_of_append, hchain.right_of_append⟩
  · rintro rfl
    exact absurd (hs ' ' hc) (by decide)
  · rintro rfl
    exact (List.isChain_append.1 hchain).2.2 _ hlast _ hc ⟨hwhite, by decide⟩
  · intro c hc
    refine h.last c ?_
    rw [← List.append_assoc, List.getLast?_append_of_ne_nil _ hsne]
    exact hc

theorem words (h : PlainText s) : Words s := by
  induction hn : s.length using Nat.strongRecOn generalizing s with
  | ind n ih =>
    obtain ⟨w, r, rfl, hw, hr⟩ := exists_row (fun c => !isWhite c) s
    have hdark : ∀ c ∈ w, isWhite c = false := fun c hc => by simpa using hw c hc
    have hwhite : ∀ c ∈ r.head?, isWhite c = true := fun c hc => by simpa using hr c hc
    have hne : w ≠ [] := by
      rintro rfl
      obtain ⟨c, r, rfl⟩ := List.exists_cons_of_ne_nil h.ne_nil
      have hc := hwhite c rfl
      rw [h.isWhite_eq List.mem_cons_self] at hc
      exact (h.first c rfl).1 (of_decide_eq_true hc)
    have hword : PlainWord w := by
      refine ⟨hne, hdark, ?_, fun hcolon => ?_⟩
      · intro hhead
        refine (h.first '#' ?_).2 rfl
        rw [List.head?_append, hhead]
        rfl
      · cases r with
        | nil =>
          rw [List.append_nil] at h
          exact (h.last _ hcolon).2 rfl
        | cons c r =>
          exact (List.isChain_append.1 h.colon).2.2 _ hcolon c rfl ⟨by decide, hwhite c rfl⟩
    obtain ⟨v, s, rfl, hv, hs⟩ := exists_row isWhite r
    by_cases hvne : v = []
    · subst hvne
      have hsnil : s = [] := by
        cases s with
        | nil => rfl
        | cons c s => exact absurd (hwhite c rfl) (by rw [hs c rfl]; exact Bool.false_ne_true)
      subst hsnil
      rw [List.append_nil, List.append_nil]
      exact .last hword
    · have hshort : s.length < n := by
        have hpos := List.length_pos_of_ne_nil hvne
        rw [← hn, List.length_append, List.length_append]
        omega
      refine .more hword hvne (fun c hc => ?_) (ih _ hshort (h.right hvne hv hs) rfl)
      have hc' := hv c hc
      rw [h.isWhite_eq (List.mem_append_right w (List.mem_append_left s hc))] at hc'
      exact of_decide_eq_true hc'

end PlainText

/-! ## What a plain text begins with -/

section Beginning

variable {c : Char} {cs : List Char}

/-- What stands first in a plain text. -/
theorem of_opensOther (h : Plain.opensOther (c :: cs) = false) :
    isIndicator c = false ∧ (c = '?' ∨ c = '-' → Plain.ends cs = false) := by
  unfold Plain.opensOther at h
  split at h
  · contradiction
  · contradiction
  · rename_i heq
    cases heq
    simp only [Bool.or_eq_false_iff, Bool.and_eq_false_iff, decide_eq_false_iff_not] at h
    refine ⟨h.1, fun hc => h.2.resolve_left ?_⟩
    exact fun hnot => hc.elim hnot.1 hnot.2
  · contradiction

theorem isIndicator_of_plainAllowed (h : plainAllowed (c :: cs) = true) : isIndicator c = false := by
  simp only [plainAllowed, Bool.and_eq_true, Bool.not_eq_true'] at h
  exact (of_opensOther h.1.1.1.1.2).1

/-- A sign at the start of a plain text has no gap after it. -/
theorem ends_of_sign (h : plainAllowed (c :: cs) = true) (hc : c = '-' ∨ c = '?' ∨ c = ':') :
    Plain.ends cs = false := by
  have hother : Plain.opensOther (c :: cs) = false := by
    simp only [plainAllowed, Bool.and_eq_true, Bool.not_eq_true'] at h
    exact h.1.1.1.1.2
  have htext := PlainText.of_allowed h
  obtain rfl | rfl | rfl := hc
  · exact (of_opensOther hother).2 (.inr rfl)
  · exact (of_opensOther hother).2 (.inl rfl)
  · cases cs with
    | nil => exact absurd rfl (htext.last ':' rfl).2
    | cons d cs => exact Bool.eq_false_iff.2 fun hd => (List.isChain_cons_cons.1 htext.colon).1 ⟨rfl, hd⟩

theorem wordEnds_append (cs text : List Char) : Scan.wordEnds (cs ++ '\n' :: text) = Plain.ends cs := by
  cases cs <;> rfl

theorem plainBegins_plain (h : plainAllowed (c :: cs) = true) (text : List Char) :
    Reader.plainBegins false (c :: (cs ++ '\n' :: text)) = true := by
  have hsign := fun hc => ends_of_sign h hc
  have hwhite : isWhite c = false := (PlainText.of_allowed h).words.head [] c rfl
  rw [Reader.plainBegins]
  split
  · rename_i hc
    cases cs with
    | nil => exact absurd (hsign (.inl hc)) (by decide)
    | cons d cs => simpa using (Bool.or_eq_false_iff.1 (hsign (.inl hc) : isWhite d = false)).1
  · split
    · rename_i hc
      rw [wordEnds_append, hsign (.inr (by simpa using hc))]
      rfl
    · rw [hwhite, isIndicator_of_plainAllowed h]
      rfl

end Beginning

/-! ## Reading words -/

theorem wordLength?_append {w text : List Char} (hw : ∀ c ∈ w, isWhite c = false) (hcolon : w.getLast? ≠ some ':')
    (htext : Reader.wordLength? false text = some 0) :
    Reader.wordLength? false (w ++ text) = some w.length := by
  induction w with
  | nil => exact htext
  | cons c w ih =>
    have hc : isWhite c = false := hw c List.mem_cons_self
    have hlast : w.getLast? ≠ some ':' ∧ ¬(c = ':' ∧ Scan.wordEnds (w ++ text) = true) := by
      cases w with
      | nil => exact ⟨by decide, fun h => hcolon (congrArg some h.1)⟩
      | cons d w =>
        refine ⟨by rwa [List.getLast?_cons_cons] at hcolon, fun h => ?_⟩
        have hd := hw d (List.mem_cons_of_mem c List.mem_cons_self)
        exact absurd h.2 (by rw [List.cons_append, Scan.wordEnds, hd]; exact Bool.false_ne_true)
    rw [List.cons_append, Reader.wordLength?, hc, if_neg Bool.false_ne_true, if_neg hlast.2,
      if_neg (by simp), if_neg (by simp), ih (fun d hd => hw d (List.mem_cons_of_mem c hd)) hlast.1]
    rfl

theorem wordLength?_white {text : List Char} (h : ∀ c ∈ text.head?, isWhite c = true) :
    Reader.wordLength? false text = some 0 := by
  cases text with
  | nil => rfl
  | cons c text => rw [Reader.wordLength?, if_pos (h c rfl)]

/-- Without tabs, no tab stands in the margin. -/
theorem tabInMargin_eq_false {white : List Char} (h : '\t' ∉ white) (margin : Nat) :
    tabInMargin margin white = false := by
  unfold tabInMargin
  refine List.foldlRecOn (motive := fun (acc : Option Nat × Bool) => acc.2 = false) white _ rfl
    fun acc hacc c hc => ?_
  obtain ⟨column, found⟩ := acc
  have hne : c ≠ '\t' := fun heq => h (heq ▸ hc)
  dsimp only at hacc ⊢
  rw [hacc]
  split
  · rfl
  · simp [hne]

namespace Reader

variable {s t : Scan} {text w v white ahead done : List Char} {margin : Nat} {str : String}

/-- A word and what follows it up to the next character in sight. -/
theorem Reads.plainRest_word (hw : PlainWord w) (hv : ∀ c ∈ v, isWhite c = true) (htab : '\t' ∉ v)
    (htext : ∀ c ∈ text.head?, isWhite c = false) (hrest : s.rest = w ++ (v ++ text))
    (hends : wordLength? false (v ++ text) = some 0) (hmarker : s.atMarker = false) (a : Char)
    (h : Reads (if v.isEmpty || decide ((s.across (w ++ v) text).column < margin) then do
        setFresh (v.any isBreak)
        return String.ofList (w.reverse ++ (foldWhite white).reverse ++ done).reverse
      else plainRest false margin ahead v (w.reverse ++ (foldWhite white).reverse ++ done))
      (s.across (w ++ v) text) str t) :
    Reads (plainRest false margin (a :: ahead) white done) s str t := by
  have hhead : ¬(s.atMarker = true ∨ s.rest.head? = some '#') := by
    rw [hmarker, hrest, List.head?_append_of_ne_nil _ hw.ne_nil]
    exact not_or.2 ⟨Bool.false_ne_true, hw.comment⟩
  have hlength := wordLength?_append hw.dark hw.colon hends
  have hpos := List.length_pos_of_ne_nil hw.ne_nil
  have hgap := reads_takeWhile (s := s.across w (v ++ text)) (p := isWhite) rfl hv htext
  rw [Scan.across_across] at hgap
  rw [plainRest]
  refine (reads_get s).bind ?_
  dsimp only
  rw [if_neg hhead, hrest, hlength]
  split
  · contradiction
  · simp_all
  · rename_i n _ heq
    cases heq
    refine (reads_take w hrest).bind (hgap.bind ?_)
    rw [tabInMargin_eq_false htab, if_neg Bool.false_ne_true]
    exact (reads_get _).bind h

/-- A word with a gap after it, when more follows on the line. -/
theorem Reads.plainRest_more (hw : PlainWord w) (hne : v ≠ []) (hv : ∀ c ∈ v, c = ' ')
    (htext : ∀ c ∈ text.head?, isWhite c = false) (hrest : s.rest = w ++ (v ++ text))
    (hmarker : s.atMarker = false) (hmargin : margin ≤ (s.across (w ++ v) text).column) (a : Char)
    (h : Reads (plainRest false margin ahead v (w.reverse ++ (foldWhite white).reverse ++ done))
      (s.across (w ++ v) text) str t) :
    Reads (plainRest false margin (a :: ahead) white done) s str t := by
  have hwhite := isWhite_of_spaces hv
  have hends : wordLength? false (v ++ text) = some 0 := by
    refine wordLength?_white fun c hc => ?_
    rw [List.head?_append_of_ne_nil _ hne] at hc
    exact hwhite c (List.mem_of_mem_head? hc)
  refine .plainRest_word hw hwhite (tab_not_mem_spaces hv) htext hrest hends hmarker a ?_
  rw [if_neg]
  · exact h
  · rw [List.isEmpty_eq_false_iff.2 hne, Bool.false_or, decide_eq_true_eq]
    exact Nat.not_lt_of_le hmargin

/-- The last word of a text, and the way to the next line, which begins left of the margin. -/
theorem Reads.plainRest_line {n : Nat} (hw : PlainWord w) (htext : ∀ c ∈ text.head?, isWhite c = false)
    (hrest : s.rest = w ++ ('\n' :: indent n ++ text)) (hmarker : s.atMarker = false)
    (hmargin : n < margin) (a : Char) :
    Reads (plainRest false margin (a :: ahead) white done) s
      (String.ofList (w.reverse ++ (foldWhite white).reverse ++ done).reverse)
      (s.acrossLine (w ++ '\n' :: indent n) text) := by
  have hwhite : ∀ c ∈ '\n' :: indent n, isWhite c = true :=
    List.forall_mem_cons.2 ⟨by decide, isWhite_of_spaces space_of_mem_indent⟩
  have htab : '\t' ∉ '\n' :: indent n := by
    rw [List.mem_cons, not_or]
    exact ⟨by decide, tab_not_mem_spaces space_of_mem_indent⟩
  have hends : wordLength? false ('\n' :: indent n ++ text) = some 0 := rfl
  have hcolumn : (s.across (w ++ '\n' :: indent n) text).column < margin := by
    rw [(s.across_break text (by decide) (isBreak_of_spaces space_of_mem_indent)).1, indent,
      List.length_replicate]
    exact hmargin
  refine .plainRest_word hw hwhite htab htext hrest hends hmarker a ?_
  rw [decide_eq_true hcolumn, Bool.or_true, if_pos rfl]
  exact (reads_setFresh _ _).bind (reads_pure _ _)

/-- A word with a colon after it that ends a key. -/
theorem reads_plainRest_key (hw : PlainWord w) (htext : Scan.wordEnds text = true)
    (hrest : s.rest = w ++ ':' :: text) (hmarker : s.atMarker = false) (a : Char) :
    Reads (plainRest false margin (a :: ahead) [] []) s (String.ofList w)
      { s.across w (':' :: text) with fresh := false } := by
  have hends : wordLength? false ([] ++ ':' :: text) = some 0 := by
    rw [List.nil_append, wordLength?, if_neg (by decide), if_pos ⟨rfl, htext⟩]
  refine .plainRest_word hw (fun c hc => absurd hc List.not_mem_nil) List.not_mem_nil ?_ hrest hends hmarker a ?_
  · intro c hc
    cases hc
    decide
  · rw [List.append_nil, List.isEmpty_nil, Bool.true_or, if_pos rfl]
    have hfold : foldWhite [] = [] := rfl
    rw [hfold, List.reverse_nil, List.append_nil, List.append_nil, List.reverse_reverse]
    exact (reads_setFresh _ _).bind (reads_pure _ _)

/-- A text that stands as it is is read back, with the way to the next line. -/
theorem reads_plainRest_words {n : Nat} {cs : List Char} (hcs : Words cs)
    (htext : ∀ c ∈ text.head?, isWhite c = false) (hahead : s.rest.length ≤ ahead.length)
    (hrest : s.rest = cs ++ ('\n' :: indent n ++ text)) (hcolumn : margin ≤ s.column)
    (hmargin : n < margin) (hwhite : ∀ c ∈ white, c = ' ') (done : List Char) :
    Reads (plainRest false margin ahead white done) s (String.ofList (done.reverse ++ (white ++ cs)))
      (s.acrossLine (cs ++ '\n' :: indent n) text) := by
  have hfold : ∀ {v : List Char}, (∀ c ∈ v, c = ' ') → foldWhite v = v := fun hv =>
    foldWhite_of_line (isBreak_of_spaces hv)
  -- a gap is taken with the word after it, so the one in hand goes along with the induction
  induction hcs generalizing s white ahead done with
  | last hw =>
    obtain ⟨a, ahead, rfl, -⟩ := exists_ahead hahead hrest hw.ne_nil
    rename_i w
    have hvalue : (w.reverse ++ (foldWhite white).reverse ++ done).reverse = done.reverse ++ (white ++ w) := by
      simp only [hfold hwhite, List.reverse_append, List.reverse_reverse, List.append_assoc]
    rw [← hvalue]
    exact .plainRest_line hw htext hrest (Scan.atMarker_eq_false (by omega)) hmargin a
  | more hw hne hv hs ih =>
    rename_i w v cs
    have hstart := hs.head ('\n' :: indent n ++ text)
    rw [List.append_assoc, List.append_assoc] at hrest
    obtain ⟨a, ahead, rfl, hmore⟩ := exists_ahead hahead hrest hw.ne_nil
    have hline : ∀ c ∈ w ++ v, isBreak c = false := fun c hc =>
      (List.mem_append.1 hc).elim (fun hc => isBreak_eq_false_of_isWhite (hw.dark c hc)) (isBreak_of_spaces hv c)
    have hcolumn' : margin ≤ (s.across (w ++ v) (cs ++ ('\n' :: indent n ++ text))).column := by
      rw [(s.across_column_line _ hline).1]
      omega
    rw [List.length_append] at hmore
    have hread := ih (Nat.le_of_add_left_le hmore) rfl hcolumn' hv
      (w.reverse ++ (foldWhite white).reverse ++ done)
    have hvalue : (w.reverse ++ white.reverse ++ done).reverse ++ (v ++ cs) =
        done.reverse ++ (white ++ (w ++ (v ++ cs))) := by
      simp only [List.reverse_append, List.reverse_reverse, List.append_assoc]
    have hplace : w ++ v ++ (cs ++ '\n' :: indent n) =
        w ++ (v ++ cs) ++ '\n' :: indent n := by
      simp only [List.append_assoc]
    rw [Scan.across_acrossLine, hfold hwhite, hvalue, hplace] at hread
    refine .plainRest_more hw hne hv hstart hrest (Scan.atMarker_eq_false (by omega)) hcolumn' a ?_
    rw [hfold hwhite]
    exact hread

/-- The same from the start of the scalar. -/
theorem reads_plain {n : Nat} {cs : List Char} (hcs : plainAllowed cs = true)
    (htext : ∀ c ∈ text.head?, isWhite c = false) (hrest : s.rest = cs ++ '\n' :: (indent n ++ text))
    (hcolumn : margin ≤ s.column) (hmargin : n < margin) :
    Reads (plainRest false margin s.rest [] []) s (String.ofList cs)
      (s.acrossLine (cs ++ '\n' :: indent n) text) :=
  reads_plainRest_words (PlainText.of_allowed hcs).words htext (Nat.le_refl _) hrest hcolumn hmargin
    (List.forall_mem_nil _) []

end Reader

end HistogramMonitor.Yaml
