import HistogramMonitor.Proofs.Yaml.Layout

/-!
# From the text of a document to its tokens

What is written consists of characters that need no escape, so reading takes it as it stands. The outline of a
document is a record with members: it stands in the first column with no block around it and ends with the text.
-/

namespace HistogramMonitor.Yaml

/-! ## Characters -/

/-- All characters can stand in a document as they are. -/
def AllPrintable (s : List Char) : Prop := ∀ c ∈ s, isPrintable c = true

instance (s : List Char) : Decidable (AllPrintable s) :=
  inferInstanceAs (Decidable (∀ c ∈ s, isPrintable c = true))

namespace AllPrintable

variable {s t : List Char} {c : Char}

theorem nil : AllPrintable [] := fun _ hc => absurd hc List.not_mem_nil

theorem append (hs : AllPrintable s) (ht : AllPrintable t) : AllPrintable (s ++ t) := fun c hc =>
  (List.mem_append.1 hc).elim (hs c) (ht c)

theorem cons (hc : isPrintable c = true) (hs : AllPrintable s) : AllPrintable (c :: s) :=
  List.forall_mem_cons.2 ⟨hc, hs⟩

theorem of_all (h : s.all isPrintable = true) : AllPrintable s := List.all_eq_true.1 h

theorem indent (n : Nat) : AllPrintable (indent n) := fun c hc => by
  rw [space_of_mem_indent c hc]
  decide

theorem of_inline (h : ∀ c ∈ s, Inline c) : AllPrintable s := fun c hc => (h c hc).1

theorem singleInside (margin : Nat) (hs : AllPrintable s) (fresh : Bool) :
    AllPrintable (singleInside margin fresh s) := by
  induction s generalizing fresh with
  | nil =>
    cases fresh with
    | true => exact indent margin
    | false => exact nil
  | cons c s ih =>
    have hc := hs c List.mem_cons_self
    have hs' := ih fun d hd => hs d (List.mem_cons_of_mem c hd)
    rw [Yaml.singleInside]
    split
    · exact cons hc (hs' true)
    · refine append (append ?_ ?_) (hs' false)
      · split
        · exact indent margin
        · exact nil
      · split
        · exact of_all rfl
        · exact cons hc nil

theorem doubleEscaped (s : List Char) : AllPrintable (s.flatMap doubleEscaped) := by
  intro d hd
  obtain ⟨c, -, hc⟩ := List.mem_flatMap.1 hd
  obtain ⟨hself, hinline, -, -⟩ | ⟨e, hself, hescape⟩ := Reader.doubleEscaped_cases c
  · rw [hself] at hc
    rw [List.mem_singleton.1 hc]
    exact hinline.1
  · rw [hself] at hc
    obtain rfl | hc := List.mem_cons.1 hc
    · decide
    · exact (hescape.inline d hc).1

theorem blockInside (margin : Nat) (hs : AllPrintable s) (fresh : Bool) :
    AllPrintable (blockInside margin fresh s) := by
  induction s generalizing fresh with
  | nil => exact nil
  | cons c s ih =>
    have hc := hs c List.mem_cons_self
    have hs' := ih fun d hd => hs d (List.mem_cons_of_mem c hd)
    rw [Yaml.blockInside]
    split
    · exact cons hc (hs' true)
    · refine append ?_ (cons hc (hs' false))
      split
      · exact indent margin
      · exact nil

theorem blockHeader (s : List Char) : AllPrintable (blockHeader s) := by
  refine cons (by decide) (append ?_ ?_)
  · split
    · exact of_all rfl
    · exact nil
  · split
    · split
      · split <;> exact of_all rfl
      · exact of_all rfl
    · split <;> exact of_all rfl
    · exact of_all rfl

theorem textLines {style : Style} (h : Reader.Holds style s) (margin : Nat) :
    AllPrintable (textLines margin style s) := by
  cases h with
  | plain h => exact append (of_inline (PlainText.of_allowed h).inline) (of_all rfl)
  | singleQuoted h => exact append (cons (by decide) (singleInside margin h.printable false)) (of_all rfl)
  | doubleQuoted => exact append (cons (by decide) (doubleEscaped s)) (of_all rfl)
  | literal h =>
    have hs : AllPrintable s := by
      simp only [blockAllowed, Bool.and_eq_true, List.all_eq_true] at h
      exact h.1.1.2
    refine append (append (blockHeader s) (cons (by decide) (blockInside margin hs true))) ?_
    split
    · exact nil
    · exact of_all rfl

end AllPrintable

namespace Outline

open HistogramMonitor.Yaml.Reader

theorem allPrintable_itemLines {items : List Outline} (h : ∀ o ∈ items, ∀ column, AllPrintable (o.lines column))
    (column : Nat) : AllPrintable (itemLines column items) := by
  induction items with
  | nil =>
    rw [itemLines]
    exact .nil
  | cons item items ih =>
    have hitem := h item List.mem_cons_self (column + 2)
    rw [itemLines]
    exact ((AllPrintable.indent column).append (.cons (by decide) (.cons (by decide) hitem))).append
      (ih (List.forall_mem_of_forall_mem_cons h))

theorem allPrintable_memberLines {members : List (String × Outline)} (hkeys : ∀ m ∈ members, isKey m.1 = true)
    (h : ∀ m ∈ members, ∀ column, AllPrintable (m.2.valueLines column)) (column : Nat) :
    AllPrintable (memberLines column members) := by
  induction members with
  | nil =>
    rw [memberLines]
    exact .nil
  | cons m members ih =>
    obtain ⟨key, value⟩ := m
    have hkey := AllPrintable.of_inline (Key.of_isKey (hkeys _ List.mem_cons_self)).inline
    have hvalue := h _ List.mem_cons_self column
    rw [memberLines]
    exact (((AllPrintable.indent column).append hkey).append (.cons (by decide) hvalue)).append
      (ih (List.forall_mem_of_forall_mem_cons hkeys) (List.forall_mem_of_forall_mem_cons h))

theorem allPrintable_list {item : Outline} {items : List Outline}
    (h : ∀ o ∈ item :: items, ∀ column, AllPrintable (o.lines column)) (column : Nat) :
    AllPrintable (lines column (.list (item :: items))) ∧
      AllPrintable (valueLines column (.list (item :: items))) := by
  have hitem := AllPrintable.cons (by decide : isPrintable ' ' = true) (h item List.mem_cons_self (column + 2))
  have hitems := (AllPrintable.cons (by decide : isPrintable '-' = true) hitem).append
    (allPrintable_itemLines (List.forall_mem_of_forall_mem_cons h) column)
  have hline := AllPrintable.cons (by decide : isPrintable '\n' = true)
    ((AllPrintable.indent column).append hitems)
  rw [lines, valueLines]
  refine ⟨hitems, ?_⟩
  simpa only [List.append_assoc, List.cons_append] using hline

theorem allPrintable_record {m : String × Outline} {members : List (String × Outline)}
    (hkeys : ∀ m' ∈ m :: members, isKey m'.1 = true)
    (h : ∀ m' ∈ m :: members, ∀ column, AllPrintable (m'.2.valueLines column)) (column : Nat) :
    AllPrintable (lines column (.record (m :: members))) ∧
      AllPrintable (valueLines column (.record (m :: members))) := by
  obtain ⟨key, value⟩ := m
  have hkey := AllPrintable.of_inline (Key.of_isKey (hkeys _ List.mem_cons_self)).inline
  have hmembers : ∀ column,
      AllPrintable (key.toList ++ ':' :: valueLines column value ++ memberLines column members) := fun column =>
    (hkey.append (.cons (by decide) (h _ List.mem_cons_self column))).append
      (allPrintable_memberLines (List.forall_mem_of_forall_mem_cons hkeys) (List.forall_mem_of_forall_mem_cons h)
        column)
  have hline := AllPrintable.cons (by decide : isPrintable '\n' = true)
    ((AllPrintable.indent (column + 2)).append (hmembers (column + 2)))
  rw [lines, valueLines]
  refine ⟨hmembers column, ?_⟩
  simpa only [List.append_assoc, List.cons_append] using hline

/-- What is written needs no escape. -/
theorem Writable.allPrintable {o : Outline} (h : Writable o) :
    ∀ column, AllPrintable (o.lines column) ∧ AllPrintable (o.valueLines column) := by
  induction h with
  | text s =>
    intro column
    rw [lines, valueLines]
    exact ⟨.textLines (holds_styleOf s) _, .cons (by decide) (.textLines (holds_styleOf s) _)⟩
  | number n =>
    intro column
    rw [lines, valueLines]
    exact ⟨.textLines (holds_number n) column, .cons (by decide) (.textLines (holds_number n) column)⟩
  | @list items _ ih =>
    cases items with
    | nil =>
      intro column
      rw [lines, valueLines]
      exact ⟨.of_all rfl, .of_all rfl⟩
    | cons item items => exact allPrintable_list fun o ho column => (ih o ho column).1
  | @record members hkeys _ ih =>
    cases members with
    | nil =>
      intro column
      rw [lines, valueLines]
      exact ⟨.of_all rfl, .of_all rfl⟩
    | cons m members => exact allPrintable_record hkeys fun m hm column => (ih m hm column).2

/-! ## Documents -/

/-- At the end of a document its block ends. -/
theorem reads_closeDocument {s : Scan} {column : Nat} {ts : List Token}
    (hs : s.At ⟨[], column, true, [0], ts⟩) (hkey : s.key = none) :
    ∃ t, Reads closeDocument s ⟨⟩ t ∧ t.tokens.toList = ts ++ [.blockEnd] := by
  have hclose : Reads (closeBlocks fun _ => true) s ⟨⟩
      { s with blocks := [], tokens := s.tokens.push .blockEnd } := by
    refine reads_modify_eq ?_
    rw [Scan.flow_eq_false hs.outer, if_neg Bool.false_ne_true, hs.blocks]
    rfl
  have hforget := reads_forgetKey (s := { s with blocks := [], tokens := s.tokens.push .blockEnd }) hkey
  refine ⟨_, hclose.bind (hforget.bind (reads_setFresh false _)), ?_⟩
  exact Array.toList_push.trans (congrArg (· ++ [.blockEnd]) hs.tokens)

/-- The text of a record with members is read as the tokens of the record. -/
theorem tokensOf_render {members : List (String × Outline)} (hne : members ≠ [])
    (h : Writable (.record members)) :
    ∃ a, tokensOf (render (.record members)) = .ok a ∧ a.toList = tokens (.record members) false := by
  obtain ⟨⟨key, value⟩, members, rfl⟩ := List.exists_cons_of_ne_nil hne
  have hprintable := (h.allPrintable 0).1
  have hbegins := h.begins 0 []
  have hreaches : Reaches ⟨lines 0 (.record ((key, value) :: members)), 0, true, [], []⟩
      ⟨[], 0, true, [0], .mappingStart :: memberTokens ((key, value) :: members)⟩ := by
    cases h with
    | record hkeys hmembers =>
      have hread := reaches_members hkeys (fun m hm => (hmembers m hm).readsBack.2) []
        (.first (by simp) : Enters 0 [] .mappingStart [] _) (Nat.le_refl 0) (by simp [Begins] : Begins [])
      rw [closed_entry (Nat.le_refl 0)] at hread
      rw [lines]
      simpa only [indent, List.replicate_zero, List.append_nil, List.nil_append, List.append_assoc, List.cons_append]
        using hread
  rw [List.append_nil] at hbegins
  rw [tokensOf, render, String.toList_ofList, unifyBreaks_eq hprintable,
    if_pos (List.all_eq_true.2 fun c hc => isAllowed_of_isPrintable (hprintable c hc))]
  generalize lines 0 (.record ((key, value) :: members)) = text at *
  have hskip : Scan.toToken { rest := text } = { rest := text } :=
    Scan.toToken_spaces (v := []) rfl (by simp) hbegins
  have hstart : Scan.At ⟨text, 0, true, [], []⟩ (Scan.toToken { rest := text }) := by
    rw [hskip]
    exact ⟨rfl, rfl, rfl, rfl, rfl, rfl⟩
  obtain ⟨s, hsettle, hs, hkey⟩ := reads_settle hstart (by simp [hskip])
  obtain ⟨t, hsteps, ht, htkey⟩ := hreaches s hs hkey
  obtain ⟨u, hclose, htokens⟩ := reads_closeDocument ht htkey
  have hlength : s.rest.length < text.length + 1 := by
    rw [hs.rest]
    exact Nat.lt_succ_self _
  have hread := reads_tokens hsettle hsteps ht.rest hclose hlength
  refine ⟨u.tokens, ?_, ?_⟩
  · rw [hread]
  · rw [htokens, tokens_record hne]
    rfl

end Outline

end HistogramMonitor.Yaml
