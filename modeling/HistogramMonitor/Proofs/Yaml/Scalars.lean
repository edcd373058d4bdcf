import HistogramMonitor.Proofs.Yaml.Keys
import HistogramMonitor.Proofs.Yaml.Literal
import HistogramMonitor.Proofs.Yaml.Quoted

/-!
# Reading back scalars

A text is read back from the style in which it was written, with the way to the next line. A quoted text leaves the
end of its line for what follows, while a plain text and a block take it to know that they end (`Ended`); for the
next token this makes no difference.
-/

namespace HistogramMonitor.Yaml

variable {s t u : Scan} {text : List Char} {n : Nat}

namespace Scan

/-- After a scalar, at the end of its line or past it. -/
inductive Ended (s : Scan) (n : Nat) (text : List Char) : Scan → Prop
  | line (w : List Char) : Ended s n text (s.across w ('\n' :: (indent n ++ text)))
  | passed (w : List Char) {d : Char} (hd : isBreak d = true) :
    Ended s n text (s.acrossLine (w ++ d :: indent n) text)

/-- Either way the next token is the same. -/
theorem Ended.next (h : Ended s n text u) {p : Place} (hs : s.At p) (htext : Begins text) (tok : Token) :
    (u.push tok).toToken.At ⟨text, n, true, p.blocks, p.tokens ++ [tok]⟩ ∧ s.line < (u.push tok).toToken.line ∧
      (u.push tok).toToken.key = s.key := by
  cases h with
  | line w =>
    obtain ⟨hnext, hline, hkey⟩ := ((hs.across w ('\n' :: (indent n ++ text))).push tok).line rfl htext
    exact ⟨hnext, Nat.lt_of_le_of_lt (line_le_across s ('\n' :: (indent n ++ text))) hline,
      hkey.trans (across_key s w ('\n' :: (indent n ++ text)))⟩
  | @passed w d hd =>
    obtain ⟨hend, hline⟩ := hs.acrossLine w hd n text
    have hskip : ((s.acrossLine (w ++ d :: indent n) text).push tok).toToken =
        (s.acrossLine (w ++ d :: indent n) text).push tok := toToken_spaces (v := []) rfl (by simp) htext
    rw [hskip]
    exact ⟨hend.push tok, hline, across_key s _ text⟩

/-- A key that may have begun to the right of the blocks need not be one. -/
theorem At.keyStart_optional {p : Place} (hs : s.At p) (h : ∀ b ∈ p.blocks.head?, b < p.column) :
    ∀ k ∈ s.keyStart, k.required = false ∧ k.line = s.line ∧ k.index = s.index := by
  intro k hk
  unfold keyStart at hk
  split at hk
  · cases hk
    refine ⟨decide_eq_false fun hhead => ?_, rfl, rfl⟩
    rw [hs.blocks, hs.column] at hhead
    exact absurd (h p.column hhead) (Nat.lt_irrefl _)
  · cases hk

theorem margin_eq {b : Nat} {bs : List Nat} (h : s.blocks = b :: bs) : s.margin = b + 1 := by
  rw [margin, h]

end Scan

theorem KeyStart.expired_of_line {k : KeyStart} (h : k.line < s.line) : k.expired s = true := by
  rw [expired, decide_eq_true h, Bool.true_or]

namespace Reader

variable {cs : List Char} {k b : Nat}

/-- A scalar to the right of its block, and what comes next. -/
theorem Reaches.of_flowScalar {c : Char} {f : Bool} {bs : List Nat} {ts : List Token} {tok : Token}
    (hshort : text.length < (c :: cs).length) (htext : Begins text) (hk : b < k) (hc : OpensScalar c cs)
    (h : ∀ s : Scan, s.At ⟨c :: cs, k, false, b :: bs, ts⟩ → ∃ u, Reads flowScalar s tok u ∧ s.Ended n text u) :
    Reaches ⟨c :: cs, k, f, b :: bs, ts⟩ (Place.closed ⟨text, n, true, b :: bs, ts ++ [tok]⟩) := by
  refine .of_token hshort fun s hs hkey => ?_
  have hbegun : Scan.At ⟨c :: cs, k, false, b :: bs, ts⟩ { s with key := s.keyStart, fresh := false } :=
    ⟨hs.rest, hs.column, rfl, hs.blocks, hs.tokens, hs.outer⟩
  obtain ⟨u, hread, hu⟩ := h _ hbegun
  obtain ⟨hnext, hline, hukey⟩ := hu.next hbegun htext tok
  refine ⟨_, .token_scalar hs.rest hs.outer (hs.not_marker (Nat.zero_lt_of_lt hk)) hc
    (reads_opening hkey hs.outer hread), hnext, ?_⟩
  intro key hmem
  rw [hukey] at hmem
  obtain ⟨hrequired, hkline, -⟩ := hs.keyStart_optional (by simpa using hk) key hmem
  exact ⟨hrequired, KeyStart.expired_of_line (by rw [hkline]; exact hline)⟩

/-! ## Plain texts -/

theorem opensScalar_plain {c : Char} (h : plainAllowed (c :: cs) = true) (text : List Char) :
    OpensScalar c (cs ++ '\n' :: text) := by
  refine ⟨fun hmem => ?_, fun hc => ?_⟩
  · have hsigns : ∀ d ∈ ['[', '\x7b', ']', '\x7d', ',', '*', '&', '!', '|', '>', '%'], isIndicator d = true :=
      List.all_eq_true.1 rfl
    exact absurd (hsigns c hmem) (by rw [isIndicator_of_plainAllowed h]; exact Bool.false_ne_true)
  · rw [wordEnds_append]
    exact ends_of_sign h hc

/-- A text as it is, and the way to the next line. -/
theorem reaches_plain (f : Bool) (bs : List Nat) (ts : List Token) (hcs : plainAllowed cs = true)
    (htext : Begins text) (hn : n ≤ b) (hk : b < k) :
    Reaches ⟨cs ++ '\n' :: (indent n ++ text), k, f, b :: bs, ts⟩
      (Place.closed ⟨text, n, true, b :: bs, ts ++ [.scalar (String.ofList cs) .plain]⟩) := by
  obtain ⟨c, v, rfl⟩ := List.exists_cons_of_ne_nil (PlainText.of_allowed hcs).ne_nil
  have hquotes : c ≠ '"' ∧ c ≠ '\'' := by
    have hindicator := isIndicator_of_plainAllowed hcs
    constructor <;> rintro rfl <;> exact absurd hindicator (by decide)
  refine .of_flowScalar ?_ htext hk (opensScalar_plain hcs _) fun s hs => ?_
  · simp
    omega
  · have hread := reads_plain hcs htext.dark hs.rest (Nat.lt_of_lt_of_eq hk hs.column.symm) (Nat.lt_succ_of_le hn)
    rw [hs.rest] at hread
    refine ⟨_, .flowScalar_plain hs.rest hs.outer (plainBegins_plain hcs _) hquotes ?_,
      .passed (c :: v) (d := '\n') (by decide)⟩
    rw [Scan.margin_eq hs.blocks]
    exact hread

/-! ## Quoted texts -/

theorem opensScalar_quote {c : Char} (hc : c = '"' ∨ c = '\'') (text : List Char) : OpensScalar c text := by
  obtain rfl | rfl := hc
  · exact ⟨by decide, by simp⟩
  · exact ⟨by decide, by simp⟩

/-- A text between single quotes, and the way to the next line. -/
theorem reaches_singleQuoted {margin : Nat} (f : Bool) (n : Nat) (bs : List Nat) (ts : List Token)
    (hmargin : 0 < margin) (hcs : SingleText cs) (htext : Begins text) (hk : b < k) :
    Reaches ⟨'\'' :: (singleInside margin false cs ++ '\'' :: '\n' :: (indent n ++ text)), k, f, b :: bs, ts⟩
      (Place.closed ⟨text, n, true, b :: bs, ts ++ [.scalar (String.ofList cs) .singleQuoted]⟩) := by
  refine .of_flowScalar ?_ htext hk (opensScalar_quote (.inr rfl) _)
    fun s hs => ⟨_, ?_, .line ('\'' :: (singleInside margin false cs ++ ['\'']))⟩
  · simp
    omega
  · have hrest : s.rest = '\'' :: (singleInside margin false cs ++ '\'' :: '\n' :: (indent n ++ text)) := hs.rest
    have hcolumn : 0 <
        (s.across ['\''] (singleInside margin false cs ++ '\'' :: '\n' :: (indent n ++ text))).column :=
      Scan.column_pos_across s _ (Nat.lt_of_lt_of_eq (Nat.zero_lt_of_lt hk) hs.column.symm)
        (List.forall_mem_singleton.2 rfl)
    have hinside := reads_singleQuotedRest hmargin (by simp) hcs (Nat.le_refl _) rfl hcolumn []
    rw [Scan.across_across] at hinside
    unfold flowScalar
    refine (reads_get s).bind ?_
    rw [hrest]
    exact (reads_drop_one hrest).bind (hinside.bind (reads_pure _ _))

/-- A text between double quotes, and the way to the next line. -/
theorem reaches_doubleQuoted (f : Bool) (n : Nat) (bs : List Nat) (ts : List Token) (cs : List Char)
    (htext : Begins text) (hk : b < k) :
    Reaches ⟨'"' :: (cs.flatMap doubleEscaped ++ '"' :: '\n' :: (indent n ++ text)), k, f, b :: bs, ts⟩
      (Place.closed ⟨text, n, true, b :: bs, ts ++ [.scalar (String.ofList cs) .doubleQuoted]⟩) := by
  refine .of_flowScalar ?_ htext hk (opensScalar_quote (.inl rfl) _)
    fun s hs => ⟨_, ?_, .line ('"' :: (cs.flatMap doubleEscaped ++ ['"']))⟩
  · simp
    omega
  · have hrest : s.rest = '"' :: (cs.flatMap doubleEscaped ++ '"' :: '\n' :: (indent n ++ text)) := hs.rest
    have hcolumn : 0 < (s.across ['"'] (cs.flatMap doubleEscaped ++ '"' :: '\n' :: (indent n ++ text))).column :=
      Scan.column_pos_across s _ (Nat.lt_of_lt_of_eq (Nat.zero_lt_of_lt hk) hs.column.symm)
        (List.forall_mem_singleton.2 rfl)
    have hinside := reads_doubleQuotedRest cs (Nat.le_refl _) rfl hcolumn []
    rw [Scan.across_across] at hinside
    unfold flowScalar
    refine (reads_get s).bind ?_
    rw [hrest]
    exact (reads_drop_one hrest).bind (hinside.bind (reads_pure _ _))

/-! ## Blocks -/

theorem getLast?_blockInside (margin : Nat) (fresh : Bool) (cs : List Char) :
    (blockInside margin fresh cs).getLast? = cs.getLast? := by
  induction cs generalizing fresh with
  | nil => rfl
  | cons c cs ih =>
    rw [blockInside]
    split
    · rw [List.getLast?_cons, List.getLast?_cons, ih]
    · rw [List.getLast?_append, List.getLast?_cons, List.getLast?_cons, ih]
      rfl

/-- The lines of a block end with the end of a line. -/
theorem exists_lastBreak (margin : Nat) (cs : List Char) :
    ∃ w d, isBreak d = true ∧ blockInside margin true cs ++ lastEnd cs = w ++ [d] := by
  by_cases hlast : cs.getLast?.any isBreak = true
  · rw [lastEnd, if_pos hlast, List.append_nil]
    obtain ⟨d, hd, hbreak⟩ := (Option.any_eq_true _ _).1 hlast
    rw [← getLast?_blockInside margin true] at hd
    obtain ⟨w, hw⟩ := List.getLast?_eq_some_iff.1 hd
    exact ⟨w, d, hbreak, hw⟩
  · rw [lastEnd, if_neg hlast]
    exact ⟨_, '\n', by decide, rfl⟩

/-- A text as a block, and the way to the next line. -/
theorem reaches_literal (f : Bool) (bs : List Nat) (ts : List Token) (hallowed : blockAllowed cs = true)
    (htext : Begins text) (hn : n ≤ b) (hk : b < k) :
    Reaches ⟨Yaml.blockHeader cs ++ ('\n' :: (blockInside (b + 2) true cs ++ (lastEnd cs ++ (indent n ++ text)))),
        k, f, b :: bs, ts⟩
      (Place.closed ⟨text, n, true, b :: bs, ts ++ [.scalar (String.ofList cs) .literal]⟩) := by
  simp only [blockAllowed, Bool.and_eq_true, Bool.not_eq_true', List.isEmpty_eq_false_iff, List.all_eq_true]
    at hallowed
  obtain ⟨⟨⟨hne, hprintable⟩, -⟩, -⟩ := hallowed
  obtain ⟨w, d, hd, hlast⟩ := exists_lastBreak (b + 2) cs
  have hplace : ∀ v : List Char, v ++ ('\n' :: (blockInside (b + 2) true cs ++ (lastEnd cs ++ indent n))) =
      v ++ '\n' :: w ++ d :: indent n := by
    intro v
    rw [← List.append_assoc (blockInside _ _ _), hlast]
    simp
  refine .of_token ?_ fun s hs hkey => ?_
  · simp
    omega
  · have hread := reads_blockScalar hne hprintable htext.dark hn hs.rest
    rw [hplace] at hread
    have hended : s.Ended n text (s.acrossLine (Yaml.blockHeader cs ++ '\n' :: w ++ d :: indent n) text) :=
      .passed _ hd
    generalize s.acrossLine _ _ = u at hread hended
    have hblock : Reads (block true) s ⟨⟩ (u.push (.scalar (String.ofList cs) .literal)) := by
      refine (reads_forgetKey hkey).bind ((reads_get s).bind ?_)
      rw [Scan.margin_eq hs.blocks]
      exact hread.bind (reads_emit _ _)
    obtain ⟨hnext, -, hukey⟩ := hended.next hs htext (.scalar (String.ofList cs) .literal)
    refine ⟨_, .token_block hs.rest hs.outer (hs.not_marker (Nat.zero_lt_of_lt hk)) hblock, hnext, ?_⟩
    rw [hukey, hkey]
    exact fun k hk => absurd hk (Option.not_mem_none k)

/-! ## Texts -/

/-- A text in a style that can hold it. -/
inductive Holds : Style → List Char → Prop
  | plain {s : List Char} (h : plainAllowed s = true) : Holds .plain s
  | singleQuoted {s : List Char} (h : SingleText s) : Holds .singleQuoted s
  | doubleQuoted (s : List Char) : Holds .doubleQuoted s
  | literal {s : List Char} (h : blockAllowed s = true) : Holds .literal s

theorem holds_styleOf (str : String) : Holds (styleOf str) str.toList := by
  unfold styleOf
  dsimp only
  split
  · split
    · exact .literal ‹_›
    · exact .doubleQuoted _
  · rename_i hbreaks
    split
    · rename_i hplain
      exact .plain (Bool.and_eq_true_iff.1 hplain).2
    · split
      · exact .singleQuoted (.of_allowed ‹_› (by simpa using hbreaks))
      · exact .doubleQuoted _

/-- A text is read back from each style that can hold it. -/
theorem reaches_textLines {style : Style} (f : Bool) (bs : List Nat) (ts : List Token) (h : Holds style cs)
    (htext : Begins text) (hn : n ≤ b) (hk : b < k) :
    Reaches ⟨textLines (b + 2) style cs ++ (indent n ++ text), k, f, b :: bs, ts⟩
      (Place.closed ⟨text, n, true, b :: bs, ts ++ [.scalar (String.ofList cs) style]⟩) := by
  cases h with
  | plain h =>
    have hread := reaches_plain f bs ts h htext hn hk
    simpa only [textLines, List.append_assoc, List.cons_append, List.nil_append] using hread
  | singleQuoted h =>
    have hread := reaches_singleQuoted f n bs ts (Nat.succ_pos (b + 1)) h htext hk
    simpa only [textLines, List.append_assoc, List.cons_append, List.nil_append] using hread
  | doubleQuoted =>
    have hread := reaches_doubleQuoted f n bs ts cs htext hk
    simpa only [textLines, List.append_assoc, List.cons_append, List.nil_append] using hread
  | literal h =>
    have hread := reaches_literal f bs ts h htext hn hk
    simpa only [textLines, lastEnd, List.append_assoc, List.cons_append, List.nil_append] using hread

theorem begins_textLines {style : Style} (h : Holds style cs) (margin : Nat) (more : List Char) :
    Begins (textLines margin style cs ++ more) := by
  cases h with
  | plain h =>
    have hcs := PlainText.of_allowed h
    obtain ⟨c, v, rfl⟩ := List.exists_cons_of_ne_nil hcs.ne_nil
    intro d hd
    cases hd
    have hc := hcs.inline c List.mem_cons_self
    obtain ⟨hspace, hcomment⟩ := hcs.first c rfl
    exact ⟨hc.isWhite hspace, hcomment, not_mark_of_isPrintable hc.1⟩
  | singleQuoted | doubleQuoted =>
    intro d hd
    cases hd
    decide
  | literal h =>
    intro d hd
    cases hd
    decide

/-! ## Numbers -/

/-- What consists of the characters of keys can stand as it is. -/
theorem plainAllowed_of_isKeyChar (hne : cs ≠ []) (hcs : ∀ c ∈ cs, isKeyChar c = true) :
    plainAllowed cs = true := by
  have hinline : ∀ c ∈ cs, Inline c := fun c hc =>
    inline_of_ascii (ascii_of_isKeyChar (hcs c hc)).1 (ascii_of_isKeyChar (hcs c hc)).2
  have hsign : ∀ c ∈ cs, ∀ d, isKeyChar d = false → c ≠ d := fun c hc d hd => ne_of_isKeyChar (hcs c hc) hd
  have hgap : ∀ c ∈ cs, Plain.isGap c = false := fun c hc => by
    rw [Plain.isGap, decide_eq_false (hsign c hc ' ' (by decide)), (hinline c hc).2, Bool.or_false]
  simp only [plainAllowed, Bool.and_eq_true, Bool.not_eq_true', List.isEmpty_eq_false_iff, List.all_eq_true,
    Plain.holdsColon, Plain.holdsComment, Bool.or_eq_false_iff, adjacent_eq_false_iff, decide_eq_false_iff_not]
  refine ⟨⟨⟨⟨⟨⟨hne, hinline⟩, ?_⟩, ?_, fun hlast => ?_⟩, ?_⟩, ?_⟩, ?_⟩
  · obtain ⟨c, v, rfl⟩ := List.exists_cons_of_ne_nil hne
    have hc := hcs c List.mem_cons_self
    have hne : ∀ d, isKeyChar d = false → c ≠ d := hsign c List.mem_cons_self
    unfold Plain.opensOther
    split
    · rename_i heq
      exact absurd (List.cons.inj heq).1 (hne '-' (by decide))
    · rename_i heq
      exact absurd (List.cons.inj heq).1 (hne '.' (by decide))
    · rename_i heq
      cases heq
      rw [isIndicator_of_isKeyChar hc, decide_eq_false (hne '?' (by decide)),
        decide_eq_false (hne '-' (by decide))]
      rfl
    · rfl
  · refine List.Pairwise.isChain (List.pairwise_of_forall_mem_list fun c hc d _ => ?_)
    rintro ⟨hcolon, -⟩
    exact hsign c hc ':' (by decide) (of_decide_eq_true hcolon)
  · exact hsign ':' (List.mem_of_getLast? hlast) ':' (by decide) rfl
  · refine List.Pairwise.isChain (List.pairwise_of_forall_mem_list fun c _ d hd => ?_)
    rintro ⟨-, hcomment⟩
    exact hsign d hd '#' (by decide) (of_decide_eq_true hcomment)
  · exact (Option.any_eq_false _ _).2 fun c hc => hgap c (List.mem_of_mem_head? hc)
  · exact (Option.any_eq_false _ _).2 fun c hc => hgap c (List.mem_of_getLast? hc)

theorem holds_number (n : Nat) : Holds .plain (toString n).toList := by
  rw [Nat.toString_eq_ofList_toDigits, String.toList_ofList]
  refine .plain (plainAllowed_of_isKeyChar Nat.toDigits_ne_nil fun c hc => ?_)
  have hdigit : c.isDigit := Nat.isDigit_of_mem_toDigits (by decide) (by decide) hc
  rw [isKeyChar, Char.isAlphanum, hdigit, Bool.or_true, Bool.true_or]

end Reader

end HistogramMonitor.Yaml
