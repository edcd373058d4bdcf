import HistogramMonitor.Proofs.Yaml.Entries
import HistogramMonitor.Proofs.Yaml.Plain

/-!
# Reading back keys

A key is a single word. It is read as a scalar first, and the place where it began is remembered (`reads_token_key`);
only the colon after it tells what it was, and then the tokens for the key, and for the mapping if it is the first
entry, go before that scalar (`reads_token_colon`).
-/

namespace HistogramMonitor.Yaml

/-! ## Keys -/

/-- The characters of the keys that are written. -/
def isKeyChar (c : Char) : Bool := c.isAlphanum || c = '_'

/-- Whether a text can be a key as it is. -/
def isKey (key : String) : Bool := !key.isEmpty && key.length ≤ 1024 && key.toList.all isKeyChar

theorem ne_of_isKeyChar {c d : Char} (h : isKeyChar c = true) (hd : isKeyChar d = false) : c ≠ d := by
  rintro rfl
  rw [hd] at h
  contradiction

theorem ascii_of_isKeyChar {c : Char} (h : isKeyChar c = true) : 0x20 ≤ c.toNat ∧ c.toNat ≤ 0x7e := by
  delta isKeyChar Char.isAlphanum Char.isAlpha Char.isUpper Char.isLower Char.isDigit at h
  simp only [Bool.or_eq_true, Bool.and_eq_true, decide_eq_true_eq, ge_iff_le, UInt32.le_iff_toNat_le] at h
  obtain ((h | h) | h) | rfl := h
  · exact ⟨le_trans (by decide) h.1, le_trans h.2 (by decide)⟩
  · exact ⟨le_trans (by decide) h.1, le_trans h.2 (by decide)⟩
  · exact ⟨le_trans (by decide) h.1, le_trans h.2 (by decide)⟩
  · decide

theorem utf8Size_of_isKeyChar {c : Char} (h : isKeyChar c = true) : c.utf8Size = 1 :=
  Char.utf8Size_eq_one_iff.2 (UInt32.le_iff_toNat_le.2 (le_trans (ascii_of_isKeyChar h).2 (by decide)))

theorem isIndicator_of_isKeyChar {c : Char} (h : isKeyChar c = true) : isIndicator c = false := by
  refine Bool.eq_false_iff.2 fun hmem => ?_
  have hnone : ∀ d ∈ ['#', ',', '[', ']', '\x7b', '\x7d', '&', '*', '!', '|', '>', '\'', '"', '%', '@', '\x60'],
    ¬ isKeyChar d = true := List.any_eq_false.1 rfl
  exact hnone c (List.contains_iff_mem.1 hmem) h

/-- What is asked of a key. -/
structure Key (w : List Char) : Prop where
  ne_nil : w ≠ []
  short : w.length ≤ 1024
  chars : ∀ c ∈ w, isKeyChar c = true

namespace Key

theorem of_isKey {key : String} (h : isKey key = true) : Key key.toList := by
  simp only [isKey, Bool.and_eq_true, Bool.not_eq_true', decide_eq_true_eq, List.all_eq_true] at h
  obtain ⟨⟨hne, hshort⟩, hchars⟩ := h
  refine ⟨?_, hshort, hchars⟩
  intro hnil
  rw [String.toList_eq_nil_iff.1 hnil] at hne
  contradiction

variable {w : List Char} (h : Key w)

include h

theorem inline : ∀ c ∈ w, Inline c := fun c hc =>
  inline_of_ascii (ascii_of_isKeyChar (h.chars c hc)).1 (ascii_of_isKeyChar (h.chars c hc)).2

theorem plainWord : PlainWord w where
  ne_nil := h.ne_nil
  dark c hc := (h.inline c hc).isWhite (ne_of_isKeyChar (h.chars c hc) (by decide))
  comment hc := ne_of_isKeyChar (h.chars '#' (List.mem_of_mem_head? hc)) (by decide : isKeyChar '#' = false) rfl
  colon hc := ne_of_isKeyChar (h.chars ':' (List.mem_of_getLast? hc)) (by decide : isKeyChar ':' = false) rfl

end Key

namespace Reader

variable {s t u : Scan} {text : List Char}

/-! ## From a key to its value -/

/-- What can be a scalar as it is read as one. -/
theorem Reads.flowScalar_plain {c : Char} {str : String} (hrest : s.rest = c :: text) (houter : s.outer = [])
    (hbegins : plainBegins false (c :: text) = true) (hquotes : c ≠ '"' ∧ c ≠ '\'')
    (h : Reads (plainRest false s.margin (c :: text) [] []) s str t) :
    Reads flowScalar s (.scalar str .plain) t := by
  unfold flowScalar
  refine (reads_get s).bind ?_
  rw [hrest, Scan.flow_eq_false houter]
  simp only [hquotes, List.cons.injEq, false_and, imp_self, implies_true, hbegins, if_true]
  exact h.bind (reads_pure _ t)

/-- The characters of a key begin a scalar. -/
theorem opensScalar_key {c : Char} (hc : isKeyChar c = true) (text : List Char) : OpensScalar c text := by
  refine ⟨fun hmem => ?_, ?_⟩
  · have hnone : ∀ d ∈ ['[', '\x7b', ']', '\x7d', ',', '*', '&', '!', '|', '>', '%'], ¬ isKeyChar d = true :=
      List.any_eq_false.1 rfl
    exact hnone c hmem hc
  · rintro (rfl | rfl | rfl) <;> exact absurd hc (by decide)

theorem plainBegins_key {c : Char} (hc : isKeyChar c = true) (text : List Char) :
    plainBegins false (c :: text) = true := by
  have hne : ∀ d, isKeyChar d = false → c ≠ d := fun d hd => ne_of_isKeyChar hc hd
  have hascii := ascii_of_isKeyChar hc
  have hwhite := (inline_of_ascii hascii.1 hascii.2).isWhite (hne ' ' (by decide))
  rw [plainBegins, if_neg (hne '-' (by decide)), if_neg, hwhite, isIndicator_of_isKeyChar hc]
  · rfl
  · rw [Bool.or_eq_true, decide_eq_true_eq, decide_eq_true_eq]
    exact not_or.2 ⟨hne '?' (by decide), hne ':' (by decide)⟩

/-- A key is read first as the scalar that it is, and where it began is remembered. -/
theorem reads_token_key {w : List Char} {column : Nat} {blocks : List Nat} {ts : List Token} (hw : Key w)
    (htext : Scan.wordEnds text = true) (hs : s.At ⟨w ++ ':' :: text, column, true, blocks, ts⟩)
    (hkey : s.key = none) :
    ∃ u k, Reads token s ⟨⟩ u ∧ u.key = some k ∧ k.place = ts.length ∧ k.column = column ∧ k.expired u = false ∧
      u.At ⟨':' :: text, column + w.length, false, blocks, ts ++ [.scalar (String.ofList w) .plain]⟩ := by
  have hstart : s.keyStart = some ⟨s.tokens.size, s.index, s.line, s.column, s.blocks.head? = some s.column⟩ :=
    if_pos hs.fresh
  have hbreak : ∀ c ∈ w, isBreak c = false := fun c hc => (hw.inline c hc).2
  obtain ⟨c, v, rfl⟩ := List.exists_cons_of_ne_nil hw.ne_nil
  have hc := hw.chars c List.mem_cons_self
  have hmarker := Scan.atMarker_of_head hs.rest (ne_of_isKeyChar hc (by decide)) (ne_of_isKeyChar hc (by decide))
  have hbegun : Scan.At ⟨(c :: v) ++ ':' :: text, column, false, blocks, ts⟩
      { s with key := s.keyStart, fresh := false } := ⟨hs.rest, hs.column, rfl, hs.blocks, hs.tokens, hs.outer⟩
  have hscalar := Reads.flowScalar_plain hbegun.rest hbegun.outer (plainBegins_key hc _)
    ⟨ne_of_isKeyChar hc (by decide), ne_of_isKeyChar hc (by decide)⟩
    (reads_plainRest_key hw.plainWord htext hbegun.rest hmarker c)
  have htoken := Reads.token_scalar hs.rest hs.outer hmarker (opensScalar_key hc _)
    (reads_opening hkey hs.outer hscalar)
  have hpassed := hbegun.inLine hbreak (':' :: text)
  have hline := (Scan.across_column_line { s with key := s.keyStart, fresh := false } (':' :: text) hbreak).2
  have hindex := Scan.across_index { s with key := s.keyStart, fresh := false } (':' :: text)
    fun d hd => utf8Size_of_isKeyChar (hw.chars d hd)
  refine ⟨_, _, htoken, (Scan.across_key _ _ (':' :: text)).trans hstart, ?_, hs.column, ?_, ?_⟩
  · rw [← Array.length_toList, hs.tokens]
  · have hshort := hw.short
    refine Bool.or_eq_false_iff.2 ⟨decide_eq_false ?_, decide_eq_false ?_⟩
    · exact (Nat.le_of_eq hline).not_gt
    · refine Nat.not_lt_of_le (le_trans (Nat.le_of_eq hindex) ?_)
      exact Nat.add_le_add_left hshort s.index
  · exact ⟨rfl, hpassed.column, rfl, hpassed.blocks, (hpassed.push _).tokens, hpassed.outer⟩

/-- A colon ends the key before it, and the tokens for the key and for the mapping go before that. -/
theorem reads_token_colon {k : KeyStart} {outer : List Nat} {opening ts us : List Token}
    (hrest : s.rest = ':' :: text) (htext : Scan.wordEnds text = true) (hkey : s.key = some k)
    (houter : s.outer = []) (htokens : s.tokens.toList = ts ++ us)
    (hplace : k.place = ts.length) (hentry : Enters k.column outer .mappingStart s.blocks opening) :
    ∃ u, Reads token s ⟨⟩ u ∧ u.key = none ∧
      u.At ⟨text, s.column + 1, false, k.column :: outer, ts ++ (opening ++ .key :: us) ++ [.value]⟩ := by
  have hmarker := Scan.atMarker_of_head hrest (by decide) (by decide)
  obtain ⟨a, ha, hopen⟩ := reads_openBlock (s := { s with tokens := s.tokens.insertIdxIfInBounds ts.length .key })
    hentry houter (toList_insert htokens .key)
  have hended : Scan.At ⟨':' :: text, s.column, false, k.column :: outer, ts ++ (opening ++ .key :: us)⟩
      { s with blocks := k.column :: outer, tokens := a, key := none, fresh := false } :=
    ⟨hrest, rfl, rfl, rfl, ha, houter⟩
  -- the tokens are put in where the key began, and only the one for the value goes at the end
  have hemit := reads_emitSigns [':'] hended.rest .value
  have hcolon : Reads colon s ⟨⟩ (Scan.push (Scan.across
      { s with blocks := k.column :: outer, tokens := a, key := none, fresh := false } [':'] text) .value) := by
    unfold colon
    refine (reads_get s).bind ?_
    rw [hkey]
    dsimp only
    rw [hplace]
    exact Reads.bind (reads_modify _ s) (hopen.bind (Reads.bind (reads_modify _ _) hemit))
  exact ⟨_, .token_colon hrest hmarker htext hcolon, Scan.across_key _ [':'] text,
    (hended.inLine (List.forall_mem_singleton.2 rfl) text).push .value⟩

/-- A key is read with its colon. -/
theorem reads_key {w : List Char} {column : Nat} {outer blocks : List Nat} {opening ts : List Token} (hw : Key w)
    (htext : Scan.wordEnds text = true) (hentry : Enters column outer .mappingStart blocks opening)
    (hs : s.At ⟨w ++ ':' :: text, column, true, blocks, ts⟩) (hkey : s.key = none) :
    ∃ t u, Step s t ∧ t.rest = ':' :: text ∧ Reads token t ⟨⟩ u ∧ u.key = none ∧
      u.At ⟨text, column + w.length + 1, false, column :: outer,
        ts ++ (opening ++ [.key, .scalar (String.ofList w) .plain, .value])⟩ := by
  obtain ⟨t, k, hscalar, htkey, hplace, rfl, hk, ht⟩ := reads_token_key hw htext hs hkey
  have hrest : t.rest = ':' :: text := ht.rest
  have hbegins : Begins (':' :: text) := by
    intro c hc
    cases hc
    decide
  -- between the key and its colon nothing is passed over, and the key may still end
  have hsettle : Reads settle t ⟨⟩ t := by
    refine reads_settle_kept ?_ ?_ (.inr ?_)
    · rw [Scan.toToken_spaces (v := []) hrest (by simp) hbegins, ← hrest, Scan.across_nil]
    · rw [htkey, ht.outer]
      intro key hmem
      cases List.mem_singleton.1 hmem
      exact hk
    · rw [ht.blocks, ht.column]
      exact fun b hb => le_trans (hentry.le b hb) (Nat.le_add_right _ _)
  obtain rfl : t.blocks = blocks := ht.blocks
  obtain ⟨u, hcolon, hukey, hu⟩ := reads_token_colon ht.rest htext htkey ht.outer ht.tokens hplace hentry
  refine ⟨t, u, ⟨t, hscalar, hsettle, ?_⟩, ht.rest, hcolon, hukey, ?_⟩
  · rw [ht.rest, hs.rest, List.length_append]
    exact Nat.lt_add_of_pos_left (List.length_pos_of_ne_nil hw.ne_nil)
  · rw [ht.column] at hu
    simpa only [List.append_assoc, List.cons_append, List.nil_append] using hu

/-- A key leads to what comes next after its colon. -/
theorem Reaches.of_key {w text : List Char} {column : Nat} {outer blocks : List Nat} {opening ts : List Token}
    {q : Place} (hw : Key w) (htext : Scan.wordEnds text = true)
    (hentry : Enters column outer .mappingStart blocks opening) (hshort : q.text.length ≤ text.length)
    (hnext : ∀ u : Scan, u.At ⟨text, column + w.length + 1, false, column :: outer,
        ts ++ (opening ++ [.key, .scalar (String.ofList w) .plain, .value])⟩ →
      u.toToken.At q ∧ u.toToken.key = u.key) :
    Reaches ⟨w ++ ':' :: text, column, true, blocks, ts⟩ q.closed := by
  intro s hs hkey
  obtain ⟨t, u, hstep, hrest, hcolon, hukey, hu⟩ := reads_key hw htext hentry hs hkey
  obtain ⟨hq, hqkey⟩ := hnext u hu
  obtain ⟨v, hsettle, hv, hvkey⟩ := reads_settle hq (by
    rw [hqkey, hukey]
    exact fun k hk => absurd hk (Option.not_mem_none k))
  refine ⟨v, (Relation.ReflTransGen.single hstep).tail ⟨u, hcolon, hsettle, ?_⟩, hv, hvkey⟩
  rw [hv.rest, hrest]
  exact Nat.lt_succ_of_le hshort

/-- A key whose value stands on the same line. -/
theorem reaches_key {w text : List Char} {column : Nat} {outer blocks : List Nat} {opening : List Token}
    (ts : List Token) (hw : Key w) (hentry : Enters column outer .mappingStart blocks opening)
    (htext : Begins text) :
    Reaches ⟨w ++ ':' :: ' ' :: text, column, true, blocks, ts⟩
      ⟨text, column + w.length + 2, false, column :: outer,
      ts ++ (opening ++ [.key, .scalar (String.ofList w) .plain, .value])⟩ := by
  rw [← closed_entry (n := column + w.length + 2) (by omega)]
  exact .of_key hw rfl hentry (Nat.le_succ _) fun u hu =>
    hu.spaces rfl (List.forall_mem_singleton.2 rfl) htext

/-- A key whose value begins on the next line. -/
theorem reaches_keyLine {w text : List Char} {column n : Nat} {outer blocks : List Nat} {opening : List Token}
    (ts : List Token) (hw : Key w) (hentry : Enters column outer .mappingStart blocks opening) (hn : column ≤ n)
    (htext : Begins text) :
    Reaches ⟨w ++ ':' :: '\n' :: (indent n ++ text), column, true, blocks, ts⟩ ⟨text, n, true, column :: outer,
      ts ++ (opening ++ [.key, .scalar (String.ofList w) .plain, .value])⟩ := by
  rw [← closed_entry hn]
  refine .of_key hw rfl hentry ?_ fun u hu => ?_
  · rw [List.length_cons, List.length_append]
    exact Nat.le_succ_of_le (Nat.le_add_left _ _)
  · obtain ⟨hnext, -, hukey⟩ := hu.line rfl htext
    exact ⟨hnext, hukey⟩

end Reader

end HistogramMonitor.Yaml
