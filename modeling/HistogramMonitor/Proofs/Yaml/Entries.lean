import HistogramMonitor.Proofs.Yaml.Places

/-!
# Tokens and entries

Which token begins where, and the dash before an item. The first entry of a block opens it and further ones find it
open (`Enters`); the token that says so goes before those of the entry.
-/

namespace HistogramMonitor.Yaml

/-! ## What begins a scalar -/

/-- The text begins with a scalar that is no block. -/
structure OpensScalar (c : Char) (text : List Char) : Prop where
  sign : c ∉ ['[', '\x7b', ']', '\x7d', ',', '*', '&', '!', '|', '>', '%']
  word : c = '-' ∨ c = '?' ∨ c = ':' → Scan.wordEnds text = false

namespace Scan

variable {s : Scan}

/-- Where a key may have begun, if it may begin here. -/
def keyStart (s : Scan) : Option KeyStart :=
  if s.fresh then some ⟨s.tokens.size, s.index, s.line, s.column, s.blocks.head? = some s.column⟩ else none

end Scan

namespace Reader

variable {s t u : Scan} {text : List Char}

theorem reads_forgetKey (hkey : s.key = none) : Reads forgetKey s ⟨⟩ s := by
  unfold forgetKey
  refine (reads_get s).bind ?_
  rw [hkey]
  exact reads_pure _ s

theorem reads_rememberKey (hkey : s.key = none) (houter : s.outer = []) :
    Reads rememberKey s ⟨⟩ { s with key := s.keyStart } := by
  unfold rememberKey
  refine (reads_get s).bind ?_
  by_cases hfresh : s.fresh = true
  · rw [if_pos hfresh]
    refine (reads_forgetKey hkey).bind (reads_modify_eq ?_)
    rw [Scan.keyStart, if_pos hfresh, Scan.flow_eq_false houter, Bool.not_false, Bool.true_and]
  · rw [if_neg hfresh]
    rw [Scan.keyStart, if_neg hfresh, ← hkey]
    exact reads_pure _ s

theorem reads_emit (tok : Token) (s : Scan) : Reads (emit tok) s ⟨⟩ (s.push tok) := reads_modify _ s

theorem reads_opening {r : Reader Token} {tok : Token} (hkey : s.key = none) (houter : s.outer = [])
    (h : Reads r { s with key := s.keyStart, fresh := false } tok u) :
    Reads (opening r) s ⟨⟩ (u.push tok) := by
  unfold opening
  exact (reads_rememberKey hkey houter).bind ((reads_setFresh false _).bind (h.bind (reads_emit tok u)))

/-- What is neither an indicator nor a marker is a scalar. -/
theorem Reads.token_scalar {c : Char} (hrest : s.rest = c :: text) (houter : s.outer = [])
    (hmarker : s.atMarker = false) (hc : OpensScalar c text) (h : Reads (opening flowScalar) s ⟨⟩ u) :
    Reads token s ⟨⟩ u := by
  have hmarkers := Bool.or_eq_false_iff.1 hmarker
  have hflow := Scan.flow_eq_false houter
  have hsign := hc.sign
  simp only [List.mem_cons, List.not_mem_nil, or_false, not_or] at hsign
  have hword : ∀ d, d = '-' ∨ d = '?' ∨ d = ':' → ¬(c = d ∧ Scan.wordEnds text = true) := by
    rintro d hd ⟨rfl, hends⟩
    rw [hc.word hd] at hends
    contradiction
  unfold token
  refine (reads_get s).bind ?_
  rw [hrest]
  dsimp only
  simp only [hsign, hmarkers, hflow, hword '-' (.inl rfl), hword '?' (.inr (.inl rfl)),
    hword ':' (.inr (.inr rfl)),
    Bool.false_eq_true, false_or, and_false, false_and, if_false]
  exact h

theorem Reads.token_dash (hrest : s.rest = '-' :: text) (hmarker : s.atMarker = false)
    (hends : Scan.wordEnds text = true) (h : Reads dash s ⟨⟩ u) : Reads token s ⟨⟩ u := by
  have hmarkers := Bool.or_eq_false_iff.1 hmarker
  unfold token
  refine (reads_get s).bind ?_
  rw [hrest]
  dsimp only
  simp only [hmarkers, hends, Char.reduceEq, Bool.false_eq_true, and_false, and_self, if_false, if_true]
  exact h

theorem Reads.token_colon (hrest : s.rest = ':' :: text) (hmarker : s.atMarker = false)
    (hends : Scan.wordEnds text = true) (h : Reads colon s ⟨⟩ u) : Reads token s ⟨⟩ u := by
  have hmarkers := Bool.or_eq_false_iff.1 hmarker
  unfold token
  refine (reads_get s).bind ?_
  rw [hrest]
  dsimp only
  simp only [hmarkers, hends, Char.reduceEq, Bool.false_eq_true, and_false, false_and, or_true, and_self,
    if_false, if_true]
  exact h

theorem Reads.token_block (hrest : s.rest = '|' :: text) (houter : s.outer = []) (hmarker : s.atMarker = false)
    (h : Reads (block true) s ⟨⟩ u) : Reads token s ⟨⟩ u := by
  have hmarkers := Bool.or_eq_false_iff.1 hmarker
  have hflow := Scan.flow_eq_false houter
  unfold token
  refine (reads_get s).bind ?_
  rw [hrest]
  dsimp only
  simp only [hmarkers, hflow, Char.reduceEq, Bool.false_eq_true, and_false, false_and, not_false_iff, and_self,
    if_false, if_true]
  exact h

/-! ## Entries -/

/-- The first entry of a block opens it, and the further ones find it open. -/
inductive Enters (column : Nat) (outer : List Nat) (tok : Token) : List Nat → List Token → Prop
  | first (h : ∀ b ∈ outer.head?, b < column) : Enters column outer tok outer [tok]
  | further : Enters column outer tok (column :: outer) []

theorem insertIdx_append {α : Type} (xs ys : List α) (a : α) :
    (xs ++ ys).insertIdx xs.length a = xs ++ a :: ys := by
  induction xs with
  | nil => rfl
  | cons x xs ih => rw [List.cons_append, List.length_cons, List.insertIdx_succ_cons, ih, List.cons_append]

/-- A token is put in between others. -/
theorem toList_insert {a : Array Token} {ts us : List Token} (ha : a.toList = ts ++ us) (tok : Token) :
    (a.insertIdxIfInBounds ts.length tok).toList = ts ++ tok :: us := by
  have hsize : ts.length ≤ a.size := by
    rw [← Array.length_toList, ha, List.length_append]
    exact Nat.le_add_right _ _
  rw [Array.insertIdxIfInBounds, dif_pos hsize, Array.toList_insertIdx, ha, insertIdx_append]

/-- The token that opens a block goes before those of its first entry. -/
theorem reads_openBlock {column : Nat} {outer : List Nat} {tok : Token} {opening ts us : List Token}
    (hentry : Enters column outer tok s.blocks opening) (houter : s.outer = [])
    (htokens : s.tokens.toList = ts ++ us) :
    ∃ a : Array Token, a.toList = ts ++ (opening ++ us) ∧
      Reads (openBlock column ts.length tok) s ⟨⟩ { s with blocks := column :: outer, tokens := a } := by
  have hflow := Scan.flow_eq_false houter
  generalize hblocks : s.blocks = blocks at hentry
  cases hentry with
  | first h =>
    refine ⟨_, toList_insert htokens tok, ?_⟩
    have hmargin : s.margin ≤ column := by
      unfold Scan.margin
      rw [hblocks]
      cases outer with
      | nil => exact Nat.zero_le _
      | cons b outer => exact h b rfl
    unfold openBlock
    refine (reads_get s).bind ?_
    rw [hflow, Bool.not_false, Bool.true_and, if_pos (decide_eq_true hmargin)]
    refine Reads.bind (reads_modify _ s) (reads_modify_eq ?_)
    rw [hblocks]
  | further =>
    refine ⟨s.tokens, htokens, ?_⟩
    have hmargin : ¬s.margin ≤ column := by
      unfold Scan.margin
      rw [hblocks]
      exact Nat.not_succ_le_self column
    unfold openBlock
    refine (reads_get s).bind ?_
    rw [hflow, Bool.not_false, Bool.true_and, if_neg (by simpa using hmargin), ← hblocks]
    exact reads_pure _ s

theorem reads_emitSigns (w : List Char) (h : s.rest = w ++ text) (tok : Token) :
    Reads (emitSigns w.length tok) s ⟨⟩ ((s.across w text).push tok) :=
  (reads_drop w h).bind (reads_emit tok _)

/-- An entry in a column stands in or to the right of the blocks around it. -/
theorem Enters.le {column : Nat} {outer blocks : List Nat} {tok : Token} {opening : List Token}
    (h : Enters column outer tok blocks opening) : ∀ b ∈ blocks.head?, b ≤ column := by
  cases h with
  | first h => exact fun b hb => Nat.le_of_lt (h b hb)
  | further =>
    intro b hb
    cases hb
    exact Nat.le_refl column

/-- After a token that leaves no key, or one that cannot end any more, reading reaches what comes next. -/
theorem Reaches.of_token {p q : Place} (hshort : q.text.length < p.text.length)
    (h : ∀ s : Scan, s.At p → s.key = none → ∃ u, Reads token s ⟨⟩ u ∧ u.toToken.At q ∧
      ∀ k ∈ u.toToken.key, k.required = false ∧ k.expired u.toToken = true) : Reaches p q.closed := by
  intro s hs hkey
  obtain ⟨u, htoken, hu, hexpired⟩ := h s hs hkey
  obtain ⟨t, hsettle, ht, htkey⟩ := reads_settle hu hexpired
  refine ⟨t, .single ⟨u, htoken, hsettle, ?_⟩, ht, htkey⟩
  rw [ht.rest, hs.rest]
  exact hshort

/-- Where an entry goes on, its block has not ended. -/
theorem closed_entry {column n : Nat} {outer : List Nat} {ts : List Token} {fresh : Bool} (h : column ≤ n) :
    Place.closed ⟨text, n, fresh, column :: outer, ts⟩ = ⟨text, n, fresh, column :: outer, ts⟩ :=
  Place.closed_eq fun b hb => by
    cases hb
    exact h

/-- A dash is read, with the space after it. -/
theorem reaches_item {column : Nat} {outer blocks : List Nat} {opening : List Token} (ts : List Token)
    (hentry : Enters column outer .sequenceStart blocks opening) (htext : Begins text) :
    Reaches ⟨'-' :: ' ' :: text, column, true, blocks, ts⟩
      ⟨text, column + 2, true, column :: outer, ts ++ (opening ++ [.item])⟩ := by
  rw [← closed_entry (Nat.le_add_right column 2)]
  refine .of_token (Nat.lt_add_of_pos_right Nat.two_pos) fun s hs hkey => ?_
  have htokens : s.tokens.toList = ts ++ [] := hs.tokens.trans (List.append_nil ts).symm
  obtain rfl : s.column = column := hs.column
  obtain rfl : s.blocks = blocks := hs.blocks
  obtain ⟨a, ha, hopen⟩ := reads_openBlock hentry hs.outer htokens
  have hsize : s.tokens.size = ts.length := by rw [← Array.length_toList, htokens, List.append_nil]
  rw [← hsize] at hopen
  have hentered : Reads (openEntry .sequenceStart) s ⟨⟩ { s with blocks := s.column :: outer, tokens := a } := by
    unfold openEntry
    refine (reads_get s).bind ?_
    rw [Scan.flow_eq_false hs.outer, Bool.not_false, if_pos rfl, if_pos hs.fresh]
    exact hopen
  have hopened : Scan.At ⟨'-' :: ' ' :: text, s.column, true, s.column :: outer, ts ++ opening⟩
      { s with blocks := s.column :: outer, tokens := a, fresh := true } :=
    ⟨hs.rest, rfl, rfl, rfl, by rw [ha, List.append_nil], hs.outer⟩
  have hforget := reads_forgetKey (s := { s with blocks := s.column :: outer, tokens := a }) hkey
  have hdash : Reads dash s ⟨⟩ _ := hentered.bind (hforget.bind
    ((reads_setFresh true _).bind (reads_emitSigns ['-'] hopened.rest .item)))
  obtain ⟨hnext, hnone⟩ := ((hopened.inLine (w := ['-']) (List.forall_mem_singleton.2 rfl)
    (' ' :: text)).push .item).spaces rfl (List.forall_mem_singleton.2 rfl) htext
  refine ⟨_, Reads.token_dash hs.rest (Scan.atMarker_of_dash hs.rest) rfl hdash, ?_, ?_⟩
  · rw [← List.append_assoc]
    exact hnext
  · have hnone' := hnone.trans ((Scan.across_key _ ['-'] (' ' :: text)).trans hkey)
    rw [hnone']
    exact fun k hk => absurd hk (Option.not_mem_none k)

end Reader

end HistogramMonitor.Yaml
