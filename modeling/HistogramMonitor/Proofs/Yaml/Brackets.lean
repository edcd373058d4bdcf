import HistogramMonitor.Proofs.Yaml.Scalars

/-!
# Empty collections

A collection without entries is written between brackets. Inside them lines and columns mean nothing, so nothing ends
there and the key that may have begun before them is kept until they close.
-/

namespace HistogramMonitor.Yaml

/-- The signs around a collection and their tokens. -/
inductive Brackets : Char → Char → Token → Token → Prop
  | square : Brackets '[' ']' .openBracket .closeBracket
  | curly : Brackets '\x7b' '\x7d' .openBrace .closeBrace

namespace Brackets

variable {c d : Char} {opener closer : Token} (h : Brackets c d opener closer)

include h

theorem inLine : isBreak c = false ∧ isBreak d = false := by
  cases h <;> decide

theorem begins (text : List Char) : Begins (c :: text) ∧ Begins (d :: text) := by
  constructor <;> intro e he <;> cases he <;> cases h <;> decide

theorem utf8Size : c.utf8Size = 1 := by
  cases h <;> rfl

end Brackets

namespace Reader

variable {s t u : Scan} {text : List Char} {c d : Char} {opener closer : Token} {k n : Nat} {f : Bool}
  {blocks : List Nat} {ts : List Token}

theorem Reads.token_open (h : Brackets c d opener closer) (hrest : s.rest = c :: text)
    (hmarker : s.atMarker = false) (hread : Reads (openFlow opener) s ⟨⟩ u) : Reads token s ⟨⟩ u := by
  have hmarkers := Bool.or_eq_false_iff.1 hmarker
  unfold token
  refine (reads_get s).bind ?_
  rw [hrest]
  dsimp only
  cases h <;> simp only [hmarkers, Char.reduceEq, Bool.false_eq_true, and_false, if_false, if_true] <;> exact hread

theorem Reads.token_close (h : Brackets c d opener closer) (hrest : s.rest = d :: text)
    (hmarker : s.atMarker = false) (hread : Reads (closeFlow closer) s ⟨⟩ u) : Reads token s ⟨⟩ u := by
  have hmarkers := Bool.or_eq_false_iff.1 hmarker
  unfold token
  refine (reads_get s).bind ?_
  rw [hrest]
  dsimp only
  cases h <;> simp only [hmarkers, Char.reduceEq, Bool.false_eq_true, and_false, if_false, if_true] <;> exact hread

/-- Inside brackets, the key that may have begun before them is put aside. -/
theorem reads_openFlow (h : Brackets c d opener closer) (hs : s.At ⟨c :: text, k, f, blocks, ts⟩)
    (hkey : s.key = none) :
    ∃ t, Reads (openFlow opener) s ⟨⟩ t ∧ t.key = none ∧ t.outer = [s.keyStart] ∧ t.line = s.line ∧
      t.index = s.index + 1 ∧ { t with outer := [] }.At ⟨text, k + 1, true, blocks, ts ++ [opener]⟩ := by
  have hbreak : ∀ e ∈ [c], isBreak e = false := List.forall_mem_singleton.2 h.inLine.1
  let inside : Scan := { s with key := none, outer := [s.keyStart], fresh := true }
  have hemit := reads_emitSigns (s := inside) [c] hs.rest opener
  have hopen : Reads (openFlow opener) s ⟨⟩ ((inside.across [c] text).push opener) := by
    refine (reads_rememberKey hkey hs.outer).bind (Reads.bind (reads_modify_eq ?_) hemit)
    rw [hs.outer]
  obtain ⟨hcolumn, hline⟩ := Scan.across_column_line inside text hbreak
  have hindex := Scan.across_index inside text (List.forall_mem_singleton.2 h.utf8Size)
  have htokens : (inside.across [c] text).tokens = s.tokens := Scan.across_tokens inside [c] text
  refine ⟨_, hopen, Scan.across_key inside [c] text, Scan.across_outer inside [c] text, hline, hindex, rfl,
    ?_, ?_, ?_,
    ?_, rfl⟩
  · exact hcolumn.trans (congrArg (· + 1) hs.column)
  · exact Scan.across_fresh inside [c] text
  · exact (Scan.across_blocks inside [c] text).trans hs.blocks
  · exact Array.toList_push.trans (congrArg (· ++ [opener]) ((congrArg Array.toList htokens).trans hs.tokens))

/-- After brackets, it is known again. -/
theorem reads_closeFlow {key : Option KeyStart} (h : Brackets c d opener closer)
    (ht : { t with outer := [] }.At ⟨d :: text, k, f, blocks, ts⟩) (hkey : t.key = none)
    (houter : t.outer = [key]) :
    ∃ u, Reads (closeFlow closer) t ⟨⟩ u ∧ u.key = key ∧ u.line = t.line ∧
      u.At ⟨text, k + 1, false, blocks, ts ++ [closer]⟩ := by
  have hbreak : ∀ e ∈ [d], isBreak e = false := List.forall_mem_singleton.2 h.inLine.2
  let after : Scan := { t with key := key, outer := [], fresh := false }
  have hafter : after.At ⟨d :: text, k, false, blocks, ts⟩ := ⟨ht.rest, ht.column, rfl, ht.blocks, ht.tokens, rfl⟩
  have hemit := reads_emitSigns (s := after) [d] ht.rest closer
  have hclose : Reads (closeFlow closer) t ⟨⟩ ((after.across [d] text).push closer) := by
    refine (reads_forgetKey hkey).bind (Reads.bind (reads_modify_eq ?_) hemit)
    rw [houter]
    rfl
  exact ⟨_, hclose, Scan.across_key after [d] text, (Scan.across_column_line after text hbreak).2,
    (hafter.inLine hbreak text).push closer⟩

/-- A collection without entries, and the way to the next line. -/
theorem reaches_brackets (h : Brackets c d opener closer) (n : Nat) (f : Bool) {b : Nat} (bs : List Nat)
    (ts : List Token) (htext : Begins text) (hk : b < k) :
    Reaches ⟨c :: d :: '\n' :: (indent n ++ text), k, f, b :: bs, ts⟩
      (Place.closed ⟨text, n, true, b :: bs, ts ++ [opener, closer]⟩) := by
  intro s hs hkey
  have hoptional := hs.keyStart_optional (by simpa using hk)
  obtain ⟨t, hopen, htkey, houter, htline, htindex, ht⟩ := reads_openFlow h hs hkey
  have hrest : t.rest = d :: '\n' :: (indent n ++ text) := ht.rest
  have hkept : Reads settle t ⟨⟩ t := by
    refine reads_settle_kept ?_ ?_ (.inl ?_)
    · rw [Scan.toToken_spaces (v := []) hrest (by simp) (h.begins _).2, ← hrest, Scan.across_nil]
    · rw [htkey, houter]
      intro key hmem
      obtain ⟨-, hkline, hkindex⟩ := hoptional key (by simpa [eq_comm] using hmem)
      rw [KeyStart.expired, hkline, hkindex, htline, htindex, Bool.or_eq_false_iff]
      exact ⟨decide_eq_false (Nat.lt_irrefl _), decide_eq_false (by omega)⟩
    · rw [Scan.flow, houter]
      rfl
  obtain ⟨u, hclose, hukey, huline, hu⟩ := reads_closeFlow h ht htkey houter
  obtain ⟨hnext, hline, hvkey⟩ := hu.line rfl htext
  obtain ⟨v, hsettle, hv, hnone⟩ := reads_settle hnext fun key hmem => by
    rw [hvkey, hukey] at hmem
    obtain ⟨hrequired, hkline, -⟩ := hoptional key hmem
    exact ⟨hrequired, KeyStart.expired_of_line (by rw [hkline, ← htline, ← huline]; exact hline)⟩
  have hmarker : t.atMarker = false := Scan.atMarker_eq_false (Nat.lt_of_lt_of_eq (Nat.succ_pos k) ht.column.symm)
  have hfirst : Step s t := ⟨t, .token_open h hs.rest (hs.not_marker (Nat.zero_lt_of_lt hk)) hopen, hkept, by
    rw [hrest, hs.rest]
    exact Nat.lt_succ_self _⟩
  have hsecond : Step t v := ⟨u, .token_close h hrest hmarker hclose, hsettle, by
    rw [hv.rest, hrest]
    simp [Place.closed]
    omega⟩
  rw [List.append_assoc] at hv
  exact ⟨v, (Relation.ReflTransGen.single hfirst).tail hsecond, hv, hnone⟩

end Reader

end HistogramMonitor.Yaml
