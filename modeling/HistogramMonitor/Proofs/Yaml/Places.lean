import Mathlib.Logic.Relation
import HistogramMonitor.Proofs.Yaml.Reading

/-!
# From token to token

Before each token reading settles: it passes over spaces and line ends, forgets the keys that can no longer end
and ends the blocks to whose right it no longer stands. What reading comes to from there on is decided by few
parts of its state (`Place`), once no key is remembered. From one place reading reaches another by reading tokens
(`Reaches`), and from the last of them it comes to its end (`reads_tokens`).
-/

namespace HistogramMonitor.Yaml

/-! ## To the next token -/

/-- The text begins with a token, or is empty. -/
def Begins (text : List Char) : Prop := ∀ c ∈ text.head?, isWhite c = false ∧ c ≠ '#' ∧ c ≠ '\uFEFF'

theorem Begins.dark {text : List Char} (h : Begins text) : ∀ c ∈ text.head?, isWhite c = false :=
  fun c hc => (h c hc).1

namespace Scan

variable {s : Scan} {v text ahead : List Char} {n : Nat}

theorem flow_eq_false (h : s.outer = []) : s.flow = false := by
  rw [flow, h]
  rfl

theorem across_with_fresh (w : List Char) (fresh : Bool) :
    { s with fresh := fresh }.across w text = { s.across w text with fresh := fresh } := by
  have hfold : ∀ t : Scan, w.foldl past { t with fresh := fresh } = { w.foldl past t with fresh := fresh } := by
    induction w with
    | nil => exact fun _ => rfl
    | cons c w ih =>
      intro t
      have hpast : past { t with fresh := fresh } c = { past t c with fresh := fresh } := by
        unfold past
        split <;> rfl
      rw [List.foldl_cons, hpast, ih, List.foldl_cons]
  rw [across, hfold]
  rfl

/-- Spaces before a character that is no blank and opens no comment. -/
theorem skipLines_eq {v t : List Char} (hrest : s.rest = v ++ t) (hv : ∀ c ∈ v, c = ' ')
    (ht : ∀ c ∈ t.head?, isBlank c = false ∧ c ≠ '#' ∧ c ≠ '\uFEFF') (a : Char) (ahead : List Char) :
    s.skipLines (a :: ahead) = if t.head?.any isBreak then
      skipLines ahead { (s.across v t).skip 1 with fresh := s.fresh || !s.flow } else s.across v t := by
  have hmark : ¬(s.column = 0 ∧ s.rest.head? = some '\uFEFF') := by
    rintro ⟨-, h⟩
    rw [hrest] at h
    cases v with
    | nil => exact (ht _ h).2.2 rfl
    | cons c v =>
      cases h
      exact absurd (hv _ List.mem_cons_self) (by decide)
  have hblank : s.rest.takeWhile (fun c => c = ' ' || (c = '\t' && (s.flow || !s.fresh))) = v := by
    rw [hrest]
    refine Reader.takeWhile_append (fun c hc => ?_) fun c hc => ?_
    · rw [hv c hc]
      rfl
    · have hc' := (ht c hc).1
      rw [isBlank, Bool.or_eq_false_iff] at hc'
      rw [hc'.1, hc'.2]
      rfl
  rw [skipLines, if_neg hmark, hblank, skip_eq_across s v t hrest, across_rest]
  cases t with
  | nil => rfl
  | cons c t =>
    have hflow : (s.across v (c :: t)).flow = s.flow := by rw [flow, across_outer, flow]
    have hcomment : c ≠ '#' := (ht c rfl).2.1
    simp only [hcomment, across_rest, List.cons.injEq, false_and, imp_self, implies_true]
    rw [across_fresh, hflow]
    rfl

theorem skipLines_spaces (hrest : s.rest = v ++ text) (hv : ∀ c ∈ v, c = ' ') (htext : Begins text)
    (hahead : s.rest.length ≤ ahead.length) : s.skipLines ahead = s.across v text := by
  cases ahead with
  | nil =>
    have hnil := List.length_eq_zero_iff.1 (Nat.le_zero.1 hahead)
    rw [hnil] at hrest
    obtain ⟨rfl, rfl⟩ := List.append_eq_nil_iff.1 hrest.symm
    calc s.skipLines [] = s.across [] s.rest := rfl
      _ = s.across [] [] := by rw [hnil]
  | cons a ahead =>
    have hbreak : text.head?.any isBreak = false := by
      cases text with
      | nil => rfl
      | cons c text => exact isBreak_eq_false_of_isWhite (htext c rfl).1
    have hblank : ∀ c ∈ text.head?, isBlank c = false ∧ c ≠ '#' ∧ c ≠ '\uFEFF' := fun c hc =>
      ⟨(Bool.or_eq_false_iff.1 (htext c hc).1).1, (htext c hc).2⟩
    rw [skipLines_eq hrest hv hblank, hbreak, if_neg Bool.false_ne_true]

theorem toToken_spaces (hrest : s.rest = v ++ text) (hv : ∀ c ∈ v, c = ' ') (htext : Begins text) :
    s.toToken = s.across v text := skipLines_spaces hrest hv htext (Nat.le_refl _)

theorem toToken_line (hrest : s.rest = '\n' :: (indent n ++ text)) (houter : s.outer = []) (htext : Begins text) :
    s.toToken = s.acrossLine ('\n' :: indent n) text := by
  have hblank : ∀ c ∈ s.rest.head?, isBlank c = false ∧ c ≠ '#' ∧ c ≠ '\uFEFF' := by
    rw [hrest]
    intro c hc
    cases hc
    decide
  have hskip : (s.across [] s.rest).skip 1 = s.across ['\n'] (indent n ++ text) :=
    skip_eq_across s ['\n'] _ hrest
  have hbreak : s.rest.head?.any isBreak = true := by
    rw [hrest]
    rfl
  have hspaces := skipLines_spaces (s := s.acrossLine ['\n'] (indent n ++ text)) rfl space_of_mem_indent htext
    (Nat.le_refl _)
  rw [toToken, hrest, skipLines_eq (v := []) (t := s.rest) rfl (by simp) hblank, hbreak, if_pos rfl, hskip,
    flow_eq_false houter, Bool.not_false, Bool.or_true]
  refine hspaces.trans ?_
  rw [acrossLine, across_with_fresh, across_across]
  rfl

end Scan

/-! ## Settling -/

namespace Reader

variable {s t u : Scan}

/-- What happens before a token is read. -/
def settle : Reader Unit := do
  modify Scan.toToken
  forgetExpired
  let column := (← get).column
  closeBlocks (column < ·)

theorem tokens_succ (fuel : Nat) : tokens (fuel + 1) = (settle >>= fun _ => do
    if (← get).rest.isEmpty then closeDocument
    else
      token
      tokens fuel) := by
  rw [tokens, settle]
  simp only [bind_assoc]

theorem reads_forgetExpired (houter : s.outer = [])
    (hkey : ∀ k ∈ s.key, k.required = false ∧ k.expired s = true) :
    Reads forgetExpired s ⟨⟩ { s with key := none } := by
  have hnone : ¬((s.key :: s.outer).any fun k => k.any fun k => k.required && k.expired s) = true := by
    rw [houter, List.any_cons, List.any_nil, Bool.or_false, Option.any_eq_true]
    rintro ⟨k, hk, hrequired⟩
    rw [(hkey k hk).1] at hrequired
    contradiction
  have hkept : s.key.filter (fun k => !k.expired s) = none := by
    rw [Option.filter_eq_none_iff]
    intro k hk
    simp [(hkey k hk).2]
  unfold forgetExpired
  refine (reads_get s).bind ?_
  dsimp only
  rw [if_neg hnone, hkept, houter, List.map_nil, ← houter]
  rfl

/-- Keys that can still end are kept. -/
theorem reads_forgetExpired_kept (hkeys : ∀ k : KeyStart, some k ∈ s.key :: s.outer → k.expired s = false) :
    Reads forgetExpired s ⟨⟩ s := by
  have hnone : ¬((s.key :: s.outer).any fun k => k.any fun k => k.required && k.expired s) = true := by
    rw [List.any_eq_true]
    rintro ⟨k, hmem, hk⟩
    obtain ⟨k, rfl, hexpired⟩ := (Option.any_eq_true _ _).1 hk
    rw [hkeys k hmem, Bool.and_false] at hexpired
    contradiction
  have hkept : ∀ k ∈ s.key :: s.outer, k.filter (fun k => !k.expired s) = k := by
    intro k hmem
    cases k with
    | none => rfl
    | some k => rw [Option.filter_some, hkeys k hmem, Bool.not_false, if_pos rfl]
  have houter : s.outer.map (fun k => k.filter (fun k => !k.expired s)) = s.outer :=
    (List.map_congr_left fun k hmem => hkept k (List.mem_cons_of_mem _ hmem)).trans (List.map_id _)
  unfold forgetExpired
  refine (reads_get s).bind ?_
  dsimp only
  rw [if_neg hnone, hkept _ List.mem_cons_self, houter]
  rfl

end Reader

/-! ## Places -/

/-- What reading depends on where a token begins and no key is remembered. -/
structure Place where
  text : List Char
  column : Nat
  fresh : Bool
  blocks : List Nat
  tokens : List Token

namespace Place

/-- After the blocks have ended that lie further right. -/
def closed (p : Place) : Place :=
  { p with
    blocks := p.blocks.dropWhile (p.column < ·)
    tokens := p.tokens ++ (p.blocks.takeWhile (p.column < ·)).map fun _ => .blockEnd }

/-- No block ends where none lies further right. -/
theorem closed_eq {p : Place} (h : ∀ b ∈ p.blocks.head?, b ≤ p.column) : p.closed = p := by
  obtain ⟨text, column, fresh, blocks, tokens⟩ := p
  have hkept : blocks.takeWhile (column < ·) = [] ∧ blocks.dropWhile (column < ·) = blocks := by
    cases blocks with
    | nil => exact ⟨rfl, rfl⟩
    | cons b blocks =>
      have hb : ¬(decide (column < b) = true) := by simpa using h b rfl
      exact ⟨List.takeWhile_cons_of_neg hb, List.dropWhile_cons_of_neg hb⟩
  unfold closed
  dsimp only
  rw [hkept.1, hkept.2, List.map_nil, List.append_nil]

end Place

/-- A state of reading stands at a place. -/
structure Scan.At (p : Place) (s : Scan) : Prop where
  rest : s.rest = p.text
  column : s.column = p.column
  fresh : s.fresh = p.fresh
  blocks : s.blocks = p.blocks
  tokens : s.tokens.toList = p.tokens
  outer : s.outer = []

namespace Scan

variable {s : Scan} {p : Place} {text : List Char}

theorem At.across (h : s.At p) (w text : List Char) :
    (s.across w text).At { p with text := text, column := (s.across w text).column } :=
  ⟨rfl, rfl, (across_fresh s w text).trans h.fresh, (across_blocks s w text).trans h.blocks,
    (congrArg Array.toList (across_tokens s w text)).trans h.tokens, (across_outer s w text).trans h.outer⟩

/-- Further in the same line. -/
theorem At.inLine (h : s.At p) {w : List Char} (hw : ∀ c ∈ w, isBreak c = false) (text : List Char) :
    (s.across w text).At { p with text := text, column := p.column + w.length } := by
  have hcolumn := (across_column_line s text hw).1
  rw [h.column] at hcolumn
  rw [← hcolumn]
  exact h.across w text

/-- At the start of a further line. -/
theorem At.acrossLine (h : s.At p) (w : List Char) {d : Char} (hd : isBreak d = true) (n : Nat)
    (text : List Char) :
    (s.acrossLine (w ++ d :: indent n) text).At { p with text := text, column := n, fresh := true } ∧
      s.line < (s.acrossLine (w ++ d :: indent n) text).line := by
  obtain ⟨hcolumn, hline⟩ := across_break s text (w := w) hd (isBreak_of_spaces (space_of_mem_indent (n := n)))
  have hpassed := h.across (w ++ d :: indent n) text
  rw [hcolumn, indent, List.length_replicate] at hpassed
  exact ⟨⟨rfl, hpassed.column, rfl, hpassed.blocks, hpassed.tokens, hpassed.outer⟩, hline⟩

theorem At.not_marker (h : s.At p) (hcolumn : 0 < p.column) : s.atMarker = false :=
  atMarker_eq_false (by rw [h.column]; exact hcolumn)

/-- With one more token. -/
def push (s : Scan) (tok : Token) : Scan := { s with tokens := s.tokens.push tok }

theorem At.push (h : s.At p) (tok : Token) : (s.push tok).At { p with tokens := p.tokens ++ [tok] } :=
  ⟨h.rest, h.column, h.fresh, h.blocks, Array.toList_push.trans (congrArg (· ++ [tok]) h.tokens), h.outer⟩

/-- Spaces before a token are passed over. -/
theorem At.spaces (h : s.At p) {v : List Char} (hp : p.text = v ++ text) (hv : ∀ c ∈ v, c = ' ')
    (htext : Begins text) :
    s.toToken.At { p with text := text, column := p.column + v.length } ∧ s.toToken.key = s.key := by
  rw [toToken_spaces (h.rest.trans hp) hv htext]
  exact ⟨h.inLine (isBreak_of_spaces hv) text, across_key s v text⟩

/-- The end of a line is passed over, and a key may begin in the next one. -/
theorem At.line (h : s.At p) {n : Nat} (hp : p.text = '\n' :: (indent n ++ text)) (htext : Begins text) :
    s.toToken.At { p with text := text, column := n, fresh := true } ∧ s.line < s.toToken.line ∧
      s.toToken.key = s.key := by
  obtain ⟨hnext, hline⟩ := h.acrossLine [] (by decide : isBreak '\n' = true) n text
  rw [toToken_line (h.rest.trans hp) h.outer htext]
  exact ⟨hnext, hline, across_key s ('\n' :: indent n) text⟩

end Scan

namespace Reader

variable {s t u : Scan} {p q : Place}

theorem drop_length_takeWhile {α : Type} (f : α → Bool) (l : List α) :
    l.drop (l.takeWhile f).length = l.dropWhile f := by
  calc l.drop (l.takeWhile f).length
      = (l.takeWhile f ++ l.dropWhile f).drop (l.takeWhile f).length := by rw [List.takeWhile_append_dropWhile]
    _ = l.dropWhile f := List.drop_left

theorem reads_closeBlocks (hs : s.At p) :
    ∃ t, Reads (closeBlocks (p.column < ·)) s ⟨⟩ t ∧ t.At p.closed ∧ t.key = s.key := by
  have hpush : ∀ (closed : List Nat) (ts : Array Token),
      (closed.foldl (fun ts _ => ts.push .blockEnd) ts).toList = ts.toList ++ closed.map fun _ => .blockEnd := by
    intro closed
    induction closed with
    | nil => exact fun ts => (List.append_nil _).symm
    | cons b closed ih =>
      intro ts
      rw [List.foldl_cons, ih, Array.toList_push, List.append_assoc]
      rfl
  refine ⟨_, reads_modify _ s, ?_⟩
  rw [Scan.flow_eq_false hs.outer, if_neg Bool.false_ne_true]
  refine ⟨⟨hs.rest, hs.column, hs.fresh, ?_, ?_, hs.outer⟩, rfl⟩
  · dsimp only [Place.closed]
    rw [hs.blocks]
    exact drop_length_takeWhile _ p.blocks
  · dsimp only [Place.closed]
    rw [hpush, hs.blocks, hs.tokens]

theorem reads_settle (hp : s.toToken.At p)
    (hkey : ∀ k ∈ s.toToken.key, k.required = false ∧ k.expired s.toToken = true) :
    ∃ t, Reads settle s ⟨⟩ t ∧ t.At p.closed ∧ t.key = none := by
  have hforget := reads_forgetExpired hp.outer hkey
  obtain ⟨t, hclose, ht, htkey⟩ := reads_closeBlocks (s := { s.toToken with key := none })
    ⟨hp.rest, hp.column, hp.fresh, hp.blocks, hp.tokens, hp.outer⟩
  refine ⟨t, ?_, ht, htkey⟩
  unfold settle
  rw [← hp.column] at hclose
  exact (reads_modify _ s).bind (hforget.bind ((reads_get _).bind hclose))

/-- Where a token begins, no block ends and the keys can still end, all is as before. -/
theorem reads_settle_kept (hp : s.toToken = s)
    (hkeys : ∀ k : KeyStart, some k ∈ s.key :: s.outer → k.expired s = false)
    (hblocks : s.flow = true ∨ ∀ b ∈ s.blocks.head?, b ≤ s.column) : Reads settle s ⟨⟩ s := by
  have hclose : Reads (closeBlocks (s.column < ·)) s ⟨⟩ s := by
    refine reads_modify_eq ?_
    dsimp only
    split
    · rfl
    · rename_i hflow
      have hclosed : s.blocks.takeWhile (s.column < ·) = [] := by
        cases hb : s.blocks with
        | nil => rfl
        | cons b bs =>
          rw [hb] at hblocks
          exact List.takeWhile_cons_of_neg (by simpa using hblocks.resolve_left hflow b rfl)
      rw [hclosed]
      rfl
  exact (reads_modify_eq hp).bind ((reads_forgetExpired_kept hkeys).bind ((reads_get s).bind hclose))

/-! ## Steps -/

/-- A token is read, and what stands before the next one is passed over. -/
def Step (s t : Scan) : Prop :=
  ∃ u, Reads token s ⟨⟩ u ∧ Reads settle u ⟨⟩ t ∧ t.rest.length < s.rest.length

/-- Reading tokens leads from one place to another. -/
def Reaches (p q : Place) : Prop :=
  ∀ s : Scan, s.At p → s.key = none → ∃ t, Relation.ReflTransGen Step s t ∧ t.At q ∧ t.key = none

theorem Reaches.trans {r : Place} (h : Reaches p q) (h' : Reaches q r) : Reaches p r := by
  intro s hs hkey
  obtain ⟨t, hst, ht, htkey⟩ := h s hs hkey
  obtain ⟨u, htu, hu, hukey⟩ := h' t ht htkey
  exact ⟨u, hst.trans htu, hu, hukey⟩

theorem Reads.tokens_end (hsettle : Reads settle s ⟨⟩ t) (hend : t.rest = []) (hclose : Reads closeDocument t ⟨⟩ u)
    (fuel : Nat) : Reads (tokens (fuel + 1)) s ⟨⟩ u := by
  rw [tokens_succ]
  refine hsettle.bind ((reads_get t).bind ?_)
  rw [hend]
  exact hclose

theorem Reads.tokens_more {v : Scan} {fuel : Nat} (hsettle : Reads settle s ⟨⟩ t) (hne : t.rest ≠ [])
    (htoken : Reads token t ⟨⟩ u) (h : Reads (tokens fuel) u ⟨⟩ v) : Reads (tokens (fuel + 1)) s ⟨⟩ v := by
  rw [tokens_succ]
  refine hsettle.bind ((reads_get t).bind ?_)
  rw [List.isEmpty_eq_false_iff.2 hne, if_neg Bool.false_ne_true]
  exact htoken.bind h

/-- From the first token reading comes to its end. -/
theorem reads_tokens {v : Scan} (hsettle : Reads settle s ⟨⟩ t) (hsteps : Relation.ReflTransGen Step t u)
    (hend : u.rest = []) (hclose : Reads closeDocument u ⟨⟩ v) {fuel : Nat} (hfuel : t.rest.length < fuel) :
    Reads (tokens fuel) s ⟨⟩ v := by
  -- each step shortens the text, so there is fuel for one more token as long as there is text
  induction hsteps using Relation.ReflTransGen.head_induction_on generalizing s fuel with
  | refl =>
    obtain ⟨fuel, rfl⟩ := Nat.exists_eq_add_of_lt hfuel
    exact .tokens_end hsettle hend hclose _
  | head hstep hsteps ih =>
    obtain ⟨w, htoken, hsettle', hshort⟩ := hstep
    obtain ⟨fuel, rfl⟩ := Nat.exists_eq_add_of_lt hfuel
    refine .tokens_more hsettle ?_ htoken (ih hsettle' (by omega))
    exact List.ne_nil_of_length_pos (Nat.lt_of_le_of_lt (Nat.zero_le _) hshort)

end Reader

end HistogramMonitor.Yaml
