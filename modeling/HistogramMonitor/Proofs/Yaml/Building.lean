import HistogramMonitor.Yaml.Document
import HistogramMonitor.Proofs.Yaml.Rendering

/-!
# From tokens to documents

The tokens of an outline make up its node. The fuel for it is counted in tokens: between two steps that take a token
there are at most two that take none.
-/

namespace HistogramMonitor.Yaml

namespace Builder

variable {α β : Type} {ts more left : List Token}

/-- A step of making up nodes goes well: it comes to a value and leaves some of the tokens, and nothing is said about
names and handles. -/
def Builds (r : Builder α) (ts : List Token) (a : α) (more : List Token) : Prop :=
  ∀ s : Supply, s.rest = ts → r s = .ok (a, { s with rest := more })

theorem Builds.bind {r : Builder α} {f : α → Builder β} {a : α} {b : β} (hr : Builds r ts a more)
    (hf : Builds (f a) more b left) : Builds (r >>= f) ts b left := by
  intro s hs
  have hbind : (r >>= f) s = (r s >>= fun p => f p.1 p.2) := rfl
  rw [hbind, hr s hs]
  exact hf { s with rest := more } rfl

theorem builds_pure (a : α) (ts : List Token) : Builds (pure a) ts a ts := by
  rintro s rfl
  rfl

theorem builds_peek (ts : List Token) : Builds peek ts ts.head? ts := by
  rintro s rfl
  rfl

theorem builds_advance (t : Token) (ts : List Token) : Builds advance (t :: ts) ⟨⟩ ts := by
  intro s hs
  have hadvance : advance s = .ok (⟨⟩, { s with rest := s.rest.tail }) := rfl
  rw [hadvance, hs, List.tail_cons]

/-- The token is no anchor, no tag and no alias. -/
def Bare (t : Token) : Prop :=
  (∀ name, t ≠ .anchor name) ∧ (∀ handle rest, t ≠ .tag handle rest) ∧ ∀ name, t ≠ .aliased name

theorem builds_anchor? {t : Token} (ht : Bare t) : Builds anchor? (t :: ts) none (t :: ts) := by
  unfold anchor?
  refine (builds_peek _).bind ?_
  rw [List.head?_cons]
  split
  · rename_i heq
    exact absurd (Option.some.inj heq) (ht.1 _)
  · exact builds_pure none _

theorem builds_tag? {t : Token} (ht : Bare t) : Builds tag? (t :: ts) none (t :: ts) := by
  unfold tag?
  refine (builds_peek _).bind ?_
  rw [List.head?_cons]
  split
  · rename_i heq
    exact absurd (Option.some.inj heq) (ht.2.1 _ _)
  · exact builds_pure none _

/-- Where no property stands, the label is empty. -/
theorem builds_label {t : Token} (ht : Bare t) : Builds label (t :: ts) {} (t :: ts) := by
  unfold label
  exact (builds_anchor? ht).bind ((builds_tag? ht).bind (builds_pure _ _))

theorem endsEntry_eq_false {t : Token} (h : t ≠ .key ∧ t ≠ .value ∧ t ≠ .blockEnd) :
    endsEntry (some t) = false := by
  unfold endsEntry
  split <;> simp_all

/-! ## Nodes -/

variable {fuel : Nat} {block under : Bool}

theorem builds_scalar (text : String) (style : Style) (ts : List Token) :
    Builds (node (fuel + 1) block under) (.scalar text style :: ts) (.scalar {} text style) ts := by
  unfold node
  refine (builds_peek _).bind ((builds_label ⟨by simp, by simp, by simp⟩).bind ((builds_peek _).bind ?_))
  exact (builds_advance _ ts).bind (builds_pure _ ts)

theorem builds_brackets (ts : List Token) :
    Builds (node (fuel + 2) block under) (.openBracket :: .closeBracket :: ts) (.sequence {} []) ts := by
  have hitems : Builds (flowItems (fuel + 1) true []) (.closeBracket :: ts) [] ts := by
    unfold flowItems
    refine (builds_peek _).bind ?_
    rw [Bool.true_or, if_pos rfl]
    exact (builds_peek _).bind ((builds_advance _ ts).bind (builds_pure _ ts))
  unfold node
  refine (builds_peek _).bind ((builds_label ⟨by simp, by simp, by simp⟩).bind ((builds_peek _).bind ?_))
  exact (builds_advance _ _).bind (hitems.bind (builds_pure _ ts))

theorem builds_braces (ts : List Token) :
    Builds (node (fuel + 2) block under) (.openBrace :: .closeBrace :: ts) (.mapping {} []) ts := by
  have hentries : Builds (flowEntries (fuel + 1) true []) (.closeBrace :: ts) [] ts := by
    unfold flowEntries
    refine (builds_peek _).bind ?_
    rw [Bool.true_or, if_pos rfl]
    exact (builds_peek _).bind ((builds_advance _ ts).bind (builds_pure _ ts))
  unfold node
  refine (builds_peek _).bind ((builds_label ⟨by simp, by simp, by simp⟩).bind ((builds_peek _).bind ?_))
  exact (builds_advance _ _).bind (hentries.bind (builds_pure _ ts))

theorem builds_sequence {items : List Node} (h : Builds (blockItems fuel []) ts items more) :
    Builds (node (fuel + 1) true under) (.sequenceStart :: ts) (.sequence {} items) more := by
  unfold node
  refine (builds_peek _).bind ((builds_label ⟨by simp, by simp, by simp⟩).bind ((builds_peek _).bind ?_))
  exact (builds_advance _ ts).bind (h.bind (builds_pure _ more))

theorem builds_looseSequence {items : List Node} (h : Builds (looseItems fuel []) (.item :: ts) items more) :
    Builds (node (fuel + 1) block true) (.item :: ts) (.sequence {} items) more := by
  unfold node
  refine (builds_peek _).bind ((builds_label ⟨by simp, by simp, by simp⟩).bind ((builds_peek _).bind ?_))
  exact h.bind (builds_pure _ more)

theorem builds_mapping {entries : List (Node × Node)} (h : Builds (blockEntries fuel []) ts entries more) :
    Builds (node (fuel + 1) true under) (.mappingStart :: ts) (.mapping {} entries) more := by
  unfold node
  refine (builds_peek _).bind ((builds_label ⟨by simp, by simp, by simp⟩).bind ((builds_peek _).bind ?_))
  exact (builds_advance _ ts).bind (h.bind (builds_pure _ more))

end Builder

namespace Outline

open Builder

/-- An outline is made up from its tokens; under a key no item may follow it. -/
def BuildsBack (o : Outline) : Prop :=
  ∀ (under : Bool) (fuel : Nat) (more : List Token), 2 * (o.tokens under).length + 2 ≤ fuel →
    (under = true → more.head? ≠ some .item) →
    Builds (Builder.node fuel true under) (o.tokens under ++ more) o.node more

/-- The first token of an outline; that of a list is a dash under a key only. -/
theorem exists_head (o : Outline) (under : Bool) : ∃ t ts, o.tokens under = t :: ts ∧
    t ≠ .key ∧ t ≠ .value ∧ t ≠ .blockEnd ∧ (under = false → t ≠ .item) := by
  cases o with
  | text s => exact ⟨_, _, by rw [tokens], by simp⟩
  | number n => exact ⟨_, _, by rw [tokens], by simp⟩
  | list items =>
    cases items with
    | nil => exact ⟨_, _, by rw [tokens], by simp⟩
    | cons item items =>
      cases under with
      | true => exact ⟨_, _, by rw [tokens], by simp⟩
      | false => exact ⟨_, _, by rw [tokens, inBlock], by simp⟩
  | record members =>
    cases members with
    | nil => exact ⟨_, _, by rw [tokens], by simp⟩
    | cons m members =>
      obtain ⟨key, value⟩ := m
      exact ⟨_, _, by rw [tokens, inBlock], by simp⟩

theorem builds_blockItems {items : List Outline} (hback : ∀ o ∈ items, BuildsBack o) {fuel : Nat}
    (hfuel : 2 * (itemTokens items).length + 1 ≤ fuel) (done : List Node) (more : List Token) :
    Builds (blockItems fuel done) (itemTokens items ++ .blockEnd :: more) (done.reverse ++ itemNodes items)
      more := by
  induction items generalizing fuel done with
  | nil =>
    obtain ⟨fuel, rfl⟩ : ∃ n, fuel = n + 1 := ⟨fuel - 1, by omega⟩
    rw [itemNodes, List.append_nil]
    unfold blockItems
    exact (builds_peek _).bind ((builds_advance _ more).bind (builds_pure _ more))
  | cons item items ih =>
    obtain ⟨fuel, rfl⟩ : ∃ n, fuel = n + 1 := ⟨fuel - 1, by omega⟩
    rw [itemTokens, List.length_cons, List.length_append] at hfuel
    obtain ⟨t, ts, htokens, hkey, hvalue, hend, hitem⟩ := item.exists_head false
    have hfuel' : 2 * (itemTokens items).length + 1 ≤ fuel := by omega
    have hnode := hback item List.mem_cons_self false fuel (itemTokens items ++ .blockEnd :: more) (by omega)
      (by simp)
    have hrest := ih (List.forall_mem_of_forall_mem_cons hback) hfuel' (item.node :: done)
    rw [List.reverse_cons, List.append_assoc] at hrest
    rw [itemTokens, itemNodes, List.cons_append, List.append_assoc]
    unfold blockItems
    refine (builds_peek _).bind ((builds_advance _ _).bind ((builds_peek _).bind ?_))
    have hnext : ¬((item.tokens false ++ (itemTokens items ++ .blockEnd :: more)).head? = some .item ∨
        (item.tokens false ++ (itemTokens items ++ .blockEnd :: more)).head? = some .blockEnd) := by
      rw [htokens]
      simpa using ⟨hitem rfl, hend⟩
    rw [if_neg hnext]
    exact hnode.bind hrest

/-- Without a mark for its end, a list ends where no dash follows. -/
theorem builds_looseItems {items : List Outline} (hback : ∀ o ∈ items, BuildsBack o) {fuel : Nat}
    (hfuel : 2 * (itemTokens items).length + 1 ≤ fuel) (done : List Node) {more : List Token}
    (hmore : more.head? ≠ some .item) :
    Builds (looseItems fuel done) (itemTokens items ++ more) (done.reverse ++ itemNodes items) more := by
  induction items generalizing fuel done with
  | nil =>
    obtain ⟨fuel, rfl⟩ : ∃ n, fuel = n + 1 := ⟨fuel - 1, by omega⟩
    rw [itemTokens, itemNodes, List.append_nil, List.nil_append]
    unfold looseItems
    refine (builds_peek _).bind ?_
    split
    · contradiction
    · exact builds_pure _ more
  | cons item items ih =>
    obtain ⟨fuel, rfl⟩ : ∃ n, fuel = n + 1 := ⟨fuel - 1, by omega⟩
    rw [itemTokens, List.length_cons, List.length_append] at hfuel
    obtain ⟨t, ts, htokens, hkey, hvalue, hend, hitem⟩ := item.exists_head false
    have hfuel' : 2 * (itemTokens items).length + 1 ≤ fuel := by omega
    have hnode := hback item List.mem_cons_self false fuel (itemTokens items ++ more) (by omega) (by simp)
    have hrest := ih (List.forall_mem_of_forall_mem_cons hback) hfuel' (item.node :: done)
    rw [List.reverse_cons, List.append_assoc] at hrest
    rw [itemTokens, itemNodes, List.cons_append, List.append_assoc]
    unfold looseItems
    refine (builds_peek _).bind ((builds_advance _ _).bind ((builds_peek _).bind ?_))
    have hnext : ¬((item.tokens false ++ (itemTokens items ++ more)).head? = some .item ∨
        endsEntry (item.tokens false ++ (itemTokens items ++ more)).head? = true) := by
      rw [htokens, List.cons_append, List.head?_cons, endsEntry_eq_false ⟨hkey, hvalue, hend⟩]
      simpa using hitem rfl
    rw [if_neg hnext]
    exact hnode.bind hrest

/-- The key and the value of a member. -/
theorem builds_part {fuel : Nat} {t : Token} {ts more : List Token} {n : Node}
    (ht : t ≠ .key ∧ t ≠ .value ∧ t ≠ .blockEnd) (h : Builds (Builder.node fuel true true) (t :: ts) n more) :
    Builds (blockPart (fuel + 1)) (t :: ts) n more := by
  unfold blockPart
  refine (builds_peek _).bind ?_
  rw [List.head?_cons, endsEntry_eq_false ht, if_neg Bool.false_ne_true]
  exact h

theorem builds_blockEntries {members : List (String × Outline)} (hback : ∀ m ∈ members, BuildsBack m.2)
    {fuel : Nat} (hfuel : 2 * (memberTokens members).length + 1 ≤ fuel) (done : List (Node × Node))
    (more : List Token) :
    Builds (blockEntries fuel done) (memberTokens members ++ .blockEnd :: more)
      (done.reverse ++ memberNodes members) more := by
  induction members generalizing fuel done with
  | nil =>
    obtain ⟨fuel, rfl⟩ : ∃ n, fuel = n + 1 := ⟨fuel - 1, by omega⟩
    rw [memberNodes, List.append_nil]
    unfold blockEntries
    exact (builds_peek _).bind ((builds_advance _ more).bind (builds_pure _ more))
  | cons m members ih =>
    obtain ⟨key, value⟩ := m
    rw [memberTokens, List.length_cons, List.length_cons, List.length_cons, List.length_append] at hfuel
    obtain ⟨fuel, rfl⟩ : ∃ n, fuel = n + 3 := ⟨fuel - 3, by omega⟩
    obtain ⟨t, ts, htokens, hhead⟩ := value.exists_head true
    have hmore : (memberTokens members ++ .blockEnd :: more).head? ≠ some .item := by
      cases members with
      | nil => simp [memberTokens]
      | cons m members =>
        obtain ⟨key, value⟩ := m
        simp [memberTokens]
    -- the key and the value take a step of fuel each, and the three tokens of the entry pay for them
    have hkey : Builds (blockPart (fuel + 2))
        (.scalar key .plain :: .value :: (value.tokens true ++ (memberTokens members ++ .blockEnd :: more)))
        (.scalar {} key .plain) (.value :: (value.tokens true ++ (memberTokens members ++ .blockEnd :: more))) :=
      builds_part (by simp) (builds_scalar key .plain _)
    have hvalueFuel : 2 * (value.tokens true).length + 2 ≤ fuel + 1 := by omega
    have hfuel' : 2 * (memberTokens members).length + 1 ≤ fuel + 2 := by omega
    have hnode := hback (key, value) List.mem_cons_self true (fuel + 1) (memberTokens members ++ .blockEnd :: more)
      hvalueFuel fun _ => hmore
    have hrest := ih (List.forall_mem_of_forall_mem_cons hback) hfuel' ((.scalar {} key .plain, value.node) :: done)
    dsimp only at hnode
    rw [htokens] at hnode hkey
    have hvalue := builds_part ⟨hhead.1, hhead.2.1, hhead.2.2.1⟩ hnode
    rw [List.reverse_cons, List.append_assoc] at hrest
    rw [memberTokens, memberNodes, htokens]
    simp only [List.cons_append, List.append_assoc] at hkey hvalue ⊢
    unfold blockEntries
    refine (builds_peek _).bind ((builds_advance _ _).bind (hkey.bind ((builds_peek _).bind ?_)))
    rw [List.head?_cons, if_pos rfl]
    exact (builds_advance _ _).bind (hvalue.bind hrest)

/-- **The tokens of an outline make up its node.** -/
theorem Writable.buildsBack {o : Outline} (h : Writable o) : BuildsBack o := by
  induction h with
  | text s =>
    intro under fuel more hfuel _
    obtain ⟨fuel, rfl⟩ : ∃ n, fuel = n + 1 := ⟨fuel - 1, by omega⟩
    rw [tokens, node]
    exact builds_scalar s _ more
  | number n =>
    intro under fuel more hfuel _
    obtain ⟨fuel, rfl⟩ : ∃ n, fuel = n + 1 := ⟨fuel - 1, by omega⟩
    rw [tokens, node]
    exact builds_scalar _ .plain more
  | @list items _ ih =>
    intro under fuel more hfuel hmore
    obtain ⟨fuel, rfl⟩ : ∃ n, fuel = n + 2 := ⟨fuel - 2, by omega⟩
    rw [node]
    by_cases hne : items = []
    · subst hne
      rw [tokens, itemNodes]
      exact builds_brackets more
    · rw [tokens_list hne] at hfuel ⊢
      cases under with
      | true =>
        obtain ⟨item, items, rfl⟩ := List.exists_cons_of_ne_nil hne
        exact builds_looseSequence (builds_looseItems ih (Nat.le_of_succ_le_succ hfuel) [] (hmore rfl))
      | false =>
        rw [if_neg Bool.false_ne_true, inBlock, List.length_cons, List.length_append] at hfuel
        rw [if_neg Bool.false_ne_true, inBlock, List.cons_append, List.append_assoc]
        exact builds_sequence (builds_blockItems ih (by omega) [] more)
  | @record members _ _ ih =>
    intro under fuel more hfuel _
    obtain ⟨fuel, rfl⟩ : ∃ n, fuel = n + 2 := ⟨fuel - 2, by omega⟩
    rw [node]
    by_cases hne : members = []
    · subst hne
      rw [tokens, memberNodes]
      exact builds_braces more
    · rw [tokens_record hne] at hfuel ⊢
      rw [inBlock, List.length_cons, List.length_append] at hfuel
      rw [inBlock, List.cons_append, List.append_assoc]
      exact builds_mapping (builds_blockEntries ih (by omega) [] more)

/-- **Parsing undoes writing**: the text of a record is read as the record. -/
theorem parse_render {members : List (String × Outline)} (hne : members ≠ []) (h : Writable (.record members)) :
    parse (render (.record members)) = .ok { root := node (.record members) } := by
  obtain ⟨a, htokens, hlist⟩ := tokensOf_render hne h
  have hnode := h.buildsBack false (4 * (tokens (.record members) false).length + 4) [] (by omega) (by simp)
  rw [List.append_nil] at hnode
  have hdocument : Builds (document (4 * (tokens (.record members) false).length + 4))
      (tokens (.record members) false) (node (.record members)) [] := by
    unfold document
    refine (builds_peek _).bind ?_
    rw [tokens_record hne] at hnode ⊢
    exact hnode
  have honly : Builds (onlyDocument (4 * (tokens (.record members) false).length + 4))
      (tokens (.record members) false) (node (.record members)) [] := by
    refine hdocument.bind fun s hs => ?_
    obtain ⟨rest, anchors, handles⟩ := s
    cases hs
    rfl
  have hread := honly { rest := tokens (.record members) false } rfl
  rw [← hlist] at hread
  unfold parse
  rw [htokens]
  dsimp only [bind, Except.bind]
  rw [hread]
  rfl

end Outline

end HistogramMonitor.Yaml
