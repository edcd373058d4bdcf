import HistogramMonitor.Proofs.Yaml.Brackets

/-!
# Reading back the layout

The tokens of an outline (`Outline.tokens`), and that they are read from its lines. A first entry of a collection
opens it, further entries find it open, and it ends with the first token to the left of its column, which is the next
one after its last line. An outline in an item stands to the right of the dash (`ReadsInItem`), and one under a key
may stand in the column of the key or on its line (`ReadsUnderKey`); the induction on the outline is on both at once.
-/

namespace HistogramMonitor.Yaml

namespace Outline

open HistogramMonitor.Yaml.Reader

/-! ## Tokens -/

/-- The tokens of a collection in block layout. -/
def inBlock (start : Token) (entries : List Token) : List Token := start :: (entries ++ [.blockEnd])

mutual

/-- The tokens of an outline; `under` a key, nothing marks where a list begins and ends. -/
def tokens : Outline → Bool → List Token
  | .text s, _ => [.scalar s (styleOf s)]
  | .number n, _ => [.scalar (toString n) .plain]
  | .list [], _ => [.openBracket, .closeBracket]
  | .record [], _ => [.openBrace, .closeBrace]
  | .list (item :: items), true => .item :: (item.tokens false ++ itemTokens items)
  | .list (item :: items), false => inBlock .sequenceStart (.item :: (item.tokens false ++ itemTokens items))
  | .record ((key, value) :: members), _ =>
    inBlock .mappingStart (.key :: .scalar key .plain :: .value :: (value.tokens true ++ memberTokens members))

/-- The tokens of some items. -/
def itemTokens : List Outline → List Token
  | [] => []
  | item :: items => .item :: (item.tokens false ++ itemTokens items)

/-- The tokens of some members. -/
def memberTokens : List (String × Outline) → List Token
  | [] => []
  | (key, value) :: members => .key :: .scalar key .plain :: .value :: (value.tokens true ++ memberTokens members)

end

theorem tokens_list {items : List Outline} (hne : items ≠ []) (under : Bool) :
    tokens (.list items) under =
      if under then itemTokens items else inBlock .sequenceStart (itemTokens items) := by
  obtain ⟨item, items, rfl⟩ := List.exists_cons_of_ne_nil hne
  cases under <;> rw [tokens, itemTokens] <;> rfl

theorem tokens_record {members : List (String × Outline)} (hne : members ≠ []) (under : Bool) :
    tokens (.record members) under = inBlock .mappingStart (memberTokens members) := by
  obtain ⟨⟨key, value⟩, members, rfl⟩ := List.exists_cons_of_ne_nil hne
  rw [tokens, memberTokens]

/-! ## Outlines that can be written -/

/-- An outline whose keys can all be keys as they are. -/
inductive Writable : Outline → Prop
  | text (s : String) : Writable (.text s)
  | number (n : Nat) : Writable (.number n)
  | list {items : List Outline} (h : ∀ o ∈ items, Writable o) : Writable (.list items)
  | record {members : List (String × Outline)} (hkeys : ∀ m ∈ members, isKey m.1 = true)
    (h : ∀ m ∈ members, Writable m.2) : Writable (.record members)

theorem begins_key {w : List Char} (hw : Key w) (more : List Char) : Begins (w ++ more) := by
  obtain ⟨c, v, rfl⟩ := List.exists_cons_of_ne_nil hw.ne_nil
  intro d hd
  cases hd
  have hc := hw.chars c List.mem_cons_self
  exact ⟨hw.plainWord.dark c List.mem_cons_self, ne_of_isKeyChar hc (by decide), ne_of_isKeyChar hc (by decide)⟩

theorem Writable.begins {o : Outline} (h : Writable o) (column : Nat) (more : List Char) :
    Begins (o.lines column ++ more) := by
  cases h with
  | text s =>
    rw [lines]
    exact begins_textLines (holds_styleOf s) column more
  | number n =>
    rw [lines]
    exact begins_textLines (holds_number n) column more
  | @list items =>
    intro c hc
    cases items with
    | nil =>
      rw [lines] at hc
      cases hc
      decide
    | cons item items =>
      rw [lines] at hc
      cases hc
      decide
  | @record members hkeys =>
    cases members with
    | nil =>
      intro c hc
      rw [lines] at hc
      cases hc
      decide
    | cons m members =>
      obtain ⟨key, value⟩ := m
      rw [lines, List.append_assoc, List.append_assoc]
      exact begins_key (Key.of_isKey (hkeys _ List.mem_cons_self)) _

/-! ## From lines to tokens -/

/-- An outline is read back where it stands in an item, up to the next line. -/
def ReadsInItem (o : Outline) : Prop :=
  ∀ (b : Nat) (bs : List Nat) (ts : List Token) (n : Nat) (more : List Char), n ≤ b → Begins more →
    Reaches ⟨o.lines (b + 2) ++ (indent n ++ more), b + 2, true, b :: bs, ts⟩
      (Place.closed ⟨more, n, true, b :: bs, ts ++ o.tokens false⟩)

/-- An outline is read back under a key, up to the next line. -/
def ReadsUnderKey (o : Outline) : Prop :=
  ∀ (w : List Char) (column : Nat) (outer blocks : List Nat) (opening ts : List Token) (n : Nat)
    (more : List Char),
    Key w → Enters column outer .mappingStart blocks opening → n ≤ column → Begins more →
    Reaches ⟨w ++ ':' :: (o.valueLines column ++ (indent n ++ more)), column, true, blocks, ts⟩
      (Place.closed ⟨more, n, true, column :: outer,
        ts ++ (opening ++ .key :: .scalar (String.ofList w) .plain :: .value :: o.tokens true)⟩)

theorem begins_dash (text : List Char) : Begins ('-' :: ' ' :: text) := fun c hc => by
  cases hc
  decide

/-- A block ends where the next line begins to its left. -/
theorem closed_block {more : List Char} {n column : Nat} {bs : List Nat} {ts : List Token} (h : n < column) :
    Place.closed ⟨more, n, true, column :: bs, ts⟩ = Place.closed ⟨more, n, true, bs, ts ++ [.blockEnd]⟩ := by
  have hdrop : (column :: bs).dropWhile (n < ·) = bs.dropWhile (n < ·) :=
    List.dropWhile_cons_of_pos (decide_eq_true h)
  have htake : (column :: bs).takeWhile (n < ·) = column :: bs.takeWhile (n < ·) :=
    List.takeWhile_cons_of_pos (decide_eq_true h)
  unfold Place.closed
  dsimp only
  rw [hdrop, htake, List.map_cons, List.append_assoc]
  rfl

section Entries

variable {column n : Nat} {outer blocks : List Nat} {opening : List Token} {more : List Char}

/-- An item is read back with its dash. -/
theorem ReadsInItem.entry {item : Outline} (hback : ReadsInItem item) (hitem : Writable item) (ts : List Token)
    (hentry : Enters column outer .sequenceStart blocks opening) (hn : n ≤ column) (hmore : Begins more) :
    Reaches ⟨'-' :: ' ' :: (item.lines (column + 2) ++ (indent n ++ more)), column, true, blocks, ts⟩
      (Place.closed ⟨more, n, true, column :: outer, ts ++ (opening ++ .item :: item.tokens false)⟩) := by
  have hdash := reaches_item ts hentry (hitem.begins (column + 2) (indent n ++ more))
  have hread := hback column outer (ts ++ (opening ++ [.item])) n more hn hmore
  simp only [List.append_assoc, List.cons_append, List.nil_append] at hdash hread
  exact hdash.trans hread

/-- Items are read back, the first of them as what the column of the list asks for. -/
theorem reaches_items {item : Outline} {items : List Outline} (hitems : ∀ o ∈ item :: items, Writable o)
    (hback : ∀ o ∈ item :: items, ReadsInItem o) (ts : List Token)
    (hentry : Enters column outer .sequenceStart blocks opening) (hn : n ≤ column) (hmore : Begins more) :
    Reaches ⟨'-' :: ' ' :: (item.lines (column + 2) ++ (itemLines column items ++ (indent n ++ more))),
        column, true, blocks, ts⟩
      (Place.closed ⟨more, n, true, column :: outer, ts ++ (opening ++ itemTokens (item :: items))⟩) := by
  induction items generalizing item blocks opening ts with
  | nil =>
    have hlast := (hback item List.mem_cons_self).entry (hitems item List.mem_cons_self) ts hentry hn hmore
    rw [itemLines, itemTokens, itemTokens, List.append_nil, List.nil_append]
    exact hlast
  | cons next items ih =>
    have hdash := begins_dash (next.lines (column + 2) ++ (itemLines column items ++ (indent n ++ more)))
    have hfirst := (hback item List.mem_cons_self).entry (hitems item List.mem_cons_self) ts hentry
      (Nat.le_refl column) hdash
    have hlater := ih (List.forall_mem_of_forall_mem_cons hitems) (List.forall_mem_of_forall_mem_cons hback)
      (ts ++ (opening ++ .item :: item.tokens false)) .further
    rw [closed_entry (Nat.le_refl column)] at hfirst
    rw [itemLines, itemTokens]
    simp only [List.nil_append, List.append_assoc, List.cons_append] at hfirst hlater ⊢
    exact hfirst.trans hlater

/-- Members are read back, the first of them as what the column of the record asks for. -/
theorem reaches_members {key : String} {value : Outline} {members : List (String × Outline)}
    (hkeys : ∀ m ∈ (key, value) :: members, isKey m.1 = true)
    (hback : ∀ m ∈ (key, value) :: members, ReadsUnderKey m.2) (ts : List Token)
    (hentry : Enters column outer .mappingStart blocks opening) (hn : n ≤ column) (hmore : Begins more) :
    Reaches ⟨key.toList ++ ':' :: (value.valueLines column ++ (memberLines column members ++ (indent n ++ more))),
        column, true, blocks, ts⟩
      (Place.closed ⟨more, n, true, column :: outer,
        ts ++ (opening ++ memberTokens ((key, value) :: members))⟩) := by
  induction members generalizing key value blocks opening ts with
  | nil =>
    have hkey := Key.of_isKey (hkeys _ List.mem_cons_self)
    have hlast := hback _ List.mem_cons_self key.toList column outer blocks opening ts n more hkey hentry hn hmore
    rw [String.ofList_toList] at hlast
    rw [memberLines, memberTokens, memberTokens, List.append_nil, List.nil_append]
    exact hlast
  | cons next members ih =>
    obtain ⟨nextKey, nextValue⟩ := next
    have hkey := Key.of_isKey (hkeys _ List.mem_cons_self)
    have hnext := begins_key (Key.of_isKey (hkeys _ (List.mem_cons_of_mem _ List.mem_cons_self)))
      (':' :: (nextValue.valueLines column ++ (memberLines column members ++ (indent n ++ more))))
    have hfirst := hback _ List.mem_cons_self key.toList column outer blocks opening ts column _ hkey hentry
      (Nat.le_refl column) hnext
    have hlater := ih (List.forall_mem_of_forall_mem_cons hkeys) (List.forall_mem_of_forall_mem_cons hback)
      (ts ++ (opening ++ .key :: .scalar key .plain :: .value :: value.tokens true)) .further
    rw [closed_entry (Nat.le_refl column), String.ofList_toList] at hfirst
    rw [memberLines, memberTokens]
    simp only [List.nil_append, List.append_assoc, List.cons_append] at hfirst hlater ⊢
    exact hfirst.trans hlater

end Entries

/-! ## One kind of outline at a time -/

section Kinds

variable {o : Outline}

/-- A scalar is read back in an item and under a key. -/
theorem readsBack_scalar {str : String} {style : Style} (hholds : Holds style str.toList)
    (hlines : ∀ column, o.lines column = textLines column style str.toList)
    (hvalue : ∀ column, o.valueLines column = ' ' :: textLines (column + 2) style str.toList)
    (htokens : ∀ under, o.tokens under = [.scalar str style]) : ReadsInItem o ∧ ReadsUnderKey o := by
  constructor
  · intro b bs ts n more hn hmore
    have hread := reaches_textLines true bs ts hholds hmore hn (Nat.lt_add_of_pos_right Nat.two_pos)
    rw [String.ofList_toList] at hread
    rw [hlines, htokens]
    exact hread
  · intro w column outer blocks opening ts n more hw hentry hn hmore
    have hkey := reaches_key ts hw hentry (begins_textLines hholds (column + 2) (indent n ++ more))
    have hright : column < column + w.length + 2 := by omega
    have hread := reaches_textLines false outer
      (ts ++ (opening ++ [.key, .scalar (String.ofList w) .plain, .value])) hholds hmore hn hright
    rw [String.ofList_toList] at hread
    rw [hvalue, htokens]
    simp only [List.append_assoc, List.cons_append, List.nil_append] at hkey hread ⊢
    exact hkey.trans hread

/-- A collection without entries is read back in an item and under a key. -/
theorem readsBack_brackets {c d : Char} {opener closer : Token} (h : Brackets c d opener closer)
    (hlines : ∀ column, o.lines column = [c, d, '\n'])
    (hvalue : ∀ column, o.valueLines column = [' ', c, d, '\n'])
    (htokens : ∀ under, o.tokens under = [opener, closer]) : ReadsInItem o ∧ ReadsUnderKey o := by
  constructor
  · intro b bs ts n more _ hmore
    rw [hlines, htokens]
    exact reaches_brackets h n true bs ts hmore (Nat.lt_add_of_pos_right Nat.two_pos)
  · intro w column outer blocks opening ts n more hw hentry _ hmore
    have hkey := reaches_key ts hw hentry (h.begins (d :: '\n' :: (indent n ++ more))).1
    have hright : column < column + w.length + 2 := by omega
    have hread := reaches_brackets h n false outer
      (ts ++ (opening ++ [.key, .scalar (String.ofList w) .plain, .value])) hmore hright
    rw [hvalue, htokens]
    simp only [List.append_assoc, List.cons_append, List.nil_append] at hkey hread ⊢
    exact hkey.trans hread

theorem readsBack_list {items : List Outline} (hne : items ≠ []) (hitems : ∀ o ∈ items, Writable o)
    (hback : ∀ o ∈ items, ReadsInItem o) : ReadsInItem (.list items) ∧ ReadsUnderKey (.list items) := by
  obtain ⟨item, items, rfl⟩ := List.exists_cons_of_ne_nil hne
  constructor
  · intro b bs ts n more hn hmore
    have hentry : Enters (b + 2) (b :: bs) .sequenceStart (b :: bs) [.sequenceStart] := .first fun c hc => by
      cases hc
      omega
    have hread := reaches_items hitems hback ts hentry (Nat.le_add_right_of_le hn) hmore
    rw [closed_block (by omega)] at hread
    rw [tokens_list hne, lines]
    simp only [inBlock, List.append_assoc, List.cons_append, List.nil_append] at hread ⊢
    exact hread
  · -- the list stands in the column of its key and opens no block of its own
    intro w column outer blocks opening ts n more hw hentry hn hmore
    have hdash := begins_dash (item.lines (column + 2) ++ (itemLines column items ++ (indent n ++ more)))
    have hkey := reaches_keyLine ts hw hentry (Nat.le_refl column) hdash
    have hread := reaches_items hitems hback (ts ++ (opening ++ [.key, .scalar (String.ofList w) .plain, .value]))
      (.further : Enters column outer _ _ _) hn hmore
    rw [tokens_list hne, valueLines]
    simp only [List.append_assoc, List.cons_append, List.nil_append] at hkey hread ⊢
    exact hkey.trans hread

theorem readsBack_record {members : List (String × Outline)} (hne : members ≠ [])
    (hkeys : ∀ m ∈ members, isKey m.1 = true) (hback : ∀ m ∈ members, ReadsUnderKey m.2) :
    ReadsInItem (.record members) ∧ ReadsUnderKey (.record members) := by
  obtain ⟨⟨key, value⟩, members, rfl⟩ := List.exists_cons_of_ne_nil hne
  have hfirst : ∀ (b : Nat) (bs : List Nat), Enters (b + 2) (b :: bs) .mappingStart (b :: bs) [.mappingStart] :=
    fun b bs => .first fun c hc => by
      cases hc
      omega
  constructor
  · intro b bs ts n more hn hmore
    have hread := reaches_members hkeys hback ts (hfirst b bs) (Nat.le_add_right_of_le hn) hmore
    rw [closed_block (by omega)] at hread
    rw [tokens_record hne, lines]
    simp only [inBlock, List.append_assoc, List.cons_append, List.nil_append] at hread ⊢
    exact hread
  · intro w column outer blocks opening ts n more hw hentry hn hmore
    have hinner := begins_key (Key.of_isKey (hkeys _ List.mem_cons_self))
      (':' :: (value.valueLines (column + 2) ++ (memberLines (column + 2) members ++ (indent n ++ more))))
    have hkey := reaches_keyLine ts hw hentry (Nat.le_add_right column 2) hinner
    have hread := reaches_members hkeys hback
      (ts ++ (opening ++ [.key, .scalar (String.ofList w) .plain, .value])) (hfirst column outer)
      (Nat.le_add_right_of_le hn) hmore
    rw [closed_block (by omega)] at hread
    rw [tokens_record hne, valueLines]
    simp only [inBlock, List.append_assoc, List.cons_append, List.nil_append] at hkey hread ⊢
    exact hkey.trans hread

end Kinds

/-- **The lines of an outline are read back as its tokens**, in an item and under a key. -/
theorem Writable.readsBack {o : Outline} (h : Writable o) : ReadsInItem o ∧ ReadsUnderKey o := by
  induction h with
  | text s =>
    exact readsBack_scalar (holds_styleOf s) (fun _ => by rw [lines]) (fun _ => by rw [valueLines]) fun _ => by
      rw [tokens]
  | number n =>
    exact readsBack_scalar (holds_number n) (fun _ => by rw [lines]; rfl) (fun _ => by rw [valueLines]; rfl)
      fun _ => by rw [tokens]
  | @list items hitems ih =>
    by_cases hne : items = []
    · subst hne
      exact readsBack_brackets .square (fun _ => by rw [lines]; rfl) (fun _ => by rw [valueLines]; rfl) fun _ => by
        rw [tokens]
    · exact readsBack_list hne hitems fun o ho => (ih o ho).1
  | @record members hkeys _ ih =>
    by_cases hne : members = []
    · subst hne
      exact readsBack_brackets .curly (fun _ => by rw [lines]; rfl) (fun _ => by rw [valueLines]; rfl) fun _ => by
        rw [tokens]
    · exact readsBack_record hne hkeys fun m hm => (ih m hm).2

end Outline

end HistogramMonitor.Yaml
