import HistogramMonitor.Proofs.Transport.Listing

/-!
# Listings that stay short

A listing that was cut, and cut again when it was asked for once more, is read as far as it goes. Its text breaks
off somewhere: within a name, right behind one, or right behind a newline. Of what is read, all names but the last are
names of the full listing, and the last is what arrived of the next one (`BreaksOff`), be it all, some or nothing of
it. And where the cut falls within a character, nothing is read at all (`short_listing`).

So a listing that stays short is not merely incomplete: it may name what is not there (`invented_name`).
-/

namespace HistogramMonitor

variable {σ : Type}

namespace Client

/-! ## Lines of a text that breaks off -/

theorem lines_ne_nil (text : List Char) : lines text ≠ [] :=
  lines_eq_splitOn text ▸ List.splitOn_ne_nil '\n' text

theorem exists_last_line (text : List Char) : ∃ init last, lines text = init ++ [last] :=
  ⟨_, _, (List.dropLast_concat_getLast (lines_ne_nil text)).symm⟩

/-- What follows a text goes on with its last line. -/
theorem lines_append {a b first last : List Char} {init rest : List (List Char)}
    (ha : lines a = init ++ [last]) (hb : lines b = first :: rest) :
    lines (a ++ b) = init ++ (last ++ first) :: rest := by
  induction a generalizing init last with
  | nil =>
    obtain ⟨rfl, rfl⟩ : init = [] ∧ last = [] := by
      cases init with
      | nil => exact ⟨rfl, (List.singleton_inj.mp ha).symm⟩
      | cons line init => exact absurd (List.cons.inj ha).2.symm (by simp)
    exact hb
  | cons c a ih =>
    rw [lines_eq_splitOn, List.splitOn_cons_eq_if_modifyHead, ← lines_eq_splitOn] at ha
    rw [List.cons_append, lines_eq_splitOn, List.splitOn_cons_eq_if_modifyHead, ← lines_eq_splitOn]
    by_cases hc : c = '\n'
    · subst hc
      simp only [beq_self_eq_true, if_true] at ha ⊢
      cases init with
      | nil =>
        obtain ⟨-, hnil⟩ := List.cons.inj ha
        exact absurd hnil (lines_ne_nil a)
      | cons line init =>
        obtain ⟨rfl, hinit⟩ := List.cons.inj ha
        rw [ih hinit]
        rfl
    · simp only [beq_iff_eq, hc, if_false] at ha ⊢
      obtain ⟨line, more, hlines⟩ := List.exists_cons_of_ne_nil (lines_ne_nil a)
      rw [hlines, List.modifyHead_cons] at ha
      -- the character stands in front of the first line, which may be the last one too
      cases init with
      | nil =>
        obtain ⟨rfl, rfl⟩ := List.cons.inj ha
        have hone : lines a = [] ++ [line] := hlines
        rw [ih hone]
        rfl
      | cons line' init =>
        obtain ⟨rfl, rfl⟩ := List.cons.inj ha
        have hmore : lines a = (line :: init) ++ [last] := hlines
        rw [ih hmore]
        rfl

/-! ## Names of a listing that breaks off -/

/-- The names are the first ones of a listing, and then the beginning of the next. -/
def BreaksOff (names returned : List String) : Prop :=
  ∃ whole next later part, names = whole ++ next :: later ∧ returned = whole ++ [part] ∧
    part.toList <+: next.toList

/-- What a listing comes to of which the first `n` bytes have arrived. -/
inductive PartOf (names : List String) (n : Nat) : Except TransportError (List String) → Prop
  /-- The cut falls between two characters, and the names are read as far as they go. Nothing is read if nothing has
  arrived, and if the cut falls at the end of a name, nothing but whole names. -/
  | between {before after : List Char} {c : Char} {returned : List String}
      (text : ("\n".intercalate names).toList = before ++ c :: after)
      (arrived : (Utf8.encode before).length = n)
      (joined : ("\n".intercalate returned).toList = before)
      (empty : before = [] → returned = [])
      (broken : before ≠ [] → BreaksOff names returned)
      (whole : c = '\n' → returned <+: names) : PartOf names n (.ok returned)
  /-- The cut falls within a character, and the listing counts as no text. -/
  | within {before after : List Char} {c : Char}
      (text : ("\n".intercalate names).toList = before ++ c :: after)
      (low : (Utf8.encode before).length < n)
      (high : n < (Utf8.encode (before ++ [c])).length) :
      PartOf names n (.error (.listing ⟨(Utf8.encode before).length, none⟩))

section

variable {names : List String} {before after : List Char}

/-- The lines of the beginning of a listing are the names in it, as far as they go. -/
theorem breaksOff_lines (hne : names ≠ []) (hnames : OneLiners names)
    (htext : ['\n'].intercalate (names.map String.toList) = before ++ after) :
    BreaksOff names ((lines before).map String.ofList) := by
  obtain ⟨init, last, hbefore⟩ := exists_last_line before
  obtain ⟨first, rest, hafter⟩ := List.exists_cons_of_ne_nil (lines_ne_nil after)
  have hall := lines_joined hne hnames
  rw [htext, lines_append hbefore hafter] at hall
  refine ⟨init.map String.ofList, String.ofList (last ++ first), rest.map String.ofList, String.ofList last,
    ?_, ?_, ?_⟩
  · rw [← hall, List.map_append, List.map_cons]
  · rw [hbefore, List.map_append, List.map_singleton]
  · rw [String.toList_ofList, String.toList_ofList]
    exact List.prefix_append last first

/-- Up to the end of a name, the lines are names. -/
theorem lines_prefix (hne : names ≠ []) (hnames : OneLiners names)
    (htext : ['\n'].intercalate (names.map String.toList) = before ++ '\n' :: after) :
    (lines before).map String.ofList <+: names := by
  obtain ⟨init, last, hbefore⟩ := exists_last_line before
  have hafter : lines ('\n' :: after) = [] :: lines after := by
    rw [lines_eq_splitOn, List.splitOn_cons_eq_if_modifyHead, ← lines_eq_splitOn]
    rfl
  have hall := lines_joined hne hnames
  rw [htext, lines_append hbefore hafter, List.append_nil, List.append_cons, ← hbefore, List.map_append] at hall
  exact ⟨_, hall⟩

end

/-- **What is read of a part of a listing.** -/
theorem partOf_take {names : List String} (hnames : OneLiners names) {n : Nat} (hn : n < (listed names).length) :
    PartOf names n (namesIn ((listed names).take n)) := by
  have htoList : ("\n".intercalate names).toList = ['\n'].intercalate (names.map String.toList) :=
    String.toList_intercalate
  rw [listed_eq] at hn ⊢
  obtain ⟨before, c, after, htext, hle, hlt, htake⟩ := Utf8.exists_take_encode hn
  rw [htake]
  by_cases hwhole : (Utf8.encode before).length = n
  · have hne : names ≠ [] := by
      rintro rfl
      exact absurd htext (by simp)
    rw [hwhole, Nat.sub_self, List.take_zero, List.append_nil, namesIn_encode]
    by_cases hnil : before = []
    · subst hnil
      exact .between (htoList.trans htext) hwhole rfl (fun _ => rfl) (absurd rfl) fun _ => List.nil_prefix
    · rw [if_neg hnil]
      refine .between (htoList.trans htext) hwhole ?_ (absurd · hnil)
        (fun _ => breaksOff_lines hne hnames htext) ?_
      · rw [String.toList_intercalate]
        exact joined_lines before
      · rintro rfl
        exact lines_prefix hne hnames htext
  · have hlow := Nat.lt_of_le_of_ne hle hwhole
    have hwidth := hlt
    rw [Utf8.encode_append, List.length_append, Utf8.encode_singleton] at hwidth
    have hsome : (Utf8.encode before ++
        (String.utf8EncodeChar c).take (n - (Utf8.encode before).length)).isEmpty = false := by
      rw [List.isEmpty_eq_false_iff, ← List.length_pos_iff, List.length_append, List.length_take]
      omega
    rw [namesIn, hsome, if_neg Bool.false_ne_true, Utf8.decode_cut before (by omega) (by omega)]
    exact .within (htoList.trans htext) hlow hlt

/-! ## Listings that stay short -/

/-- **A listing that stays short is read as far as it goes.** Let names without newlines be listed, and of the message
that lists them let no more than a part arrive, header and all, and again no more than a part when it is asked for once
more. If the first part has as many bytes as the message declares, it counts, and the second one if not; only for
messages of 2³² bytes or more that is not the second one. What is read are the names in the part that counts, as far as
they go: a few of the names, in order, and what arrived of the next one. Where it ends within a character, that is an
error. -/
theorem short_listing (w : Surroundings σ) (runs : List UInt32) (program : String) (m : σ) (names : List String)
    (hnames : OneLiners names) (n₁ n₂ : Nat) (h₁ : 8 ≤ n₁ ∧ n₁ < (listMessage names).length)
    (h₂ : 8 ≤ n₂ ∧ n₂ < (listMessage names).length)
    (hfirst : (w.answer m (listing runs program)).reply = .bytes ((listMessage names).take n₁))
    (hagain : (w.answer (w.answer m (listing runs program)).next
      { listing runs program with hint := some ((listMessage names).length % 0x100000000) }).reply =
        .bytes ((listMessage names).take n₂)) :
    ((listMessage names).length < 0x100000000 → n₁ < (listMessage names).length % 0x100000000) ∧
    ∃ result, (list w runs program m).value = some result ∧
      PartOf names ((if n₁ < (listMessage names).length % 0x100000000 then n₂ else n₁) - 8) result := by
  have hread : ∀ n, 8 ≤ n → n < (listMessage names).length →
      lastReply w (listing runs program) m = .bytes ((listMessage names).take n) →
      ∃ result, (list w runs program m).value = some result ∧ PartOf names (n - 8) result := by
    intro n hn hlt hlast
    have hpayload : ((listMessage names).take n).drop Envelope.size = (listed names).take (n - 8) := by
      rw [List.drop_take, listMessage, Envelope.drop_wrap]
      rfl
    rw [listMessage, Envelope.length_wrap, Envelope.size] at hlt
    refine ⟨_, list_value hlast ?_, hpayload ▸ partOf_take hnames (by omega)⟩
    rw [List.length_take, listMessage, Envelope.length_wrap]
    exact Nat.le_min.mpr ⟨hn, Nat.le_add_right _ _⟩
  refine ⟨fun hshort => (Nat.mod_eq_of_lt hshort).symm ▸ h₁.2, ?_⟩
  have hshortfall := Reply.shortfall?_take Envelope.listType (listed names) h₁.1
  by_cases hcut : n₁ < (listMessage names).length % 0x100000000
  · rw [if_pos hcut]
    refine hread n₂ h₂.1 h₂.2 ?_
    rw [listMessage] at hcut hfirst hagain
    rw [if_pos hcut] at hshortfall
    simp only [lastReply, hfirst, hshortfall]
    exact hagain
  · rw [if_neg hcut]
    refine hread n₁ h₁.1 h₁.2 ?_
    rw [listMessage] at hcut hfirst
    rw [if_neg hcut] at hshortfall
    simp only [lastReply, hfirst, hshortfall]
    rfl

/-- Two names, the second of which has two characters. -/
def duo : List String := ["a", "bc"]

/-- A backend that sends nine bytes of their listing, and after that all but the last. -/
def torn : Surroundings Nat where
  answer n _ := { reply := .bytes ((listMessage duo).take (if n = 0 then 9 else 11)), next := n + 1 }
  now n := (⟨n⟩, n)

theorem oneLiners_duo : OneLiners duo := by
  unfold OneLiners
  decide

/-- The second name is read without its last character. -/
theorem list_torn : (list torn [0] "ana" 0).value = some (.ok ["a", "b"]) := by
  have hlast : lastReply torn (listing [0] "ana") 0 =
      .bytes (Envelope.header Envelope.listType 12 ++ Utf8.encode ['a', '\n', 'b']) := rfl
  rw [list_value hlast (by decide)]
  exact congrArg some (namesIn_encode ['a', '\n', 'b'])

/-- The names break off in the second one. -/
theorem short_listing_of_torn : OneLiners duo ∧ (8 ≤ 9 ∧ 9 < (listMessage duo).length) ∧
    (8 ≤ 11 ∧ 11 < (listMessage duo).length) ∧
    (list torn [0] "ana" 0).value = some (.ok ["a", "b"]) ∧ PartOf duo 3 (.ok ["a", "b"]) := by
  have h₁ : 8 ≤ 9 ∧ 9 < (listMessage duo).length := by decide
  have h₂ : 8 ≤ 11 ∧ 11 < (listMessage duo).length := by decide
  obtain ⟨-, result, hvalue, hpart⟩ := short_listing torn [0] "ana" 0 duo oneLiners_duo 9 11 h₁ h₂ rfl rfl
  obtain rfl : Except.ok ["a", "b"] = result := Option.some.inj (list_torn.symm.trans hvalue)
  exact ⟨oneLiners_duo, h₁, h₂, hvalue, hpart⟩

/-- Not every name that is read of a listing that stays short is a name of the listing: one may be cut. -/
theorem invented_name : ¬ ∀ (w : Surroundings Nat) (runs : List UInt32) (program : String) (m : Nat)
    (names : List String) (n₁ n₂ : Nat), OneLiners names → "" ∉ names →
    8 ≤ n₁ → n₁ < (listMessage names).length → 8 ≤ n₂ → n₂ < (listMessage names).length →
    (w.answer m (listing runs program)).reply = .bytes ((listMessage names).take n₁) →
    (w.answer (w.answer m (listing runs program)).next
      { listing runs program with hint := some (listMessage names).length }).reply =
        .bytes ((listMessage names).take n₂) →
    ∃ returned, (list w runs program m).value = some (.ok returned) ∧ ∀ name ∈ returned, name ∈ names := by
  intro hall
  obtain ⟨returned, hvalue, hnames⟩ := hall torn [0] "ana" 0 duo 9 11 oneLiners_duo (by decide) (by decide)
    (by decide) (by decide) (by decide) rfl rfl
  obtain rfl : ["a", "b"] = returned := Except.ok.inj (Option.some.inj (list_torn.symm.trans hvalue))
  exact absurd (hnames "b" (by decide)) (by decide)

end Client

end HistogramMonitor
