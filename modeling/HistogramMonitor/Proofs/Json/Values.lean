import HistogramMonitor.Proofs.Json.Scalars

/-!
# Reading back values

What is written from a plain value, one whose numbers are naturals and which is not nested too deep (`Plain`),
is read as that value (`parse_text`).

The induction is on how the value is built. Beside each kind of value stands its text in the form in which it
is read: the first item or member, and then each further one after its comma. The fuel of a reader is bounded
by the length of the text, which covers every step, since each item takes at least one character.
-/

namespace HistogramMonitor.Json

/-! ## Values -/

/-- The value is nested no deeper than so many levels, and its numbers are naturals of 64 bits. -/
inductive Plain : Nat → Json → Prop
  | null {levels : Nat} : Plain levels .null
  | bool {levels : Nat} (b : Bool) : Plain levels (.bool b)
  | number {levels n : Nat} (h : n < 0x10000000000000000) : Plain levels (.ofNat n)
  | string {levels : Nat} (s : String) : Plain levels (.string s)
  | array {levels : Nat} {items : List Json} (h : ∀ j ∈ items, Plain levels j) :
    Plain (levels + 1) (.array items)
  | object {levels : Nat} {members : List (String × Json)} (h : ∀ m ∈ members, Plain levels m.2) :
    Plain (levels + 1) (.object members)

theorem characters_ofNat (n : Nat) : (ofNat n).characters = Nat.toDigits 10 n := by
  have htext : (ofNat n).characters = (toString n).toList := rfl
  rw [htext, Nat.toString_eq_ofList_toDigits, String.toList_ofList]

/-- The text of an item, after the one before. -/
def further (j : Json) : List Char := ',' :: j.characters

theorem itemsText_cons (j : Json) (js : List Json) :
    itemsText (j :: js) = j.characters ++ js.flatMap further := by
  induction js generalizing j with
  | nil => exact (List.append_nil _).symm
  | cons k ks ih =>
    rw [itemsText, ih]
    · rfl
    · exact List.cons_ne_nil k ks

/-- The text of one member. -/
def memberText (m : String × Json) : List Char := stringText m.1 ++ ':' :: m.2.characters

/-- The text of a member, after the one before. -/
def furtherMember (m : String × Json) : List Char := ',' :: memberText m

theorem membersText_cons (m : String × Json) (ms : List (String × Json)) :
    membersText (m :: ms) = memberText m ++ ms.flatMap furtherMember := by
  induction ms generalizing m with
  | nil =>
    rw [membersText]
    exact (List.append_nil _).symm
  | cons n ns ih =>
    rw [membersText, ih]
    · simp [memberText, furtherMember]
    · exact List.cons_ne_nil n ns

/-- A value begins with a character that is neither blank nor the end of a list. -/
theorem Plain.head {levels : Nat} {j : Json} (h : Plain levels j) :
    ∃ c cs, j.characters = c :: cs ∧ Reader.blank c = false ∧ c ≠ ']' := by
  cases h with
  | null => exact ⟨'n', _, rfl, by decide, by decide⟩
  | bool b => cases b <;> exact ⟨_, _, rfl, by decide, by decide⟩
  | @number _ n _ =>
    obtain ⟨d, ds, hds⟩ := List.exists_cons_of_ne_nil (Nat.toDigits_ne_nil : Nat.toDigits 10 n ≠ [])
    have hmem : d ∈ Nat.toDigits 10 n := hds ▸ List.mem_cons_self
    have hd : d.isDigit := Nat.isDigit_of_mem_toDigits (by decide) (by decide) hmem
    refine ⟨d, ds, by rw [characters_ofNat, hds], Reader.blank_of_digit hd, ?_⟩
    rintro rfl
    contradiction
  | string s => exact ⟨'"', _, rfl, by decide, by decide⟩
  | array _ => exact ⟨'[', _, rfl, by decide, by decide⟩
  | object _ => exact ⟨'\x7b', _, rfl, by decide, by decide⟩

namespace Reader

/-- A value is read back from its text, with at least as much fuel as that is long. -/
def ReadsBack (levels : Nat) (j : Json) : Prop :=
  ∀ fuel text, j.characters.length ≤ fuel → Stops text →
    Reads (value fuel levels) (j.characters ++ text) j text

theorem reads_value_digit {fuel levels : Nat} {d : Char} {text left : List Char} {j : Json} (hd : d.isDigit)
    (h : Reads (number false) (d :: text) j left) : Reads (value (fuel + 1) levels) (d :: text) j left := by
  unfold value
  refine (reads_peekToken (blank_of_digit hd) text).bind ?_
  split
  case h_9 =>
    rename_i c _ _ _ _ _ _ _ hc
    cases hc
    rw [if_pos hd]
    exact h
  all_goals
    rename_i hc
    cases hc
    try contradiction

theorem stops_further (items : List Json) (text : List Char) :
    Stops (items.flatMap further ++ ']' :: text) := by
  intro c hc
  cases items with
  | nil => cases hc; exact .inr (.inl rfl)
  | cons j js => cases hc; exact .inl rfl

theorem reads_elements_further {levels : Nat} {items : List Json}
    (hplain : ∀ j ∈ items, Plain levels j) (hback : ∀ j ∈ items, ReadsBack levels j) {fuel : Nat}
    (hfuel : (items.flatMap further).length < fuel) (done : List Json) (text : List Char) :
    Reads (elements fuel levels false done) (items.flatMap further ++ ']' :: text)
      (.array (done.reverse ++ items)) text := by
  induction items generalizing fuel done with
  | nil =>
    obtain ⟨fuel, rfl⟩ : ∃ n, fuel = n + 1 := ⟨fuel - 1, by omega⟩
    rw [List.append_nil]
    unfold elements
    exact (reads_peekToken (by decide) text).bind ((reads_advance ']' text).bind (reads_pure _ text))
  | cons j js ih =>
    obtain ⟨fuel, rfl⟩ : ∃ n, fuel = n + 1 := ⟨fuel - 1, by omega⟩
    obtain ⟨c, cs, hhead, hblank, hend⟩ := (hplain j List.mem_cons_self).head
    rw [List.flatMap_cons, List.length_append, further, List.length_cons] at hfuel
    have hitem := hback j List.mem_cons_self fuel _ (by omega) (stops_further js text)
    have hshort : (js.flatMap further).length < fuel := by omega
    have hrest := ih (fun k hk => hplain k (List.mem_cons_of_mem j hk))
      (fun k hk => hback k (List.mem_cons_of_mem j hk)) hshort (j :: done)
    rw [List.reverse_cons, List.append_assoc] at hrest
    rw [List.flatMap_cons, List.append_assoc, further]
    rw [hhead] at hitem ⊢
    unfold elements
    refine (reads_peekToken (by decide) _).bind ((reads_advance ',' _).bind ?_)
    refine (reads_peekToken hblank _).bind ?_
    split
    · simp_all
    · simp_all
    · exact hitem.bind hrest

theorem reads_elements {levels : Nat} {items : List Json}
    (hplain : ∀ j ∈ items, Plain levels j) (hback : ∀ j ∈ items, ReadsBack levels j) {fuel : Nat}
    (hfuel : (itemsText items).length < fuel) (text : List Char) :
    Reads (elements fuel levels true []) (itemsText items ++ ']' :: text) (.array items) text := by
  obtain ⟨fuel, rfl⟩ : ∃ n, fuel = n + 1 := ⟨fuel - 1, by omega⟩
  unfold elements
  cases items with
  | nil => exact (reads_peekToken (by decide) text).bind ((reads_advance ']' text).bind (reads_pure _ text))
  | cons j js =>
    obtain ⟨c, cs, hhead, hblank, hend⟩ := (hplain j List.mem_cons_self).head
    rw [itemsText_cons, List.length_append] at hfuel
    have hpos : 0 < j.characters.length := by rw [hhead]; exact Nat.zero_lt_succ _
    have hitem := hback j List.mem_cons_self fuel _ (by omega) (stops_further js text)
    have hshort : (js.flatMap further).length < fuel := by omega
    have hrest := reads_elements_further (fun k hk => hplain k (List.mem_cons_of_mem j hk))
      (fun k hk => hback k (List.mem_cons_of_mem j hk)) hshort [j] text
    rw [itemsText_cons, List.append_assoc]
    rw [hhead] at hitem ⊢
    refine (reads_peekToken hblank _).bind ?_
    split
    · simp_all
    · simp_all
    · rw [if_pos rfl]
      exact hitem.bind hrest

theorem reads_member {levels : Nat} {m : String × Json} (hback : ReadsBack levels m.2) {fuel : Nat}
    (hfuel : (memberText m).length ≤ fuel) {text : List Char} (htext : Stops text) :
    Reads (member fuel levels) (memberText m ++ text) m text := by
  have hlength : (memberText m).length = 3 + (m.1.toList.flatMap escaped).length + m.2.characters.length := by
    simp [memberText, stringText]
    omega
  have hkey := length_le_flatMap_escaped m.1.toList
  obtain ⟨fuel, rfl⟩ : ∃ n, fuel = n + 1 := ⟨fuel - 1, by omega⟩
  have hroom : m.1.toList.length < fuel := by omega
  have hstring := reads_stringRest m.1.toList hroom [] (':' :: (m.2.characters ++ text))
  rw [List.reverse_nil, List.nil_append, String.ofList_toList] at hstring
  have hvalue := hback fuel text (by omega) htext
  have hsplit : memberText m ++ text =
      '"' :: (m.1.toList.flatMap escaped ++ '"' :: ':' :: (m.2.characters ++ text)) := by
    simp [memberText, stringText]
  rw [hsplit]
  unfold member
  refine (reads_advance '"' _).bind (hstring.bind ((reads_peekToken (by decide) _).bind ?_))
  exact (reads_advance ':' _).bind (hvalue.bind (reads_pure _ text))

theorem stops_furtherMember (members : List (String × Json)) (text : List Char) :
    Stops (members.flatMap furtherMember ++ '\x7d' :: text) := by
  intro c hc
  cases members with
  | nil => cases hc; exact .inr (.inr rfl)
  | cons m ms => cases hc; exact .inl rfl

theorem reads_members_further {levels : Nat} {ms : List (String × Json)}
    (hback : ∀ m ∈ ms, ReadsBack levels m.2) {fuel : Nat}
    (hfuel : (ms.flatMap furtherMember).length < fuel) (done : List (String × Json)) (text : List Char) :
    Reads (members fuel levels false done) (ms.flatMap furtherMember ++ '\x7d' :: text)
      (.object (done.reverse ++ ms)) text := by
  induction ms generalizing fuel done with
  | nil =>
    obtain ⟨fuel, rfl⟩ : ∃ n, fuel = n + 1 := ⟨fuel - 1, by omega⟩
    rw [List.append_nil]
    unfold members
    exact (reads_peekToken (by decide) text).bind ((reads_advance '\x7d' text).bind (reads_pure _ text))
  | cons m ms ih =>
    obtain ⟨fuel, rfl⟩ : ∃ n, fuel = n + 1 := ⟨fuel - 1, by omega⟩
    rw [List.flatMap_cons, List.length_append, furtherMember, List.length_cons] at hfuel
    have hmember := reads_member (hback m List.mem_cons_self) (by omega : (memberText m).length ≤ fuel)
      (stops_furtherMember ms text)
    have hshort : (ms.flatMap furtherMember).length < fuel := by omega
    have hrest := ih (fun k hk => hback k (List.mem_cons_of_mem m hk)) hshort (m :: done)
    rw [List.reverse_cons, List.append_assoc] at hrest
    rw [List.flatMap_cons, List.append_assoc, furtherMember]
    unfold members
    refine (reads_peekToken (by decide) _).bind ((reads_advance ',' _).bind ?_)
    exact (reads_peekToken (by decide) _).bind (hmember.bind hrest)

theorem reads_members {levels : Nat} {ms : List (String × Json)} (hback : ∀ m ∈ ms, ReadsBack levels m.2)
    {fuel : Nat} (hfuel : (membersText ms).length < fuel) (text : List Char) :
    Reads (members fuel levels true []) (membersText ms ++ '\x7d' :: text) (.object ms) text := by
  obtain ⟨fuel, rfl⟩ : ∃ n, fuel = n + 1 := ⟨fuel - 1, by omega⟩
  unfold members
  cases ms with
  | nil =>
    exact (reads_peekToken (by decide) text).bind ((reads_advance '\x7d' text).bind (reads_pure _ text))
  | cons m ms =>
    rw [membersText_cons, List.length_append] at hfuel
    have hpos : 0 < (memberText m).length := Nat.zero_lt_succ _
    have hmember := reads_member (hback m List.mem_cons_self) (by omega : (memberText m).length ≤ fuel)
      (stops_furtherMember ms text)
    have hshort : (ms.flatMap furtherMember).length < fuel := by omega
    have hrest := reads_members_further (fun k hk => hback k (List.mem_cons_of_mem m hk)) hshort [m] text
    rw [membersText_cons, List.append_assoc]
    exact (reads_peekToken (by decide) _).bind (hmember.bind hrest)

/-! ### One kind of value at a time -/

theorem readsBack_string (levels : Nat) (s : String) : ReadsBack levels (.string s) := by
  intro fuel text hfuel _
  have hsplit : (Json.string s).characters = '"' :: (s.toList.flatMap escaped ++ ['"']) := rfl
  have hescaped := length_le_flatMap_escaped s.toList
  rw [hsplit, List.length_cons, List.length_append, List.length_singleton] at hfuel
  obtain ⟨fuel, rfl⟩ : ∃ n, fuel = n + 1 := ⟨fuel - 1, by omega⟩
  have hstring := reads_stringRest s.toList (by omega : s.toList.length < fuel) [] text
  rw [List.reverse_nil, List.nil_append, String.ofList_toList] at hstring
  rw [hsplit, List.cons_append, List.append_assoc]
  unfold value
  exact (reads_peekToken (by decide) _).bind ((reads_advance '"' _).bind (hstring.bind (reads_pure _ text)))

theorem readsBack_number (levels : Nat) {n : Nat} (hn : n < 0x10000000000000000) :
    ReadsBack levels (.ofNat n) := by
  intro fuel text hfuel htext
  have hnumber := reads_number hn htext
  obtain ⟨d, ds, hds⟩ := List.exists_cons_of_ne_nil (Nat.toDigits_ne_nil : Nat.toDigits 10 n ≠ [])
  have hmem : d ∈ Nat.toDigits 10 n := hds ▸ List.mem_cons_self
  rw [characters_ofNat] at hfuel ⊢
  rw [hds] at hfuel hnumber ⊢
  obtain ⟨fuel, rfl⟩ : ∃ n, fuel = n + 1 := ⟨fuel - 1, by rw [List.length_cons] at hfuel; omega⟩
  exact reads_value_digit (Nat.isDigit_of_mem_toDigits (by decide) (by decide) hmem) hnumber

theorem readsBack_array {levels : Nat} {items : List Json} (hplain : ∀ j ∈ items, Plain levels j)
    (hback : ∀ j ∈ items, ReadsBack levels j) : ReadsBack (levels + 1) (.array items) := by
  intro fuel text hfuel _
  have hsplit : (Json.array items).characters = '[' :: (itemsText items ++ [']']) := by
    rw [characters]
    rfl
  rw [hsplit, List.length_cons, List.length_append, List.length_singleton] at hfuel
  obtain ⟨fuel, rfl⟩ : ∃ n, fuel = n + 1 := ⟨fuel - 1, by omega⟩
  have hitems := reads_elements hplain hback (by omega : (itemsText items).length < fuel) text
  rw [hsplit, List.cons_append, List.append_assoc]
  unfold value
  exact (reads_peekToken (by decide) _).bind ((reads_advance '[' _).bind hitems)

theorem readsBack_object {levels : Nat} {ms : List (String × Json)}
    (hback : ∀ m ∈ ms, ReadsBack levels m.2) : ReadsBack (levels + 1) (.object ms) := by
  intro fuel text hfuel _
  have hsplit : (Json.object ms).characters = '\x7b' :: (membersText ms ++ ['\x7d']) := by
    rw [characters]
    rfl
  rw [hsplit, List.length_cons, List.length_append, List.length_singleton] at hfuel
  obtain ⟨fuel, rfl⟩ : ∃ n, fuel = n + 1 := ⟨fuel - 1, by omega⟩
  have hmembers := reads_members hback (by omega : (membersText ms).length < fuel) text
  rw [hsplit, List.cons_append, List.append_assoc]
  unfold value
  exact (reads_peekToken (by decide) _).bind ((reads_advance '\x7b' _).bind hmembers)

/-- A word is read back: the two truth values and the absent one. -/
theorem readsBack_word {levels : Nat} {j : Json} {c : Char} {cs : List Char} (hj : j.characters = c :: cs)
    (hvalue : ∀ fuel text, Reads (word cs) (cs ++ text) () text →
      Reads (value (fuel + 1) levels) (c :: (cs ++ text)) j text) : ReadsBack levels j := by
  intro fuel text hfuel _
  rw [hj] at hfuel ⊢
  obtain ⟨fuel, rfl⟩ : ∃ n, fuel = n + 1 := ⟨fuel - 1, by rw [List.length_cons] at hfuel; omega⟩
  exact hvalue fuel text (reads_word cs text)

end Reader

open HistogramMonitor.Json.Reader

/-- **A plain value is read back** wherever it stands. -/
theorem Plain.readsBack {levels : Nat} {j : Json} (h : Plain levels j) : ReadsBack levels j := by
  induction h with
  | null =>
    have hj : Json.null.characters = 'n' :: "ull".toList := rfl
    refine readsBack_word hj fun fuel text hword => ?_
    unfold value
    exact (reads_peekToken (by decide) _).bind ((reads_advance 'n' _).bind (hword.bind (reads_pure _ text)))
  | bool b =>
    cases b with
    | true =>
      have hj : (Json.bool true).characters = 't' :: "rue".toList := rfl
      refine readsBack_word hj fun fuel text hword => ?_
      unfold value
      exact (reads_peekToken (by decide) _).bind ((reads_advance 't' _).bind (hword.bind (reads_pure _ text)))
    | false =>
      have hj : (Json.bool false).characters = 'f' :: "alse".toList := rfl
      refine readsBack_word hj fun fuel text hword => ?_
      unfold value
      exact (reads_peekToken (by decide) _).bind ((reads_advance 'f' _).bind (hword.bind (reads_pure _ text)))
  | number hn => exact readsBack_number _ hn
  | string s => exact readsBack_string _ s
  | array hitems ih => exact readsBack_array hitems ih
  | object _ ih => exact readsBack_object ih

/-- A document holds one value, and nothing may follow. -/
theorem reads_document {fuel : Nat} {text : List Char} {j : Json}
    (h : Reads (value fuel depthLimit) text j []) : Reads (document fuel) text j [] := by
  refine h.bind ?_
  have hend : Reads peekToken [] none [] := fun i => ⟨i, rfl⟩
  exact hend.bind (reads_pure j [])

/-- **Parsing undoes writing**: the text of a plain value is read as that value. -/
theorem parse_text {j : Json} (h : Plain depthLimit j) : parse j.text = .ok j := by
  have hchars : j.text.toList = j.characters := String.toList_ofList
  have hstops : Stops [] := fun c hc => by cases hc
  have hvalue := h.readsBack (4 * j.characters.length + 4) [] (by omega) hstops
  rw [List.append_nil] at hvalue
  obtain ⟨i, hdocument⟩ := reads_document hvalue 0
  unfold parse
  dsimp only
  rw [hchars, hdocument]

end HistogramMonitor.Json
