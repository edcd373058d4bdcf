import HistogramMonitor.Yaml.Decoder
import HistogramMonitor.Proofs.Json.Scalars
import HistogramMonitor.Proofs.Yaml.Building

/-!
# Reading values from the nodes of outlines

What the readers of values make of the nodes that outlines are read back as. None of these is an alias, so neither
the document nor the patience for aliases plays a part (`Decodes`). A text without quotes is never empty nor a word
for nothing, since it would have been quoted.
-/

namespace HistogramMonitor.Yaml

/-! ## Numbers -/

namespace Word

theorem digitValue?_of_isDigit {c : Char} (h : c.isDigit) :
    Text.digitValue? 10 c = some (c.toNat - '0'.toNat) := by
  simp only [Char.isDigit, Bool.and_eq_true, decide_eq_true_eq] at h
  have hlow : '0' ≤ c := h.1
  have hhigh : c ≤ '9' := h.2
  have hvalue : c.toNat - '0'.toNat < 10 := by
    have hnat : c.toNat ≤ '9'.toNat := UInt32.le_iff_toNat_le.1 hhigh
    have hzero : '0'.toNat = 48 := rfl
    have hnine : '9'.toNat = 57 := rfl
    omega
  rw [Text.digitValue?, Text.hexValue?, if_pos ⟨hlow, hhigh⟩]
  exact if_pos hvalue

theorem digitsFrom?_of_isDigit {ds : List Char} (h : ∀ d ∈ ds, d.isDigit) (n : Nat) :
    Text.digitsFrom? 10 n ds = some (Nat.ofDigitChars 10 ds n) := by
  induction ds generalizing n with
  | nil => rfl
  | cons d ds ih =>
    rw [Text.digitsFrom?, digitValue?_of_isDigit (h d List.mem_cons_self)]
    dsimp only
    rw [ih (List.forall_mem_of_forall_mem_cons h), Nat.ofDigitChars_cons, Nat.mul_comm]

theorem numeral?_toDigits (n : Nat) : Text.numeral? 10 (Nat.toDigits 10 n) = some n := by
  have hdigits : ∀ d ∈ Nat.toDigits 10 n, d.isDigit := fun d hd =>
    Nat.isDigit_of_mem_toDigits (by decide) (by decide) hd
  have hne : (Nat.toDigits 10 n).isEmpty = false := List.isEmpty_eq_false_iff.2 Nat.toDigits_ne_nil
  rw [Text.numeral?, hne, if_neg Bool.false_ne_true, digitsFrom?_of_isDigit hdigits, Nat.ofDigitChars_ten_toDigits]

/-- What begins with a digit other than zero is a numeral in base ten or none. -/
theorem natural?_of_head {d : Char} {ds : List Char} (hd : d.isDigit) (hzero : d ≠ '0') :
    natural? (d :: ds) = Text.numeral? 10 (d :: ds) := by
  have hplus : d ≠ '+' := by rintro rfl; contradiction
  have hminus : d ≠ '-' := by rintro rfl; contradiction
  have hunsigned : unsigned (d :: ds) = d :: ds := by
    unfold unsigned
    split <;> simp_all
  have hunplussed : unplussed (d :: ds) = d :: ds := by
    unfold unplussed
    split <;> simp_all
  have hled : zeroLed (d :: ds) = false := by
    unfold zeroLed
    rw [hunsigned]
    split <;> simp_all
  have hradix : radixNumeral? (d :: ds) = none := by
    unfold radixNumeral?
    split <;> simp_all
  rw [natural?, hled, if_neg Bool.false_ne_true, hunplussed, hradix]
  rfl

/-- A number is read back from its digits. -/
theorem natural?_toString (n : Nat) : natural? (toString n).toList = some n := by
  rw [Nat.toString_eq_ofList_toDigits, String.toList_ofList]
  obtain rfl | hpos := Nat.eq_zero_or_pos n
  · rfl
  · have hvalue := numeral?_toDigits n
    obtain ⟨d, ds, hds, hzero⟩ := Json.Reader.toDigits_eq_cons hpos
    have hd : d.isDigit := Nat.isDigit_of_mem_toDigits (by decide) (by decide) (hds ▸ List.mem_cons_self)
    rw [hds] at hvalue ⊢
    rw [natural?_of_head hd hzero, hvalue]

end Word

namespace Decoder

variable {α β : Type}

/-- A step of reading comes to a value whatever the document is, and follows no alias. -/
def Decodes (r : Decoding α) (a : α) : Prop := ∀ (d : Document) (left : Nat), r d left = .ok (a, left)

theorem Decodes.bind {r : Decoding α} {f : α → Decoding β} {a : α} {b : β} (hr : Decodes r a)
    (hf : Decodes (f a) b) : Decodes (r >>= f) b := by
  intro d left
  have hbind : (r >>= f) d left = (r d left >>= fun p => f p.1 d p.2) := rfl
  rw [hbind, hr d left]
  exact hf d left

theorem decodes_pure (a : α) : Decodes (pure a) a := fun _ _ => rfl

theorem Decodes.map {r : Decoding α} {a : α} (h : Decodes r a) (f : α → β) : Decodes (f <$> r) (f a) := by
  intro d left
  have hmap : (f <$> r) d left = (r d left >>= fun p => .ok (f p.1, p.2)) := rfl
  rw [hmap, h d left]
  rfl

theorem decodes_text (label : Label) (s : String) (style : Style) : Decodes (text (.scalar label s style)) s :=
  fun _ _ => rfl

theorem decodes_natural {n bound : Nat} (h : n < bound) :
    Decodes (natural bound (.scalar {} (toString n) .plain)) n := by
  have hfollow : Decodes (follow (.scalar {} (toString n) .plain)) (.scalar {} (toString n) .plain) := fun _ _ => rfl
  unfold natural
  refine hfollow.bind ?_
  dsimp only
  rw [if_pos (.inl rfl), Word.natural?_toString]
  dsimp only
  rw [if_pos h]
  exact decodes_pure n

theorem decodes_each {γ : Type} {decode : Decoder α} {as : List γ} {f : γ → Node} {g : γ → α}
    (h : ∀ a ∈ as, Decodes (decode (f a)) (g a)) : Decodes (each decode (as.map f)) (as.map g) := by
  induction as with
  | nil => exact decodes_pure []
  | cons a as ih =>
    exact (h a List.mem_cons_self).bind ((ih (List.forall_mem_of_forall_mem_cons h)).bind (decodes_pure _))

theorem itemNodes_eq_map (items : List Outline) : Outline.itemNodes items = items.map Outline.node := by
  induction items with
  | nil => rw [Outline.itemNodes, List.map_nil]
  | cons item items ih => rw [Outline.itemNodes, ih, List.map_cons]

theorem decodes_list {decode : Decoder α} {items : List Node} {as : List α} (h : Decodes (each decode items) as) :
    Decodes (list decode (.sequence {} items)) as := h

theorem decodes_optional_sequence {decode : Decoder α} {items : List Node} {a : α}
    (h : Decodes (decode (.sequence {} items)) a) : Decodes (optional decode (.sequence {} items)) (some a) :=
  h.map some

/-- A text that stands as it is is no word for nothing. -/
theorem needsQuotes_of_plain {s : String} (h : styleOf s = .plain) : Word.needsQuotes s = false := by
  unfold styleOf at h
  dsimp only at h
  split at h
  · split at h <;> contradiction
  · split at h
    · rename_i hplain
      simpa using (Bool.and_eq_true_iff.1 hplain).1
    · split at h <;> contradiction

theorem decodes_optional_text (s : String) : Decodes (optional text (.scalar {} s (styleOf s))) (some s) := by
  have hfollow : Decodes (follow (.scalar {} s (styleOf s))) (.scalar {} s (styleOf s)) := fun _ _ => rfl
  have htext := (decodes_text {} s (styleOf s)).map some
  unfold optional
  refine hfollow.bind ?_
  generalize hstyle : styleOf s = style at htext ⊢
  cases style with
  | plain =>
    have hquotes := needsQuotes_of_plain hstyle
    have hnull : (s.isEmpty || Word.isNull s) = false := by
      simp only [Word.needsQuotes, Bool.or_eq_false_iff] at hquotes
      rw [hquotes.1.1.1.1.1, hquotes.1.1.1.1.2, Bool.or_false]
    dsimp only
    rw [hnull, if_neg Bool.false_ne_true]
    exact htext
  | singleQuoted | doubleQuoted | literal | folded => exact htext

/-! ## Records -/

theorem decodes_members (ms : List (String × Outline)) :
    Decodes (members (Outline.node (.record ms))) (ms.map fun m => (m.1, m.2.node)) := by
  have hfollow : Decodes (follow (.mapping {} (Outline.memberNodes ms))) (.mapping {} (Outline.memberNodes ms)) :=
    fun _ _ => rfl
  rw [Outline.node]
  unfold members
  refine hfollow.bind ?_
  clear hfollow
  dsimp only
  induction ms with
  | nil =>
    rw [Outline.memberNodes, List.mapM_nil]
    exact decodes_pure []
  | cons m ms ih =>
    obtain ⟨key, value⟩ := m
    have hmember : Decodes (text (.scalar {} key .plain) >>= fun k => pure (k, value.node)) (key, value.node) :=
      (decodes_text {} key .plain).bind (decodes_pure _)
    rw [Outline.memberNodes, List.mapM_cons]
    exact hmember.bind (ih.bind (decodes_pure _))

section Members

variable {ms : List (String × Node)} {key : String} {n : Node} {decode : Decoder α} {a b : α}

theorem decodes_member? (hkey : ms.filter (·.1 = key) = [(key, n)]) : Decodes (member? ms key) (some n) := by
  unfold member?
  rw [hkey]
  exact decodes_pure _

theorem decodes_required (hkey : ms.filter (·.1 = key) = [(key, n)]) (h : Decodes (decode n) a) :
    Decodes (required ms key decode) a := (decodes_member? hkey).bind h

/-- A member that may be absent, when it is there. -/
theorem decodes_orElse (hkey : ms.filter (·.1 = key) = [(key, n)]) (h : Decodes (decode n) a) :
    Decodes (orElse ms key b decode) a := (decodes_member? hkey).bind h

theorem decodes_orElse_absent (hkey : ms.filter (·.1 = key) = []) (decode : Decoder α) (b : α) :
    Decodes (orElse ms key b decode) b := by
  have hmember : Decodes (member? ms key) none := by
    unfold member?
    rw [hkey]
    exact decodes_pure _
  exact hmember.bind (decodes_pure b)

end Members

end Decoder

end HistogramMonitor.Yaml
