import Mathlib.Tactic.IntervalCases
import HistogramMonitor.Json.Reader

/-!
# Reading back strings and numbers

A step of reading is described by what it finds and what it leaves (`Reads`). Where the reader stands in the
text decides nothing but the places of faults, so it is left open. Descriptions go together as the steps do
(`Reads.bind`), and so a whole document is followed from left to right.

Inside a string every character is read back from its escape or from itself, and `reads_stringRest` is an
induction on the string. A natural number is read back from its decimal digits as long as it fits into 64
bits: none of the digits is left over (`fitting_of_lt`), and the number is in the range of a double. What ends
it is a text in which no number goes on (`Stops`).
-/

namespace HistogramMonitor.Json

namespace Reader

variable {α β : Type}

/-! ## Steps of reading -/

/-- A step of reading comes to a value at the beginning of a text, and leaves some of the text. -/
def Reads (r : Reader α) (text : List Char) (a : α) (left : List Char) : Prop :=
  ∀ i, ∃ i', r ⟨text, i⟩ = .ok (a, ⟨left, i'⟩)

theorem Reads.bind {r : Reader α} {f : α → Reader β} {text between left : List Char} {a : α} {b : β}
    (hr : Reads r text a between) (hf : Reads (f a) between b left) : Reads (r >>= f) text b left := by
  intro i
  obtain ⟨j, hj⟩ := hr i
  obtain ⟨k, hk⟩ := hf j
  refine ⟨k, ?_⟩
  have hbind : (r >>= f) ⟨text, i⟩ = (r ⟨text, i⟩ >>= fun p => f p.1 p.2) := rfl
  rw [hbind, hj]
  exact hk

theorem reads_pure (a : α) (text : List Char) : Reads (pure a) text a text := fun i => ⟨i, rfl⟩

theorem reads_peek (text : List Char) : Reads peek text text.head? text := fun i => ⟨i, rfl⟩

theorem reads_advance (c : Char) (text : List Char) : Reads advance (c :: text) () text :=
  fun _ => ⟨_, rfl⟩

theorem reads_peekToken {c : Char} (hc : blank c = false) (text : List Char) :
    Reads peekToken (c :: text) (some c) (c :: text) := by
  intro i
  refine ⟨i + ((c :: text).takeWhile blank).length, ?_⟩
  have hdrop : (c :: text).dropWhile blank = c :: text := List.dropWhile_cons_of_neg (by simp [hc])
  have hrun : peekToken ⟨c :: text, i⟩ = .ok (((c :: text).dropWhile blank).head?,
    ⟨(c :: text).dropWhile blank, i + ((c :: text).takeWhile blank).length⟩) := rfl
  rw [hrun, hdrop]
  rfl

theorem reads_digits {ds text : List Char} (hds : ∀ d ∈ ds, d.isDigit)
    (htext : ∀ c ∈ text.head?, ¬c.isDigit) : Reads digits (ds ++ text) ds text := by
  have htake : text.takeWhile Char.isDigit = [] ∧ text.dropWhile Char.isDigit = text := by
    cases text with
    | nil => exact ⟨rfl, rfl⟩
    | cons c text =>
      have hc := htext c rfl
      exact ⟨List.takeWhile_cons_of_neg hc, List.dropWhile_cons_of_neg hc⟩
  have htakes : (ds ++ text).takeWhile Char.isDigit = ds := by
    rw [List.takeWhile_append_of_pos hds, htake.1, List.append_nil]
  have hdrops : (ds ++ text).dropWhile Char.isDigit = text := by
    rw [List.dropWhile_append_of_pos hds, htake.2]
  intro i
  refine ⟨i + ds.length, ?_⟩
  unfold digits
  dsimp only
  rw [htakes, hdrops]

theorem blank_of_digit {d : Char} (hd : d.isDigit) : blank d = false := by
  unfold blank
  simp only [Bool.or_eq_false_iff, decide_eq_false_iff_not]
  refine ⟨⟨⟨?_, ?_⟩, ?_⟩, ?_⟩ <;> rintro rfl <;> contradiction

theorem reads_word (cs text : List Char) : Reads (word cs) (cs ++ text) () text := by
  induction cs with
  | nil => exact reads_pure () text
  | cons c cs ih =>
    refine (reads_peek _).bind ?_
    dsimp only [List.cons_append, List.head?_cons]
    rw [if_pos rfl]
    exact (reads_advance c _).bind ih

/-! ## Strings -/

theorem hexValue?_hexDigit {n : Nat} (h : n < 16) : Text.hexValue? (hexDigit n) = some n := by
  interval_cases n <;> rfl

theorem reads_hexEscape {n : Nat} (h : n < 0x100) (text : List Char) :
    Reads hexEscape ('0' :: '0' :: hexDigit (n / 16) :: hexDigit (n % 16) :: text) n text := by
  intro i
  refine ⟨i + 4, ?_⟩
  have hzero : Text.hexValue? '0' = some 0 := rfl
  have hhigh : Text.hexValue? (hexDigit (n / 16)) = some (n / 16) := hexValue?_hexDigit (by omega)
  have hlow : Text.hexValue? (hexDigit (n % 16)) = some (n % 16) := hexValue?_hexDigit (by omega)
  have hn : ((0 * 16 + 0) * 16 + n / 16) * 16 + n % 16 = n := by omega
  unfold hexEscape
  simp only [List.take_succ_cons, List.take_zero, List.map_cons, List.map_nil, hzero, hhigh, hlow, hn]
  rfl

theorem reads_unicodeEscape {c : Char} (h : c.toNat < 0x100) (text : List Char) :
    Reads unicodeEscape ('0' :: '0' :: hexDigit (c.toNat / 16) :: hexDigit (c.toNat % 16) :: text) c
      text := by
  have hc : Char.ofNat c.toNat = c := Char.ofNat_toNat c
  refine (reads_hexEscape h text).bind ?_
  rw [if_neg (by omega), if_pos (by omega), hc]
  exact reads_pure c text

/-- A character is read back from its escape. -/
theorem Reads.stringRest_backslash {fuel : Nat} {c : Char} {done escaped text left : List Char} {s : String}
    (hescape : Reads escape escaped c text) (h : Reads (stringRest fuel (c :: done)) text s left) :
    Reads (stringRest (fuel + 1) done) ('\\' :: escaped) s left :=
  (reads_peek _).bind ((reads_advance '\\' escaped).bind (hescape.bind h))

/-- A character that needs no escape stands for itself. -/
theorem Reads.stringRest_plain {fuel : Nat} {c : Char} {done text left : List Char} {s : String}
    (hquote : c ≠ '"') (hbackslash : c ≠ '\\') (hcontrol : ¬c.toNat < 0x20)
    (h : Reads (stringRest fuel (c :: done)) text s left) :
    Reads (stringRest (fuel + 1) done) (c :: text) s left := by
  refine (reads_peek _).bind ?_
  dsimp only [List.head?_cons]
  split
  · simp_all
  · simp_all
  · simp_all
  · rename_i hc
    cases hc
    rw [if_neg hcontrol]
    exact (reads_advance c text).bind h

/-- A character is read back from how it stands inside a string. -/
theorem Reads.stringRest_escaped {fuel : Nat} {c : Char} {done text left : List Char} {s : String}
    (h : Reads (stringRest fuel (c :: done)) text s left) :
    Reads (stringRest (fuel + 1) done) (escaped c ++ text) s left := by
  unfold escaped
  -- seven characters have an escape of their own
  iterate 7
    split
    · rename_i hc
      subst hc
      exact stringRest_backslash (fun i => ⟨_, rfl⟩) h
  split
  · rename_i hcontrol
    have hescape : Reads escape
        ('u' :: '0' :: '0' :: hexDigit (c.toNat / 16) :: hexDigit (c.toNat % 16) :: text) c text :=
      (reads_peek _).bind ((reads_advance 'u' _).bind (reads_unicodeEscape (by omega) text))
    exact stringRest_backslash hescape h
  · rename_i hquote hbackslash _ _ _ _ _ hcontrol
    exact stringRest_plain hquote hbackslash hcontrol h

/-- A string is read back, its first quote apart. -/
theorem reads_stringRest (s : List Char) {fuel : Nat} (hfuel : s.length < fuel) (done text : List Char) :
    Reads (stringRest fuel done) (s.flatMap escaped ++ '"' :: text) (String.ofList (done.reverse ++ s))
      text := by
  induction s generalizing fuel done with
  | nil =>
    obtain ⟨fuel, rfl⟩ := Nat.exists_eq_add_of_lt hfuel
    rw [List.append_nil]
    exact (reads_peek _).bind ((reads_advance '"' text).bind (reads_pure _ text))
  | cons c s ih =>
    obtain ⟨fuel, rfl⟩ : ∃ n, fuel = n + 1 := ⟨fuel - 1, by omega⟩
    have hrest := ih (Nat.lt_of_succ_lt_succ hfuel) (c :: done)
    rw [List.reverse_cons, List.append_assoc] at hrest
    rw [List.flatMap_cons, List.append_assoc]
    exact hrest.stringRest_escaped

theorem length_escaped_pos (c : Char) : 0 < (escaped c).length := by
  unfold escaped
  split_ifs <;> exact Nat.zero_lt_succ _

theorem length_le_flatMap_escaped (s : List Char) : s.length ≤ (s.flatMap escaped).length := by
  induction s with
  | nil => exact Nat.le_refl 0
  | cons c s ih =>
    have hc := length_escaped_pos c
    rw [List.flatMap_cons, List.length_append, List.length_cons]
    omega

/-! ## Numbers -/

/-- The text after a value inside a document: it begins with a comma or a closing bracket, or is empty. -/
def Stops (text : List Char) : Prop := ∀ c ∈ text.head?, c = ',' ∨ c = ']' ∨ c = '\x7d'

theorem Stops.not_digit {text : List Char} (h : Stops text) : ∀ c ∈ text.head?, ¬c.isDigit := by
  intro c hc
  obtain rfl | rfl | rfl := h c hc <;> decide

theorem fitting_of_lt {ds : List Char} {n : Nat} (h : Nat.ofDigitChars 10 ds n < 0x10000000000000000) :
    fitting n ds = (Nat.ofDigitChars 10 ds n, []) := by
  induction ds generalizing n with
  | nil => rfl
  | cons d ds ih =>
    rw [Nat.ofDigitChars_cons, Nat.mul_comm 10 n] at h ⊢
    have hle : n * 10 + (d.toNat - '0'.toNat) ≤
        Nat.ofDigitChars 10 ds (n * 10 + (d.toNat - '0'.toNat)) := by
      have hpos : 0 < 10 ^ ds.length := Nat.pow_pos (by decide)
      rw [Nat.ofDigitChars_eq_ofDigitChars_zero]
      exact Nat.le_trans (Nat.le_mul_of_pos_left _ hpos) (Nat.le_add_right _ _)
    rw [fitting, if_pos (Nat.lt_of_le_of_lt hle h)]
    exact ih h

theorem toDouble_le (n : Nat) : Decimal.toDouble n ≤ n + Nat.pow 2 (n.log2 - 52) := by
  unfold Decimal.toDouble
  dsimp only
  generalize hunit : Nat.pow 2 (n.log2 - 52) = unit
  have hround : roundHalfEven n unit ≤ n / unit + 1 := by
    unfold roundHalfEven
    dsimp only
    split_ifs <;> omega
  have hle : roundHalfEven n unit * unit ≤ (n / unit + 1) * unit := Nat.mul_le_mul_right _ hround
  have hdiv := Nat.div_mul_le_self n unit
  rw [Nat.add_mul, Nat.one_mul] at hle
  omega

/-- A number of 64 bits is in the range of a double. -/
theorem productExceedsDouble_of_lt {n : Nat} (h : n < 0x10000000000000000) :
    Decimal.productExceedsDouble n 0 = false := by
  have hn : Decimal.toDouble n ≤ Nat.pow 2 65 := by
    have hle := toDouble_le n
    have hlog : n.log2 - 52 ≤ 64 := by
      have : n.log2 ≤ 64 := by
        by_cases h0 : n = 0
        · subst h0; decide
        · exact Nat.le_of_lt ((Nat.log2_lt h0).2 h)
      omega
    have hpow : Nat.pow 2 (n.log2 - 52) ≤ Nat.pow 2 64 := Nat.pow_le_pow_right (by decide) hlog
    have h64 : Nat.pow 2 64 = 0x10000000000000000 := rfl
    have h65 : Nat.pow 2 65 = 0x20000000000000000 := rfl
    omega
  have hone : Decimal.toDouble (Nat.pow 10 (0 : Int).toNat) = 1 := by decide
  have hbig : Nat.pow 2 65 < Nat.pow 2 1024 - Nat.pow 2 970 := by decide +kernel
  unfold Decimal.productExceedsDouble
  generalize Nat.pow 2 1024 - Nat.pow 2 970 = top at hbig ⊢
  split_ifs
  · rfl
  · contradiction
  · rw [hone, Nat.mul_one]
    exact decide_eq_false (Nat.not_le_of_lt (Nat.lt_of_le_of_lt hn hbig))

/-- The rest of a number without a point and an exponent. -/
theorem reads_numberRest {ds text : List Char} {n : Nat} (hds : Nat.ofDigitChars 10 ds 0 = n)
    (hn : n < 0x10000000000000000) (htext : Stops text) :
    Reads (numberRest false ds) text (.ofNat n) text := by
  have hfitting := fitting_of_lt (hds ▸ hn)
  rw [hds] at hfitting
  have hfinish : Reads (finish false n 0) text (.ofNat n) text := by
    rw [finish, if_neg (by simp [productExceedsDouble_of_lt hn])]
    exact reads_pure _ text
  unfold numberRest
  rw [hfitting]
  refine (reads_peek text).bind ?_
  split
  · rename_i hpoint
    have hstop := htext '.' hpoint
    contradiction
  · refine (reads_pure _ text).bind ((reads_peek text).bind ?_)
    split
    · rename_i c hc
      have hletter : ¬(c = 'e' ∨ c = 'E') := by
        obtain rfl | rfl | rfl := htext c hc <;> decide
      rw [if_neg hletter]
      exact hfinish
    · exact hfinish

/-- The decimal digits of a positive number do not begin with a zero. -/
theorem toDigits_eq_cons {n : Nat} (h : 0 < n) : ∃ d ds, Nat.toDigits 10 n = d :: ds ∧ d ≠ '0' := by
  induction n using Nat.strongRecOn with
  | ind n ih =>
    by_cases hn : n < 10
    · refine ⟨n.digitChar, [], Nat.toDigits_of_lt_base hn, fun h0 => ?_⟩
      rw [Nat.digitChar_eq_zero] at h0
      omega
    · obtain ⟨d, ds, hds, hd⟩ := ih (n / 10) (by omega) (by omega)
      refine ⟨d, ds ++ [(n % 10).digitChar], ?_, hd⟩
      rw [Nat.toDigits_of_base_le (by decide) (by omega), hds]
      rfl

/-- A natural number is read back from its digits. -/
theorem reads_number {n : Nat} (hn : n < 0x10000000000000000) {text : List Char} (htext : Stops text) :
    Reads (number false) (Nat.toDigits 10 n ++ text) (.ofNat n) text := by
  have hdigits : ∀ d ∈ Nat.toDigits 10 n, d.isDigit := fun d hd =>
    Nat.isDigit_of_mem_toDigits (by decide) (by decide) hd
  have hrest := reads_numberRest Nat.ofDigitChars_ten_toDigits hn htext
  rcases Nat.eq_zero_or_pos n with rfl | hpos
  · -- a zero has to stand alone
    refine (reads_peek _).bind ((reads_advance '0' text).bind ((reads_peek text).bind ?_))
    split
    · rename_i c hc
      rw [if_neg (htext.not_digit c hc)]
      exact hrest
    · exact hrest
  · obtain ⟨d, ds, hds, hd⟩ := toDigits_eq_cons hpos
    have hread := reads_digits hdigits htext.not_digit
    rw [hds] at hdigits hrest hread ⊢
    refine (reads_peek _).bind ?_
    dsimp only [List.cons_append, List.head?_cons]
    split
    · contradiction
    · simp_all
    · rename_i c _ hc
      cases hc
      rw [if_pos (hdigits d List.mem_cons_self)]
      exact hread.bind hrest

end Reader

end HistogramMonitor.Json
