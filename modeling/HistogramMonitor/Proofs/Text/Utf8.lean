import Mathlib.Tactic.SplitIfs
import HistogramMonitor.Text.Utf8

/-!
# Reading back UTF-8

The characters of a text are read back from its bytes (`decode_encode`): a character stands at the head of its
own bytes, whatever follows them (`scalar_utf8EncodeChar`). There is one case for each length of a character, and
in each of them the bits are put together again as they were taken apart.

Nothing else is read (`decode_eq_ok_iff`): what is taken for a character is what that character is written as
(`begins_of_scalar`), because the ranges of the bytes leave out the longer forms and the surrogates.
-/

namespace HistogramMonitor.Utf8

/-! ## Continuation bytes -/

theorem toNat_ofNat_of_lt {n : Nat} (h : n < 256) : (UInt8.ofNat n).toNat = n := by
  rw [UInt8.toNat_ofNat', Nat.mod_eq_of_lt h]

/-- The byte that continues a character with these six bits. -/
theorem toNat_tail (n : Nat) : (UInt8.ofNat (n % 64 + 128)).toNat = n % 64 + 128 :=
  toNat_ofNat_of_lt (by omega)

theorem continues_tail (n : Nat) : continues (UInt8.ofNat (n % 64 + 128)) = true := by
  simp only [continues, toNat_tail, Bool.and_eq_true, decide_eq_true_eq]
  omega

theorem payload_tail (n : Nat) : payload (UInt8.ofNat (n % 64 + 128)) = n % 64 := by
  simp only [payload, toNat_tail]
  omega

theorem secondOfThree_tail {v : Nat} (hlow : 0x7ff < v) (hsurrogate : v < 0xd800 ∨ 0xdfff < v)
    (hhigh : v ≤ 0xffff) :
    secondOfThree (UInt8.ofNat (v / 4096 % 16 + 224)) (UInt8.ofNat (v / 64 % 64 + 128)) = true := by
  have hfirst : (UInt8.ofNat (v / 4096 % 16 + 224)).toNat = v / 4096 % 16 + 224 :=
    toNat_ofNat_of_lt (by omega)
  unfold secondOfThree
  simp only [← UInt8.toNat_inj, hfirst, toNat_tail, UInt8.reduceToNat, continues_tail]
  split_ifs <;> simp only [Bool.and_eq_true, decide_eq_true_eq] <;> omega

theorem secondOfFour_tail {v : Nat} (hlow : 0xffff < v) (hhigh : v < 0x110000) :
    secondOfFour (UInt8.ofNat (v / 262144 % 8 + 240)) (UInt8.ofNat (v / 4096 % 64 + 128)) = true := by
  have hfirst : (UInt8.ofNat (v / 262144 % 8 + 240)).toNat = v / 262144 % 8 + 240 :=
    toNat_ofNat_of_lt (by omega)
  unfold secondOfFour
  simp only [← UInt8.toNat_inj, hfirst, toNat_tail, UInt8.reduceToNat, continues_tail]
  split_ifs <;> simp only [Bool.and_eq_true, decide_eq_true_eq] <;> omega

/-! ## Characters -/

/-- A character is found at the head of its own bytes. -/
theorem scalar_utf8EncodeChar (c : Char) : ∃ first rest, String.utf8EncodeChar c = first :: rest ∧
    ∀ more, scalar first (rest ++ more) = .char c rest.length := by
  have hvalid : c.toNat < 0xd800 ∨ 0xdfff < c.toNat ∧ c.toNat < 0x110000 := c.valid
  have hc : ∀ n, n = c.toNat → Char.ofNat n = c := by
    rintro n rfl
    exact Char.ofNat_toNat c
  unfold String.utf8EncodeChar
  dsimp only
  rw [Char.toNat_val]
  generalize c.toNat = v at hvalid hc
  split_ifs with h1 h2 h3
  · refine ⟨_, _, rfl, fun more => ?_⟩
    have hfirst : (UInt8.ofNat v).toNat = v := toNat_ofNat_of_lt (by omega)
    unfold scalar
    dsimp only
    rw [hfirst, if_pos (by omega), hc v rfl]
    rfl
  · refine ⟨_, _, rfl, fun more => ?_⟩
    have hfirst : (UInt8.ofNat (v / 64 % 32 + 192)).toNat = v / 64 % 32 + 192 :=
      toNat_ofNat_of_lt (by omega)
    unfold scalar headOfTwo
    simp only [List.cons_append, hfirst, continues_tail, payload_tail, if_true]
    rw [if_neg (by omega), if_neg (by omega), if_pos (by omega), hc _ (by omega)]
    rfl
  · refine ⟨_, _, rfl, fun more => ?_⟩
    have hfirst : (UInt8.ofNat (v / 4096 % 16 + 224)).toNat = v / 4096 % 16 + 224 :=
      toNat_ofNat_of_lt (by omega)
    have hsecond := secondOfThree_tail (v := v) (by omega) (by omega) h3
    unfold scalar headOfThree
    simp only [List.cons_append, hfirst, hsecond, continues_tail, payload_tail, if_true]
    rw [if_neg (by omega), if_neg (by omega), if_neg (by omega), if_pos (by omega), hc _ (by omega)]
    rfl
  · refine ⟨_, _, rfl, fun more => ?_⟩
    have hfirst : (UInt8.ofNat (v / 262144 % 8 + 240)).toNat = v / 262144 % 8 + 240 :=
      toNat_ofNat_of_lt (by omega)
    have hsecond := secondOfFour_tail (v := v) (by omega) (by omega)
    unfold scalar headOfFour
    simp only [List.cons_append, hfirst, hsecond, continues_tail, payload_tail, if_true]
    rw [if_neg (by omega), if_neg (by omega), if_neg (by omega), if_neg (by omega), if_pos (by omega),
      hc _ (by omega)]
    rfl

/-! ## Whole texts -/

/-- The characters of a text are read, and then what follows them. -/
theorem decodeFrom_append (s : List Char) (index : Nat) (done : List Char) (rest : Bytes) :
    decodeFrom index done (encode s ++ rest) =
      decodeFrom (index + (encode s).length) (s.reverse ++ done) rest := by
  induction s generalizing index done with
  | nil => rfl
  | cons c s ih =>
    obtain ⟨first, tail, hbytes, hscalar⟩ := scalar_utf8EncodeChar c
    have hencode : encode (c :: s) = first :: (tail ++ encode s) := by
      rw [encode, List.flatMap_cons, hbytes]
      rfl
    have hlength : index + 1 + tail.length + (encode s).length = index + (encode (c :: s)).length := by
      rw [hencode, List.length_cons, List.length_append]
      omega
    rw [hencode, List.cons_append, List.append_assoc, decodeFrom, hscalar]
    dsimp only
    rw [List.drop_left, ih, hlength, List.reverse_cons, List.append_assoc, ← hencode]
    rfl

/-- The characters of a text are read back from its bytes. -/
theorem decode_encode (s : List Char) : decode (encode s) = .ok s := by
  have happend := decodeFrom_append s 0 [] []
  rw [List.append_nil, List.append_nil, decodeFrom.eq_1, List.reverse_reverse] at happend
  exact happend

theorem decode_ofString (s : String) : decode (ofString s) = .ok s.toList := decode_encode s.toList

/-! ## What is read was written -/

theorem toNat_ofNat {v : Nat} (hv : v.isValidChar) : (Char.ofNat v).toNat = v := by
  rw [Char.ofNat, dif_pos hv]
  rfl

theorem ofNat_eq_of_toNat_eq {n : Nat} {b : UInt8} (h : b.toNat = n) : UInt8.ofNat n = b := by
  rw [← h, UInt8.ofNat_toNat]

theorem of_continues {b : UInt8} (h : continues b = true) : 0x80 ≤ b.toNat ∧ b.toNat ≤ 0xbf := by
  simpa [continues] using h

theorem of_secondOfThree {first b : UInt8} (h : secondOfThree first b = true) :
    0x80 ≤ b.toNat ∧ b.toNat ≤ 0xbf ∧ (first.toNat = 0xe0 → 0xa0 ≤ b.toNat) ∧
      (first.toNat = 0xed → b.toNat ≤ 0x9f) := by
  simp only [secondOfThree, ← UInt8.toNat_inj, UInt8.reduceToNat, continues] at h
  split_ifs at h <;> simp only [Bool.and_eq_true, decide_eq_true_eq] at h <;> omega

theorem of_secondOfFour {first b : UInt8} (h : secondOfFour first b = true) :
    0x80 ≤ b.toNat ∧ b.toNat ≤ 0xbf ∧ (first.toNat = 0xf0 → 0x90 ≤ b.toNat) ∧
      (first.toNat = 0xf4 → b.toNat ≤ 0x8f) := by
  simp only [secondOfFour, ← UInt8.toNat_inj, UInt8.reduceToNat, continues] at h
  split_ifs at h <;> simp only [Bool.and_eq_true, decide_eq_true_eq] at h <;> omega

/-- These are the bytes of a character, of which all but the first are the first of `rest`. -/
def Begins (c : Char) (more : Nat) (first : UInt8) (rest : Bytes) : Prop :=
  ∃ tail after, tail.length = more ∧ rest = tail ++ after ∧ String.utf8EncodeChar c = first :: tail

theorem begins_one {first : UInt8} {rest : Bytes} (hfirst : first.toNat < 0x80) :
    Begins (Char.ofNat first.toNat) 0 first rest := by
  refine ⟨[], rest, rfl, rfl, ?_⟩
  unfold String.utf8EncodeChar
  dsimp only
  rw [Char.toNat_val, toNat_ofNat (.inl (by omega)), if_pos (by omega), UInt8.ofNat_toNat]

theorem begins_two {first : UInt8} {rest : Bytes} {c : Char} {more : Nat} (hlow : 0xc2 ≤ first.toNat)
    (hhigh : first.toNat < 0xe0) : headOfTwo first rest = .char c more → Begins c more first rest := by
  fun_cases headOfTwo first rest with
  | case2 b after hb =>
    rintro ⟨⟩
    have hb := of_continues hb
    refine ⟨[b], after, rfl, rfl, ?_⟩
    unfold String.utf8EncodeChar payload
    dsimp only
    rw [Char.toNat_val, toNat_ofNat (.inl (by omega)), if_neg (by omega), if_pos (by omega),
      ofNat_eq_of_toNat_eq (b := first) (by omega), ofNat_eq_of_toNat_eq (b := b) (by omega)]
  | _ => nofun

theorem begins_three {first : UInt8} {rest : Bytes} {c : Char} {more : Nat} (hlow : 0xe0 ≤ first.toNat)
    (hhigh : first.toNat < 0xf0) : headOfThree first rest = .char c more → Begins c more first rest := by
  fun_cases headOfThree first rest with
  | case3 b hb d after hd =>
    rintro ⟨⟩
    have hb := of_secondOfThree hb
    have hd := of_continues hd
    refine ⟨[b, d], after, rfl, rfl, ?_⟩
    unfold String.utf8EncodeChar payload
    dsimp only
    -- no surrogate comes of it
    have hvalid : (first.toNat % 16 * 4096 + b.toNat % 64 * 64 + d.toNat % 64).isValidChar := by
      unfold Nat.isValidChar
      omega
    rw [Char.toNat_val, toNat_ofNat hvalid, if_neg (by omega), if_neg (by omega), if_pos (by omega),
      ofNat_eq_of_toNat_eq (b := first) (by omega), ofNat_eq_of_toNat_eq (b := b) (by omega),
      ofNat_eq_of_toNat_eq (b := d) (by omega)]
  | _ => nofun

theorem begins_four {first : UInt8} {rest : Bytes} {c : Char} {more : Nat} (hlow : 0xf0 ≤ first.toNat)
    (hhigh : first.toNat < 0xf5) : headOfFour first rest = .char c more → Begins c more first rest := by
  fun_cases headOfFour first rest with
  | case4 b hb d hd e after he =>
    rintro ⟨⟩
    have hb := of_secondOfFour hb
    have hd := of_continues hd
    have he := of_continues he
    refine ⟨[b, d, e], after, rfl, rfl, ?_⟩
    unfold String.utf8EncodeChar payload
    dsimp only
    -- nor anything beyond the code space
    have hvalid : (first.toNat % 8 * 262144 + b.toNat % 64 * 4096 + d.toNat % 64 * 64 +
        e.toNat % 64).isValidChar := by
      unfold Nat.isValidChar
      omega
    rw [Char.toNat_val, toNat_ofNat hvalid, if_neg (by omega), if_neg (by omega), if_neg (by omega),
      ofNat_eq_of_toNat_eq (b := first) (by omega), ofNat_eq_of_toNat_eq (b := b) (by omega),
      ofNat_eq_of_toNat_eq (b := d) (by omega), ofNat_eq_of_toNat_eq (b := e) (by omega)]
  | _ => nofun

/-- What is taken for a character is the bytes of that character. -/
theorem begins_of_scalar {first : UInt8} {rest : Bytes} {c : Char} {more : Nat}
    (h : scalar first rest = .char c more) : Begins c more first rest := by
  unfold scalar at h
  dsimp only at h
  split_ifs at h with h1 h2 h3 h4 h5
  · cases h
    exact begins_one h1
  · exact begins_two (by omega) h3 h
  · exact begins_three (by omega) h4 h
  · exact begins_four (by omega) h5 h

/-- A byte string is read as a text only if it is the bytes of that text. -/
theorem eq_encode_of_decodeFrom {b : Bytes} {index : Nat} {done s : List Char}
    (h : decodeFrom index done b = .ok s) : ∃ text, s = done.reverse ++ text ∧ b = encode text := by
  fun_induction decodeFrom index done b with
  | case1 index done =>
    cases h
    exact ⟨[], (List.append_nil _).symm, rfl⟩
  | case2 index done first rest c more hscalar ih =>
    obtain ⟨tail, after, rfl, rfl, hbytes⟩ := begins_of_scalar hscalar
    obtain ⟨text, rfl, hrest⟩ := ih h
    rw [List.drop_left] at hrest
    refine ⟨c :: text, ?_, ?_⟩
    · rw [List.reverse_cons, List.append_assoc, List.singleton_append]
    · rw [encode, List.flatMap_cons, hbytes, hrest]
      rfl
  | case3 => cases h
  | case4 => cases h

/-- **The bytes of a text, and no others, are read as it.** -/
theorem decode_eq_ok_iff {b : Bytes} {s : List Char} : decode b = .ok s ↔ b = encode s := by
  constructor
  · intro h
    obtain ⟨text, rfl, hb⟩ := eq_encode_of_decodeFrom h
    exact hb
  · rintro rfl
    exact decode_encode s

theorem encode_eq_nil_iff {s : List Char} : encode s = [] ↔ s = [] := by
  constructor
  · intro h
    have hdecode : decode (encode s) = decode (encode []) := by rw [h]; rfl
    rw [decode_encode, decode_encode] at hdecode
    exact Except.ok.inj hdecode
  · rintro rfl
    rfl

/-! ## What was cut -/

@[simp] theorem encode_append (s t : List Char) : encode (s ++ t) = encode s ++ encode t :=
  List.flatMap_append

theorem ofString_append (a b : String) : ofString (a ++ b) = ofString a ++ ofString b := by
  rw [ofString, String.toList_append, encode_append]
  rfl

theorem encode_singleton (c : Char) : encode [c] = String.utf8EncodeChar c :=
  List.append_nil _

/-- The first bytes of a character, if they are not all of it, are seen to be cut. -/
theorem scalar_take {c : Char} {k : Nat} (hpos : 0 < k) (hlt : k < (String.utf8EncodeChar c).length) :
    ∃ first rest, (String.utf8EncodeChar c).take k = first :: rest ∧ scalar first rest = .cut := by
  have hvalid : c.toNat < 0xd800 ∨ 0xdfff < c.toNat ∧ c.toNat < 0x110000 := c.valid
  obtain ⟨k, rfl⟩ : ∃ n, k = n + 1 := ⟨k - 1, by omega⟩
  revert hlt
  unfold String.utf8EncodeChar
  dsimp only
  rw [Char.toNat_val]
  generalize c.toNat = v at hvalid
  split_ifs with h1 h2 h3
  · intro hlt
    rw [List.length_singleton] at hlt
    omega
  · intro hlt
    simp only [List.length_cons, List.length_nil] at hlt
    obtain rfl : k = 0 := by omega
    have hfirst : (UInt8.ofNat (v / 64 % 32 + 192)).toNat = v / 64 % 32 + 192 :=
      toNat_ofNat_of_lt (by omega)
    refine ⟨_, _, rfl, ?_⟩
    unfold scalar headOfTwo
    simp only [hfirst]
    rw [if_neg (by omega), if_neg (by omega), if_pos (by omega)]
    rfl
  · intro hlt
    simp only [List.length_cons, List.length_nil] at hlt
    have hfirst : (UInt8.ofNat (v / 4096 % 16 + 224)).toNat = v / 4096 % 16 + 224 :=
      toNat_ofNat_of_lt (by omega)
    have hsecond := secondOfThree_tail (v := v) (by omega) (by omega) h3
    refine ⟨_, _, rfl, ?_⟩
    obtain rfl | rfl : k = 0 ∨ k = 1 := by omega
    all_goals
      unfold scalar headOfThree
      simp only [hfirst, List.take_succ_cons, List.take_zero, hsecond, if_true]
      rw [if_neg (by omega), if_neg (by omega), if_neg (by omega), if_pos (by omega)]
  · intro hlt
    simp only [List.length_cons, List.length_nil] at hlt
    have hfirst : (UInt8.ofNat (v / 262144 % 8 + 240)).toNat = v / 262144 % 8 + 240 :=
      toNat_ofNat_of_lt (by omega)
    have hsecond := secondOfFour_tail (v := v) (by omega) (by omega)
    refine ⟨_, _, rfl, ?_⟩
    obtain rfl | rfl | rfl : k = 0 ∨ k = 1 ∨ k = 2 := by omega
    all_goals
      unfold scalar headOfFour
      simp only [hfirst, List.take_succ_cons, List.take_zero, hsecond, continues_tail, if_true]
      rw [if_neg (by omega), if_neg (by omega), if_neg (by omega), if_neg (by omega), if_pos (by omega)]

/-- A text that ends within a character is read up to there, and refused. -/
theorem decode_cut (s : List Char) {c : Char} {k : Nat} (hpos : 0 < k)
    (hlt : k < (String.utf8EncodeChar c).length) :
    decode (encode s ++ (String.utf8EncodeChar c).take k) = .error ⟨(encode s).length, none⟩ := by
  obtain ⟨first, rest, htake, hscalar⟩ := scalar_take hpos hlt
  rw [decode, decodeFrom_append, htake, decodeFrom, hscalar, Nat.zero_add]

/-- Where the bytes of a text are cut, so many of its characters are whole, and of the next one some bytes may be
left. -/
theorem exists_take_encode {s : List Char} {n : Nat} (hn : n < (encode s).length) :
    ∃ before c after, s = before ++ c :: after ∧ (encode before).length ≤ n ∧
      n < (encode (before ++ [c])).length ∧
      (encode s).take n = encode before ++ (String.utf8EncodeChar c).take (n - (encode before).length) := by
  induction s generalizing n with
  | nil => exact absurd hn (Nat.not_lt_zero n)
  | cons c s ih =>
    have hencode : encode (c :: s) = String.utf8EncodeChar c ++ encode s := List.flatMap_cons
    rw [hencode, List.length_append] at hn
    by_cases hwhole : (String.utf8EncodeChar c).length ≤ n
    · obtain ⟨before, d, after, rfl, hle, hlt, htake⟩ := ih (n := n - (String.utf8EncodeChar c).length) (by omega)
      have hbefore : encode (c :: before) = String.utf8EncodeChar c ++ encode before := List.flatMap_cons
      have hlast : encode (c :: before ++ [d]) = String.utf8EncodeChar c ++ encode (before ++ [d]) :=
        List.flatMap_cons
      refine ⟨c :: before, d, after, rfl, ?_, ?_, ?_⟩
      · rw [hbefore, List.length_append]
        omega
      · rw [hlast, List.length_append]
        omega
      · rw [hencode, List.take_append, List.take_of_length_le hwhole, htake, hbefore, List.append_assoc,
          List.length_append, Nat.sub_sub]
    · refine ⟨[], c, s, rfl, Nat.zero_le n, ?_, ?_⟩
      · rw [List.nil_append, encode_singleton]
        omega
      · rw [hencode, List.take_append_of_le_length (by omega)]
        rfl

end HistogramMonitor.Utf8
