import HistogramMonitor.Proofs.Histogram.Acceptance

/-!
# Hostile headers

A header may call for any number of bins. Whatever it says, decoding makes no room for content that is not
there, no number that it computes is too large for 64 bits, and what it has read makes up a snapshot
(`hostile_headers_contained`).

To say so, decoding is put on guard (`Guarded`): with a position in a fixed buffer, it stops with a mark of its own
(`Stop`) where a sum leaves 64 bits, where room is made for more content than is left, where content ends early,
and where the parts make up no snapshot. Products are checked by decoding itself, which refuses the buffer when one
leaves 64 bits. Step by step, guarded reading comes to what reading comes to (`Follows`), so none of these marks is
ever reached. What bounds the sums is how far a position may run past the end of the buffer: every alignment divides
eight, so never past the next multiple of eight.
-/

namespace HistogramMonitor

/-! ## Decoding on guard -/

/-- Why guarded decoding ends early. -/
inductive Stop
  /-- the buffer is refused -/
  | refused (e : DecodeError)
  /-- a sum leaves 64 bits -/
  | wrapped
  /-- room is made for more content than what is left of the buffer -/
  | oversized
  /-- the buffer ends within the content that room was made for -/
  | overrun
  /-- what was read does not make up a snapshot -/
  | disagreement (e : DecodeError)
  deriving DecidableEq, Repr

/-- A step of guarded decoding: in a fixed buffer, from a position in it. -/
abbrev Guarded := ReaderT Bytes (StateT Nat (Except Stop))

namespace Guarded

/-- A sum, which 64 bits have to hold. -/
def sum (m n : Nat) : Guarded Nat :=
  if m + n < addressable then return m + n else throw .wrapped

/-- Moves the position on. -/
def advance (n : Nat) : Guarded Unit := do
  set (← sum (← get) n)

/-- What is left of the buffer; nothing, if the position is past its end. -/
def rest : Guarded Bytes := return (← read).drop (← get)

/-- The next field of `w` bytes, or what it means that there are fewer. -/
def field (short : Stop) (w : Nat) : Guarded Nat := do
  let head := (← rest).take w
  if head.length = w then
    advance w
    return Bytes.ofLittle head
  else throw short

/-- The next field of a header. -/
def headerField : Nat → Guarded Nat := field (.refused .headerCut)

/-- The next byte. -/
def byte : Guarded UInt8 := UInt8.ofNat <$> headerField 1

/-- Skips padding. -/
def align (alignment : Nat) : Guarded Unit := do
  advance (Bytes.gap (← get) alignment)

/-- An edge of the given size. -/
def edge (size : Nat) : Guarded Double :=
  if size = 4 then do return Single.widen ⟨UInt32.ofNat (← headerField 4)⟩
  else do return ⟨UInt64.ofNat (← headerField 8)⟩

/-- The edge size of one axis. -/
def abscissaSize : Guarded Nat := do
  let size ← byte
  if size = 4 ∨ size = 8 then return size.toNat else throw (.refused (.abscissaSize size))

/-- The bin size. -/
def ordinateSize (kind : Kind) : Guarded Unit := do
  let size ← byte
  unless size = 4 ∨ size = 8 do throw (.refused (.ordinateSize size))
  unless size.toNat = kind.element.size do throw (.refused (.ordinateMismatch kind size))

/-- The kind and the number of axes. -/
def kind : Guarded Kind := do
  let version ← byte
  unless version.toNat = formatVersion do throw (.refused (.version version))
  let tag ← byte
  let some kind := Kind.ofTag? tag.toNat | throw (.refused (.kind tag))
  let found ← byte
  unless found.toNat = kind.dimensions do throw (.refused (.dimensions kind found))
  return kind

/-- One axis. -/
def axis (bins size : Nat) : Guarded Axis := do
  align size
  let low ← edge size
  let high ← edge size
  return ⟨UInt32.ofNat bins, low, high⟩

/-- Everything before the content. -/
def header : Guarded (Kind × List Axis × Nat) := do
  let kind ← kind
  let sizes ← (List.replicate kind.dimensions ()).mapM fun _ => abscissaSize
  ordinateSize kind
  let bins ← align 4 >>= fun _ => sizes.mapM fun _ => headerField 4
  let axes ← (bins.zip sizes).mapM fun (n, size) => axis n size
  let entries ← align 8 >>= fun _ => headerField 8
  return (kind, axes, entries)

/-- The bins with one axis more, if their number can still be addressed. -/
def times (m : Nat) (a : Axis) : Guarded Nat := do
  let cells ← sum a.bins.toNat 2
  let some product := checkedMul m cells | throw (.refused .tooManyBins)
  return product

/-- The number of bins that axes call for. -/
def totalBins (axes : List Axis) : Guarded Nat := axes.foldlM times 1

/-- Makes room for so many bins and reads them one by one. -/
def bins (e : Element) (n : Nat) : Guarded Content := do
  if n * e.size ≤ (← rest).length then
    return Content.ofFields e (← (List.replicate n ()).mapM fun _ => field .overrun e.size)
  else throw .oversized

/-- The content, once the buffer is known to hold it. -/
def content (e : Element) (n : Nat) : Guarded Content := do
  let remaining := (← read).length - (← get)
  let some required := checkedMul n e.size | throw (.refused (.contentCut n e.size remaining))
  if required ≤ remaining then bins e n else throw (.refused (.contentCut n e.size remaining))

/-- The content that a header calls for, and the snapshot that it makes up with the header. -/
def body (kind : Kind) (axes : List Axis) (entries : Nat) : Guarded Snapshot := do
  align kind.element.size
  let content ← content kind.element (← totalBins axes)
  match Snapshot.make? kind axes (UInt64.ofNat entries) content with
  | .ok h => return h
  | .error e => throw (.disagreement e)

/-- The histogram that a buffer starts with. -/
def decode (b : Bytes) : Except Stop Snapshot :=
  (·.1) <$> (header >>= fun (kind, axes, entries) => body kind axes entries) b 0

/-! ## Positions -/

variable {α β γ : Type} {b : Bytes} {n w : Nat}

theorem bind_apply (x : Guarded α) (f : α → Guarded β) (b : Bytes) (n : Nat) :
    (x >>= f) b n = match x b n with
      | .error s => .error s
      | .ok (a, n') => f a b n' := by
  change (x b n >>= fun p => f p.1 b p.2) = _
  cases x b n <;> rfl

theorem advance_apply (h : n + w < addressable) : advance w b n = .ok ((), n + w) := by
  change (sum n w >>= set : Guarded Unit) b n = _
  rw [sum, if_pos h]
  rfl

/-- A position that reading can have come to. Padding may lead past the end of the buffer, but not past the next
multiple of eight. -/
def Within (b : Bytes) (n : Nat) : Prop := n ≤ (b.aligned 8).length

/-- No buffer is longer than half of what can be addressed. -/
theorem length_aligned_lt (hb : b.length < 0x8000000000000000) : (b.aligned 8).length < addressable := by
  have hgap := Bytes.gap_lt b.length (show 0 < 8 by decide)
  rw [Bytes.aligned, List.length_append, Bytes.length_zeros, addressable]
  omega

/-- A field that is there ends within the buffer. -/
theorem Within.field (hn : Within b n) (hw : w ≤ (b.drop n).length) : Within b (n + w) := by
  have hlen := b.length_le_aligned 8
  rw [List.length_drop] at hw
  simp only [Within] at hn ⊢
  omega

/-- The next multiple of eight is aligned in every way, so padding does not lead past it. -/
theorem Within.align (hn : Within b n) (hw : 0 < w) (hdvd : w ∣ 8) : Within b (n + Bytes.gap n w) := by
  have height : 8 ∣ (b.aligned 8).length := Nat.dvd_of_mod_eq_zero (b.length_aligned_mod (by decide))
  have hgap : Bytes.gap n w ≤ (b.aligned 8).length - n := by
    apply Bytes.gap_le hw
    rw [Nat.add_sub_cancel' hn]
    exact Nat.mod_eq_zero_of_dvd (Nat.dvd_trans hdvd height)
  exact Nat.add_le_of_le_sub' hn hgap

/-! ## Reading in step -/

/-- The place that a position stands for. -/
def place (b : Bytes) (n : Nat) : Cursor := ⟨n, b.drop n⟩

theorem place_aligned (b : Bytes) (n w : Nat) : (place b n).aligned w = place b (n + Bytes.gap n w) :=
  congrArg (Cursor.mk _) List.drop_drop

/-- The same value, a good one, at corresponding places; or the same refusal. -/
inductive Likewise (b : Bytes) (good : α → Prop) :
    Except Stop (α × Nat) → Except DecodeError (α × Cursor) → Prop
  | ok {a : α} {n : Nat} (ha : good a) (hn : Within b n) : Likewise b good (.ok (a, n)) (.ok (a, place b n))
  | refused (e : DecodeError) : Likewise b good (.error (.refused e)) (.error e)

/-- From every position, guarded reading comes to what reading comes to. -/
def Follows (b : Bytes) (good : α → Prop) (x : Guarded α) (y : Reader α) : Prop :=
  ∀ n, Within b n → Likewise b good (x b n) (y (place b n))

/-- Any value. -/
def Anything : α → Prop := fun _ => True

namespace Follows

variable {x : Guarded α} {y : Reader α} {good : α → Prop} {good' : β → Prop}

theorem pure {a : α} (ha : good a) : Follows b good (pure a) (pure a) := fun _ hn => .ok ha hn

theorem refuse (e : DecodeError) : Follows b good (throw (.refused e)) (throw e) := fun _ _ => .refused e

theorem bind {f : α → Guarded β} {g : α → Reader β} (h : Follows b good x y)
    (hf : ∀ a, good a → Follows b good' (f a) (g a)) : Follows b good' (x >>= f) (y >>= g) := by
  intro n hn
  rw [bind_apply, Reader.bind_apply]
  have hx := h n hn
  generalize x b n = left, y (place b n) = right at hx ⊢
  cases hx with
  | ok ha hn => exact hf _ ha _ hn
  | refused e => exact .refused e

theorem map (h : Follows b good x y) (f : α → β) : Follows b Anything (f <$> x) (f <$> y) := by
  rw [map_eq_pure_bind, map_eq_pure_bind]
  exact h.bind fun _ _ => .pure trivial

theorem ite {p : Prop} [Decidable p] {x' : Guarded α} {y' : Reader α} (h : p → Follows b good x y)
    (h' : ¬ p → Follows b good x' y') :
    Follows b good (if p then x else x') (if p then y else y') := by
  split
  · exact h ‹p›
  · exact h' ‹¬ p›

/-- A check before going on. -/
theorem check {p : Prop} [Decidable p] {e : DecodeError} {f : PUnit → Guarded α} {g : PUnit → Reader α}
    (h : p → Follows b good x y) :
    Follows b good (if p then x else throw (.refused e) >>= f) (if p then y else throw e >>= g) :=
  ite h fun _ _ _ => .refused e

theorem mapM {l : List γ} {f : γ → Guarded α} {g : γ → Reader α}
    (h : ∀ i ∈ l, Follows b good (f i) (g i)) :
    Follows b (fun as => ∀ a ∈ as, good a) (l.mapM f) (l.mapM g) := by
  induction l with
  | nil => exact .pure nofun
  | cons i l ih =>
    obtain ⟨hi, hl⟩ := List.forall_mem_cons.mp h
    rw [List.mapM_cons, List.mapM_cons]
    exact hi.bind fun a ha => (ih hl).bind fun as has => .pure (List.forall_mem_cons.mpr ⟨ha, has⟩)

end Follows

/-! ## Counting bins -/

/-- The cells along an axis are never too many to be counted, and their product is checked. -/
theorem times_apply (m : Nat) (a : Axis) : times m a b n =
    match checkedMul m a.cells with
    | some product => .ok (product, n)
    | none => .error (.refused .tooManyBins) := by
  have hcells : a.bins.toNat + 2 < addressable :=
    Nat.lt_trans (Nat.add_lt_add_right a.bins.toNat_lt 2) (by decide)
  rw [times, bind_apply, sum, if_pos hcells]
  change (match checkedMul m a.cells with
    | some product => pure product
    | _ => throw (.refused .tooManyBins) : Guarded Nat) b n = _
  cases checkedMul m a.cells <;> rfl

/-- The number of bins is refused on guard where it is refused without. -/
theorem totalBins_apply (axes : List Axis) : totalBins axes b n =
    if cellCount axes < addressable then .ok (cellCount axes, n) else .error (.refused .tooManyBins) := by
  have hfold : ∀ (axes : List Axis) (m : Nat), axes.foldlM times m b n =
      match axes.foldlM (fun n a => checkedMul n a.cells) m with
      | some total => .ok (total, n)
      | none => .error (.refused .tooManyBins) := by
    intro axes
    induction axes with
    | nil => exact fun m => rfl
    | cons a axes ih =>
      intro m
      rw [List.foldlM_cons, List.foldlM_cons, bind_apply, times_apply]
      cases checkedMul m a.cells with
      | none => rfl
      | some product => exact ih product
  have htotal : axes.foldlM (fun n a => checkedMul n a.cells) 1 = _ := totalBins_eq axes
  rw [totalBins, hfold, htotal]
  by_cases hlt : cellCount axes < addressable
  · rw [if_pos hlt, if_pos hlt]
  · rw [if_neg hlt, if_neg hlt]

/-! ## The header -/

section

variable (hb : (b.aligned 8).length < addressable)
include hb

theorem field_of_le (short : Stop) (hn : Within b n) (hw : w ≤ (b.drop n).length) :
    field short w b n = .ok (Bytes.ofLittle ((b.drop n).take w), n + w) := by
  have hend := Nat.lt_of_le_of_lt (hn.field hw) hb
  change (if _ then _ else _ : Guarded Nat) b n = _
  rw [if_pos (List.length_take_of_le hw), bind_apply, advance_apply hend]
  rfl

theorem follows_headerField (w : Nat) : Follows b Anything (headerField w) (Reader.field w) := by
  intro n hn
  by_cases hw : w ≤ (b.drop n).length
  · have hdrop : (b.drop n).drop w = b.drop (n + w) := List.drop_drop
    rw [headerField, field_of_le hb _ hn hw]
    simp only [Reader.field, place, List.length_take_of_le hw, if_true, hdrop]
    exact .ok trivial (hn.field hw)
  · have hshort : ¬ ((b.drop n).take w).length = w := by
      rw [List.length_take]
      omega
    have hguarded : headerField w b n = .error (.refused .headerCut) := by
      change (if _ then _ else _ : Guarded Nat) b n = _
      rw [if_neg hshort]
      rfl
    have hplain : Reader.field w (place b n) = .error .headerCut := if_neg hshort
    rw [hguarded, hplain]
    exact .refused _

theorem follows_align (hw : 0 < w) (hdvd : w ∣ 8) : Follows b Anything (align w) (Reader.align w) := by
  intro n hn
  have hend := hn.align hw hdvd
  have hguarded : align w b n = .ok ((), n + Bytes.gap n w) := advance_apply (Nat.lt_of_le_of_lt hend hb)
  have hplain : Reader.align w (place b n) = .ok ((), place b (n + Bytes.gap n w)) :=
    congrArg (fun c => Except.ok ((), c)) (place_aligned b n w)
  rw [hguarded, hplain]
  exact .ok trivial hend

theorem follows_byte : Follows b Anything byte Reader.byte := (follows_headerField hb 1).map UInt8.ofNat

theorem follows_edge (size : Nat) : Follows b Anything (edge size) (Reader.edge size) :=
  .ite (fun _ => (follows_headerField hb 4).bind fun _ _ => .pure trivial)
    fun _ => (follows_headerField hb 8).bind fun _ _ => .pure trivial

theorem follows_abscissaSize :
    Follows b (fun size => size = 4 ∨ size = 8) abscissaSize Reader.abscissaSize := by
  refine (follows_byte hb).bind fun size _ => .ite (fun hsize => .pure ?_) fun _ => .refuse _
  rcases hsize with rfl | rfl
  · exact .inl rfl
  · exact .inr rfl

theorem follows_ordinateSize (k : Kind) :
    Follows b Anything (ordinateSize k) (Reader.ordinateSize k) :=
  (follows_byte hb).bind fun _ _ => .check fun _ => .ite (fun _ => .pure trivial) fun _ => .refuse _

theorem follows_kind : Follows b Anything kind Reader.kind := by
  refine (follows_byte hb).bind fun version _ => .check fun _ => (follows_byte hb).bind fun tag _ => ?_
  cases Kind.ofTag? tag.toNat with
  | none => exact .refuse _
  | some k => exact (follows_byte hb).bind fun found _ => .check fun _ => .pure trivial

theorem follows_axis {size : Nat} (bins : Nat) (hsize : size = 4 ∨ size = 8) :
    Follows b Anything (axis bins size) (Reader.axis bins size) := by
  have halign : Follows b Anything (align size) (Reader.align size) := by
    rcases hsize with rfl | rfl
    · exact follows_align hb (by decide) (by decide)
    · exact follows_align hb (by decide) (by decide)
  exact halign.bind fun _ _ => (follows_edge hb size).bind fun _ _ => (follows_edge hb size).bind fun _ _ =>
    .pure trivial

theorem follows_header : Follows b Anything header Reader.header := by
  refine (follows_kind hb).bind fun k _ =>
    (Follows.mapM fun _ _ => follows_abscissaSize hb).bind fun sizes hsizes =>
    (follows_ordinateSize hb k).bind fun _ _ => ?_
  have hbins := (follows_align hb (show 0 < 4 by decide) (by decide)).bind fun _ _ =>
    Follows.mapM (l := sizes) fun _ _ => follows_headerField hb 4
  have hentries := (follows_align hb (show 0 < 8 by decide) (by decide)).bind fun _ _ =>
    follows_headerField hb 8
  refine hbins.bind fun bins _ => ?_
  have haxes := Follows.mapM (l := bins.zip sizes) fun i hi =>
    follows_axis hb i.1 (hsizes i.2 (List.of_mem_zip hi).2)
  exact haxes.bind fun axes _ => hentries.bind fun entries _ => .pure trivial

/-! ## The content -/

/-- Fields that the buffer holds are read one by one. -/
theorem read_values {bytes : List Bytes} {more : Bytes} (hn : Within b n)
    (hbytes : ∀ f ∈ bytes, f.length = w) (hrest : b.drop n = bytes.flatten ++ more) :
    ((List.replicate bytes.length ()).mapM fun _ => field .overrun w) b n =
      .ok (bytes.map Bytes.ofLittle, n + bytes.length * w) := by
  induction bytes generalizing n with
  | nil =>
    rw [List.length_nil, Nat.zero_mul]
    rfl
  | cons f bytes ih =>
    obtain ⟨hf, hbytes⟩ := List.forall_mem_cons.mp hbytes
    rw [List.flatten_cons, List.append_assoc] at hrest
    have hw : w ≤ (b.drop n).length := by
      rw [hrest, List.length_append, hf]
      exact Nat.le_add_right _ _
    have hdrop : b.drop (n + w) = bytes.flatten ++ more := by
      rw [← List.drop_drop, hrest, List.drop_left' hf]
    rw [List.length_cons, List.replicate_succ, List.mapM_cons, bind_apply, field_of_le hb _ hn hw, hrest,
      List.take_left' hf]
    change ((List.mapM _ _ : Guarded (List Nat)) >>= _) b (n + w) = _
    rw [bind_apply, ih (hn.field hw) hbytes hdrop]
    change Except.ok (_, n + w + bytes.length * w) = _
    rw [List.map_cons, Nat.succ_mul, Nat.add_comm (bytes.length * w), Nat.add_assoc]

/-- Where the rest of the buffer holds the content, all of it is read. -/
theorem bins_apply {e : Element} {m : Nat} (hn : Within b n) (hroom : m * e.size ≤ (b.drop n).length) :
    bins e m b n = .ok (Content.ofFields e (fields e.size m (b.drop n)), n + m * e.size) := by
  obtain ⟨bytes, more, rfl, hbytes, hrest⟩ := exists_flatten m hroom
  change (if _ then _ else _ : Guarded Content) b n = _
  rw [if_pos hroom, bind_apply, read_values hb hn hbytes hrest, hrest, fields_flatten hbytes]
  rfl

/-- Room is made for content only where it holds it. -/
theorem content_apply {e : Element} {m : Nat} (hn : Within b n) : content e m b n =
    match Reader.content e m (place b n) with
    | .ok (v, _) => .ok (v, n + m * e.size)
    | .error err => .error (.refused err) := by
  have hremaining : b.length - n = (b.drop n).length := List.length_drop.symm
  change (match checkedMul m e.size with
    | some required => if required ≤ b.length - n then bins e m
      else throw (.refused (.contentCut m e.size (b.length - n)))
    | _ => throw (.refused (.contentCut m e.size (b.length - n))) : Guarded Content) b n = _
  rw [hremaining, Reader.content_apply]
  by_cases hlt : m * e.size < addressable
  · have hchecked : checkedMul m e.size = some (m * e.size) := if_pos hlt
    by_cases hroom : m * e.size ≤ (b.drop n).length
    · simp only [hchecked, place, hlt, hroom, and_self, if_true]
      exact bins_apply hb hn hroom
    · simp only [hchecked, place, hroom, and_false, if_false]
      rfl
  · have hchecked : checkedMul m e.size = none := if_neg hlt
    simp only [hchecked, place, hlt, false_and, if_false]
    rfl

/-- Behind a header, guarded decoding comes to the snapshot or the refusal that decoding comes to. -/
theorem body_apply (head : Header) (hn : Within b n) :
    (·.1) <$> body head.kind head.axes head.entries.toNat b n =
      ((·.1) <$> Reader.body head.kind head.axes head.entries.toNat (place b n)).mapError .refused := by
  have hpos := head.kind.element.size_pos
  have hend := hn.align hpos head.kind.element.size_dvd
  have hmod : (place b (n + Bytes.gap n head.kind.element.size)).offset % head.kind.element.size = 0 :=
    Bytes.add_gap_mod n hpos
  have halign : align head.kind.element.size b n = .ok ((), n + Bytes.gap n head.kind.element.size) :=
    advance_apply (Nat.lt_of_le_of_lt hend hb)
  rw [Reader.body_apply, place_aligned, body, bind_apply, halign]
  generalize n + Bytes.gap n head.kind.element.size = n' at hend hmod ⊢
  change (·.1) <$> (totalBins head.axes >>= fun total => content head.kind.element total >>= fun v => _ :
    Guarded Snapshot) b n' = _
  rw [bind_apply, totalBins_apply]
  by_cases hlt : cellCount head.axes < addressable
  · simp only [if_pos hlt]
    rw [bind_apply, content_apply hb hend, Reader.bind_apply]
    cases hcontent : Reader.content head.kind.element (cellCount head.axes) (place b n') with
    | error err => rfl
    | ok p =>
      -- bins that were read make a snapshot, so the last check does not fail
      obtain ⟨v, c⟩ := p
      obtain ⟨-, helement, hlen, -⟩ := (Reader.content_eq_ok_iff hmod).mp hcontent
      obtain ⟨h, -, -, -, -, hmake⟩ := Reader.make?_eq_ok helement hlen hlt
      simp only [hmake]
      rfl
  · simp only [if_neg hlt]
    rfl

/-- No mark of the guard is reached: it comes to what decoding comes to. -/
theorem decode_eq : decode b = (Snapshot.decode b).mapError .refused := by
  have hstart : Within b 0 := Nat.zero_le _
  have hheader := follows_header hb 0 hstart
  rw [decode, Snapshot.decode, Reader.snapshot_eq, bind_apply, Reader.bind_apply]
  change Likewise b Anything _ (Reader.header ⟨0, b⟩) at hheader
  generalize hplain : Reader.header ⟨0, b⟩ = plain, header b 0 = guarded at hheader ⊢
  cases hheader with
  | refused e => rfl
  | @ok p n _ hn =>
    obtain ⟨head, -, hvalue, -⟩ := (Reader.reads_header.ok trivial).mp hplain
    cases hvalue
    exact body_apply hb head hn

end

end Guarded

/-! ## What is made room for, and what is refused -/

variable {b : Bytes} {h : Snapshot}

/-- The bins of a snapshot are found behind its header, in what is left of the buffer there. -/
theorem Snapshot.StartsIn.exists_room (hb : h.StartsIn b) :
    ∃ (head : Header) (c : Cursor), Row ⟨0, b⟩ head.fields c ∧ h.content.length = cellCount head.axes ∧
      h.content.length * h.kind.element.size ≤ (c.aligned h.kind.element.size).rest.length ∧
      (c.aligned h.kind.element.size).rest.length ≤ b.length := by
  obtain ⟨head, c₁, -, -, -, hlen, hrows⟩ := hb
  obtain ⟨c, hrow, hcells⟩ := row_append_iff.mp hrows
  rw [← Content.row_aligned_iff (hlen ▸ cellCount_pos head.axes), h.element_eq] at hcells
  have hheader := hrow.length_le
  have hcontent := hcells.length_le
  rw [length_flatten_of_length_eq fun f => Content.length_of_mem_fields, h.element_eq,
    Content.length_fields] at hcontent
  refine ⟨head, c, hrow, Content.length_fields _ ▸ hlen, by omega, ?_⟩
  rw [c.length_aligned_rest]
  have hrest : (Cursor.mk 0 b).rest.length = b.length := rfl
  omega

/-- Too many bins are what a whole and valid header calls for, and nothing else is refused so. -/
theorem decode_eq_tooManyBins_iff : Snapshot.decode b = .error .tooManyBins ↔
    ∃ (head : Header) (c : Cursor), Row ⟨0, b⟩ head.fields c ∧ addressable ≤ cellCount head.axes := by
  rw [decode_eq_error_iff]
  constructor
  · rintro (hfault | ⟨head, c, -, -, -, herror⟩)
    · cases hfault with
      | invalid first => cases first
      | tooManyBins read wrong => exact ⟨_, _, read, wrong⟩
    · cases herror
  · rintro ⟨head, c, hrow, hmany⟩
    exact .inl (.tooManyBins hrow hmany)

/-- The content that was read is never of another length than the axes call for. -/
theorem decode_ne_contentLength (b : Bytes) (expected found : Nat) :
    Snapshot.decode b ≠ .error (.contentLength expected found) := by
  rw [Ne, decode_eq_error_iff]
  rintro (hfault | ⟨head, c, -, -, -, herror⟩)
  · cases hfault with
    | invalid first => cases first
  · cases herror

/-- **Hostile headers are contained.** Whatever a buffer holds, decoding it comes to what decoding on guard comes
to: no sum leaves 64 bits, nor does a product that is not refused; room is made only for content that is left of the
buffer, all of it is there to be read, and with the header it makes up a snapshot. So the bins of a snapshot fit behind
its header; too many bins are reported exactly for a whole header that calls for more than 64 bits can count; and
content of a wrong length is never reported. No buffer is longer than half of what can be addressed. -/
theorem hostile_headers_contained (b : Bytes) (hb : b.length < 0x8000000000000000) :
    Guarded.decode b = (Snapshot.decode b).mapError .refused ∧
    (∀ h, Snapshot.decode b = .ok h → ∃ (head : Header) (c : Cursor), Row ⟨0, b⟩ head.fields c ∧
      h.content.length = cellCount head.axes ∧
      h.content.length * h.kind.element.size ≤ (c.aligned h.kind.element.size).rest.length ∧
      (c.aligned h.kind.element.size).rest.length ≤ b.length) ∧
    (Snapshot.decode b = .error .tooManyBins ↔ ∃ (head : Header) (c : Cursor),
      Row ⟨0, b⟩ head.fields c ∧ addressable ≤ cellCount head.axes) ∧
    ∀ expected found, Snapshot.decode b ≠ .error (.contentLength expected found) :=
  ⟨Guarded.decode_eq (Guarded.length_aligned_lt hb),
    fun _ hok => (decode_eq_ok_iff.mp hok).1.exists_room,
    decode_eq_tooManyBins_iff, decode_ne_contentLength b⟩

/-- A map of counters that declares these bins along its axes, with room for four of them. -/
def declaredMap (m n : Nat) : Bytes :=
  [1, 4, 2, 4, 4, 4, 0, 0] ++ Bytes.little 4 m ++ Bytes.little 4 n ++
    (List.replicate 4 (Bytes.little 4 0x3F800000)).flatten ++ Bytes.little 8 7 ++ List.replicate 16 0

/-- As many bins as can be declared are too many to count. Somewhat fewer can be counted, but not their bytes. -/
theorem declaredMap_contained :
    ((declaredMap 0xFFFFFFFF 0xFFFFFFFF).length < 0x8000000000000000 ∧
      Guarded.decode (declaredMap 0xFFFFFFFF 0xFFFFFFFF) = .error (.refused .tooManyBins) ∧
      ∃ (head : Header) (c : Cursor), Row ⟨0, declaredMap 0xFFFFFFFF 0xFFFFFFFF⟩ head.fields c ∧
        addressable ≤ cellCount head.axes) ∧
    (declaredMap 0x7FFFFFFE 0xFFFFFFFE).length < 0x8000000000000000 ∧
      Guarded.decode (declaredMap 0x7FFFFFFE 0xFFFFFFFE) =
        .error (.refused (.contentCut 0x8000000000000000 4 16)) := by
  have hmany : Snapshot.decode (declaredMap 0xFFFFFFFF 0xFFFFFFFF) = .error .tooManyBins := rfl
  have hcut : Snapshot.decode (declaredMap 0x7FFFFFFE 0xFFFFFFFE) =
      .error (.contentCut 0x8000000000000000 4 16) := rfl
  have hlong : (declaredMap 0xFFFFFFFF 0xFFFFFFFF).length < 0x8000000000000000 := by decide
  have hlong' : (declaredMap 0x7FFFFFFE 0xFFFFFFFE).length < 0x8000000000000000 := by decide
  obtain ⟨hguarded, -, htoomany, -⟩ := hostile_headers_contained _ hlong
  refine ⟨⟨hlong, ?_, htoomany.mp hmany⟩, hlong', ?_⟩
  · rw [hguarded, hmany]
    rfl
  · rw [(hostile_headers_contained _ hlong').1, hcut]
    rfl

end HistogramMonitor
