import HistogramMonitor.Proofs.Files.Writing

/-!
# What stands in a directory

A path says where it is meant to lead before anything is looked up (`Files.intended`), and where it leads anywhere, it
leads there (`intended_of_locate`). The path of a name in a directory is meant for that directory and nothing else
(`intended_join`), so a name cannot be used to get out of it.

Conversely, what is listed under a name in a directory is found by the path of that name (`locate_join`), with one
exception: the path may have become too long, for it is longer than that of the directory.
-/

namespace HistogramMonitor

/-- A name under which a directory can hold something. -/
structure Path.Storable (name : String) : Prop extends Path.IsName name where
  no_null : '\x00' ∉ name.toList
  short : (Utf8.ofString name).length ≤ Path.nameLimit

instance (name : String) : Decidable (Path.Storable name) :=
  decidable_of_iff ('/' ∉ name.toList ∧ Path.idle name = false ∧ name ≠ ".." ∧ '\x00' ∉ name.toList ∧
      (Utf8.ofString name).length ≤ Path.nameLimit)
    ⟨fun ⟨hslash, hidle, habove, hnull, hshort⟩ => ⟨⟨hslash, hidle, habove⟩, hnull, hshort⟩,
      fun h => ⟨h.no_slash, h.not_idle, h.not_above, h.no_null, h.short⟩⟩

namespace Files

variable {t : Files} {p q : Place} {directory name path : String} {e : Entry}

/-! ## Where a path is meant to lead -/

/-- The place that one part of a path leads to if it leads anywhere. -/
def onward (p : Place) (part : String) : Place :=
  if Path.idle part then p else if part = ".." then p.dropLast else p ++ [part]

theorem intended_eq (t : Files) (path : String) :
    t.intended path = (Path.parts path).foldl onward (t.start path) := rfl

theorem onward_of_tread {part : String} (h : tread p part = .ok q) : onward p part = q := by
  unfold tread at h
  unfold onward
  split
  · rw [if_pos ‹_›] at h
    exact Except.ok.inj h
  · rw [if_neg ‹_›] at h
    split
    · rw [if_pos ‹_›] at h
      exact Except.ok.inj h
    · rw [if_neg ‹_›] at h
      split at h
      · cases h
      · exact Except.ok.inj h

theorem foldl_onward_of_walk {parts : List String} (h : t.walk p parts = .ok q) :
    parts.foldl onward p = q := by
  induction parts generalizing p with
  | nil => exact Except.ok.inj h
  | cons part parts ih =>
    obtain ⟨-, r, htread, hwalk⟩ := walk_cons_eq_ok_iff.1 h
    rw [List.foldl_cons, onward_of_tread htread]
    exact ih hwalk

/-- A path that leads anywhere leads where it is meant to. -/
theorem intended_of_locate (h : t.locate path = .ok p) : t.intended path = p :=
  foldl_onward_of_walk (locateParts_eq_ok_iff.1 h).2

theorem onward_idle {part : String} (h : Path.idle part = true) : onward p part = p := if_pos h

theorem onward_name (h : Path.IsName name) : onward p name = p ++ [name] := by
  rw [onward, if_neg (by simp [h.not_idle]), if_neg h.not_above]

/-- **A name in a directory** is meant for that directory. -/
theorem intended_join (t : Files) (directory : String) (h : Path.IsName name) :
    t.intended (Path.join directory name) = t.intended directory ++ [name] := by
  have hleading : (Path.leading directory).foldl onward (t.start (Path.join directory name)) =
      t.intended directory := by
    by_cases hd : directory = ""
    · subst hd
      have hrelative : Path.absolute name = false := by
        rw [Path.absolute, decide_eq_false_iff_not]
        exact fun hhead => h.no_slash (List.mem_of_head? hhead)
      have hstart : t.start (Path.join "" name) = t.current := by
        have hjoin : Path.join "" name = name := String.empty_append
        rw [start, hjoin, hrelative]
        rfl
      rw [hstart]
      rfl
    · rw [intended_eq, start_join t name hd]
      obtain hparts | hparts := Path.parts_cases hd
      · rw [hparts]
      · rw [hparts, List.foldl_append]
        exact (onward_idle (rfl : Path.idle "" = true)).symm
  rw [intended_eq, Path.parts_join h, List.foldl_append, hleading]
  exact onward_name h

/-! ## Finding what is listed -/

theorem not_mem_join {c : Char} (hc : c ≠ '/') (hdirectory : c ∉ directory.toList) (hname : c ∉ name.toList) :
    c ∉ (Path.join directory name).toList := by
  obtain ⟨-, hjoin, -⟩ | ⟨cs, hcs, -, hjoin, -⟩ := Path.join_cases directory name
  · rwa [hjoin]
  · rw [hjoin, List.mem_append, List.mem_cons]
    rintro (hmem | rfl | hmem)
    · obtain hcs | hcs := hcs <;> rw [hcs] at hdirectory
      · exact hdirectory hmem
      · exact hdirectory (List.mem_append_left _ hmem)
    · exact hc rfl
    · exact hname hmem

/-- **What stands in a directory is found by its path**, unless that is too long. -/
theorem locate_join (h : Path.Storable name) (hlocate : t.locate directory = .ok q)
    (hentry : t.at? q = some .directory)
    (hshort : (Utf8.ofString (Path.join directory name)).length < Path.limit) :
    t.locate (Path.join directory name) = .ok (q ++ [name]) := by
  obtain ⟨⟨hnull, hd, -⟩, hwalk⟩ := locateParts_eq_ok_iff.1 hlocate
  have hsome : Path.join directory name ≠ "" := by
    obtain ⟨rest, hrest⟩ := Path.prefix_join directory name
    rintro hempty
    rw [hempty] at hrest
    exact hd (String.toList_eq_nil_iff.1 (List.append_eq_nil_iff.1 hrest).1)
  refine (locate_join_iff h.toIsName).2 ⟨⟨not_mem_join (by decide) hnull h.no_null, hsome, hshort⟩, h.short,
    q, ?_, hentry, rfl⟩
  rw [start_join t name hd]
  exact (walk_leading_iff hd hentry).2 hwalk

/-- The path of something in a directory is the longer of the two. -/
theorem length_le_join (directory name : String) :
    (Utf8.ofString directory).length + (Utf8.ofString name).length ≤
      (Utf8.ofString (Path.join directory name)).length := by
  have hlength : ∀ a b : String,
      (Utf8.ofString (a ++ b)).length = (Utf8.ofString a).length + (Utf8.ofString b).length :=
    fun a b => (congrArg List.length (Utf8.ofString_append a b)).trans List.length_append
  unfold Path.join
  split
  · exact Nat.le_of_eq (hlength directory name).symm
  · rw [hlength, hlength]
    omega

/-- A path that is too long leads nowhere. -/
theorem has_of_long (h : Path.limit ≤ (Utf8.ofString path).length) : t.has path = false := by
  rw [← Bool.not_eq_true, has_iff]
  rintro ⟨e, hfind⟩
  obtain ⟨p, hlocate, -⟩ := find_eq_ok_iff.1 hfind
  exact Nat.not_lt_of_le h (locateParts_eq_ok_iff.1 hlocate).1.2.2

/-- A directory cannot be read. -/
theorem read_of_directory (h : t.find path = .ok .directory) : t.read path = .error .isDirectory := by
  rw [read, h]
  rfl

/-! ## Slashes at the end -/

theorem split_append_slashes (cs : List Char) (n : Nat) :
    Path.split (cs ++ List.replicate n '/') = Path.split cs ++ List.replicate n [] := by
  have hslashes : ∀ n, Path.split (List.replicate n '/') = List.replicate (n + 1) [] := by
    intro n
    induction n with
    | zero => rfl
    | succ n ih =>
      rw [List.replicate_succ, Path.split, if_pos rfl, ih]
      rfl
  cases n with
  | zero => rw [List.replicate_zero, List.replicate_zero, List.append_nil, List.append_nil]
  | succ n => rw [List.replicate_succ, Path.split_append, hslashes]

theorem walk_idle {part : String} (hpart : Path.idle part = true) (hentry : t.at? p = some .directory) (n : Nat) :
    t.walk p (List.replicate n part) = .ok p := by
  induction n with
  | zero => rfl
  | succ n ih => exact walk_cons_eq_ok_iff.2 ⟨hentry, p, if_pos hpart, ih⟩

/-- A path with slashes at its end. -/
def slashes (directory : String) (n : Nat) : String := directory ++ String.ofList (List.replicate n '/')

theorem toList_slashes (directory : String) (n : Nat) :
    (slashes directory n).toList = directory.toList ++ List.replicate n '/' := by
  rw [slashes, String.toList_append, String.toList_ofList]

theorem length_slashes (directory : String) (n : Nat) :
    (Utf8.ofString (slashes directory n)).length = (Utf8.ofString directory).length + n := by
  have hlength : ∀ n, (Utf8.encode (List.replicate n '/')).length = n := by
    intro n
    induction n with
    | zero => rfl
    | succ n ih =>
      rw [List.replicate_succ', Utf8.encode_append, List.length_append]
      exact congrArg (· + 1) ih
  rw [Utf8.ofString, toList_slashes, Utf8.encode_append, List.length_append, hlength]
  rfl

/-- Slashes at the end of the path of a directory change nothing, as long as the path is not too long. -/
theorem locate_slashes (hlocate : t.locate directory = .ok q) (hentry : t.at? q = some .directory) {n : Nat}
    (hshort : (Utf8.ofString directory).length + n < Path.limit) :
    t.locate (slashes directory n) = .ok q := by
  obtain ⟨⟨hnull, hd, -⟩, hwalk⟩ := locateParts_eq_ok_iff.1 hlocate
  have hsome : directory.toList ≠ [] := fun hnil => hd (String.toList_eq_nil_iff.1 hnil)
  have hnull' : '\x00' ∉ (slashes directory n).toList := by
    rw [toList_slashes, List.mem_append, List.mem_replicate]
    rintro (hmem | ⟨-, hslash⟩)
    · exact hnull hmem
    · exact absurd hslash (by decide)
  have hsome' : slashes directory n ≠ "" := by
    rw [ne_eq, ← String.toList_eq_nil_iff, toList_slashes, List.append_eq_nil_iff]
    exact fun h => hsome h.1
  have hstart : t.start (slashes directory n) = t.start directory := by
    obtain ⟨c, cs, hcs⟩ := List.exists_cons_of_ne_nil hsome
    rw [start, start, Path.absolute, Path.absolute, toList_slashes, hcs]
    rfl
  have hparts : Path.parts (slashes directory n) = Path.parts directory ++ List.replicate n "" := by
    rw [Path.parts, toList_slashes, split_append_slashes, List.map_append, List.map_replicate]
    rfl
  refine locateParts_eq_ok_iff.2 ⟨⟨hnull', hsome', length_slashes directory n ▸ hshort⟩, ?_⟩
  rw [hstart, hparts, walk_append_eq_ok_iff]
  exact ⟨q, hwalk, walk_idle rfl hentry n⟩

end Files

end HistogramMonitor
