import HistogramMonitor.Files.Tree
import HistogramMonitor.Proofs.Text.Utf8

/-!
# Files that were written

A file that was written is read back (`read_of_write`): the path that led to its place still does. That rests on
one fact: a walk enters nothing but directories, and a file never takes the place of one (`walk_put_file_iff`).

The path of a name in a directory leads where the path of the directory leads, and then to the name
(`locate_join_iff`). So a file that was written there makes its directory one (`isDirectory_of_write`), and what
stands there under other names is left as it was (`find_write_of_ne`).
-/

namespace HistogramMonitor

/-! ## Paths -/

namespace Path

theorem split_ne_nil (cs : List Char) : split cs ≠ [] := by
  cases cs with
  | nil => exact List.cons_ne_nil _ _
  | cons c cs =>
    rw [split]
    split
    · exact List.cons_ne_nil _ _
    · split <;> exact List.cons_ne_nil _ _

theorem split_append (cs ds : List Char) : split (cs ++ '/' :: ds) = split cs ++ split ds := by
  induction cs with
  | nil => rfl
  | cons c cs ih =>
    rw [List.cons_append, split, split]
    by_cases hc : c = '/'
    · rw [if_pos hc, if_pos hc, ih]
      rfl
    · rw [if_neg hc, if_neg hc, ih]
      obtain ⟨part, parts, hparts⟩ := List.exists_cons_of_ne_nil (split_ne_nil cs)
      rw [hparts]
      rfl

theorem split_of_not_mem {cs : List Char} (h : '/' ∉ cs) : split cs = [cs] := by
  induction cs with
  | nil => rfl
  | cons c cs ih =>
    rw [List.mem_cons, not_or] at h
    rw [split, if_neg (Ne.symm h.1), ih h.2]

/-- What stands behind the last slash of a path is its last part. -/
theorem exists_last_part {cs : List Char} (hne : cs ≠ []) (hslash : cs.getLast? ≠ some '/') :
    ∃ init last, split cs = init ++ [last] ∧ last ≠ [] := by
  by_cases hmem : '/' ∈ cs
  · obtain ⟨last, init, hcs, hlast⟩ := List.eq_append_cons_of_mem (List.mem_reverse.2 hmem)
    have hparts : cs = init.reverse ++ '/' :: last.reverse := by
      rw [← List.reverse_reverse cs, hcs]
      simp
    refine ⟨split init.reverse, last.reverse, ?_, ?_⟩
    · have hopen : '/' ∉ last.reverse := by simpa using hlast
      rw [hparts, split_append, split_of_not_mem hopen]
    · rintro hnil
      rw [hparts, hnil] at hslash
      exact hslash List.getLast?_concat
  · exact ⟨[], cs, split_of_not_mem hmem, hne⟩

/-- Where a path does not end with a slash, nothing is cut off at its end. -/
theorem trimmed_parts {path : String} (hne : path ≠ "") (hslash : slashed path = false) :
    trimmed (parts path) = parts path := by
  have hchars : path.toList ≠ [] := fun hnil => hne (String.toList_eq_nil_iff.1 hnil)
  obtain ⟨init, last, hsplit, hlast⟩ := exists_last_part hchars (of_decide_eq_false hslash)
  have hname : ¬(String.ofList last).isEmpty := by
    simpa [← String.toList_eq_nil_iff] using hlast
  rw [parts, hsplit, List.map_append, List.map_singleton, trimmed, List.reverse_concat,
    List.dropWhile_cons_of_neg hname, List.reverse_cons, List.reverse_reverse]

/-- What something in a directory can be called. -/
structure IsName (name : String) : Prop where
  no_slash : '/' ∉ name.toList
  not_idle : idle name = false
  not_above : name ≠ ".."

/-- The parts of a path that lead to what stands in the directory: an empty one at the end does not. -/
def leading (directory : String) : List String :=
  if directory.isEmpty || slashed directory then (parts directory).dropLast else parts directory

variable {directory name : String}

/-- The path of something in a directory is its name after a slash, unless the directory has no path. -/
theorem join_cases (directory name : String) :
    directory = "" ∧ (join directory name).toList = name.toList ∧ leading directory = [] ∨
    ∃ cs, (directory.toList = cs ∨ directory.toList = cs ++ ['/']) ∧ directory ≠ "" ∧
      (join directory name).toList = cs ++ '/' :: name.toList ∧
      leading directory = (split cs).map String.ofList := by
  by_cases hempty : directory = ""
  · subst hempty
    exact .inl ⟨rfl, by simp [join], rfl⟩
  · refine .inr ?_
    have hflag : directory.isEmpty = false := by simpa using hempty
    by_cases hslash : slashed directory
    · obtain ⟨cs, hcs⟩ := List.getLast?_eq_some_iff.1 (of_decide_eq_true hslash)
      refine ⟨cs, .inr hcs, hempty, ?_, ?_⟩
      · simp [join, hslash, hcs]
      · simp [leading, hslash, parts, hcs, split_append, split]
    · refine ⟨directory.toList, .inl rfl, hempty, ?_, ?_⟩
      · simp [join, hslash, hflag]
      · simp [leading, hslash, hflag, parts]

/-- A path has no parts but those that lead to what stands under it, and maybe an empty one. -/
theorem parts_cases (h : directory ≠ "") :
    parts directory = leading directory ∨ parts directory = leading directory ++ [""] := by
  obtain ⟨h', -⟩ | ⟨cs, hcs | hcs, -, -, hleading⟩ := join_cases directory ""
  · contradiction
  · exact .inl (by rw [parts, hcs, hleading])
  · exact .inr (by rw [parts, hcs, hleading, split_append, List.map_append]; rfl)

theorem parts_join (h : IsName name) : parts (join directory name) = leading directory ++ [name] := by
  have hname : (split name.toList).map String.ofList = [name] := by
    rw [split_of_not_mem h.no_slash, List.map_singleton, String.ofList_toList]
  obtain ⟨-, hjoin, hleading⟩ | ⟨cs, -, -, hjoin, hleading⟩ := join_cases directory name
  · rw [parts, hjoin, hleading, hname, List.nil_append]
  · rw [parts, hjoin, hleading, split_append, List.map_append, hname]

theorem prefix_join (directory name : String) : directory.toList <+: (join directory name).toList := by
  obtain ⟨rfl, -⟩ | ⟨cs, hcs | hcs, -, hjoin, -⟩ := join_cases directory name
  · exact List.nil_prefix
  · rw [hcs, hjoin]
    exact List.prefix_append cs _
  · rw [hcs, hjoin, List.append_cons cs '/' name.toList]
    exact List.prefix_append _ _

/-- The path of something in a directory starts where that of the directory does. -/
theorem absolute_join (h : directory ≠ "") : absolute (join directory name) = absolute directory := by
  obtain ⟨rest, hrest⟩ := prefix_join directory name
  obtain ⟨c, cs, hcs⟩ := List.exists_cons_of_ne_nil fun hnil => h (String.toList_eq_nil_iff.1 hnil)
  rw [absolute, absolute, ← hrest, hcs]
  rfl

end Path

/-! ## Places -/

namespace Files

variable {α β : Type} {t t' : Files} {p q : Place}

theorem bind_eq_ok_iff {x : Except FileError α} {f : α → Except FileError β} {b : β} :
    (x >>= f) = .ok b ↔ ∃ a, x = .ok a ∧ f a = .ok b := by
  cases x with
  | error e => simp [bind, Except.bind]
  | ok a => simp [bind, Except.bind]

/-- Where the walk along a path starts. -/
def start (t : Files) (path : String) : Place := if Path.absolute path then [] else t.current

/-- The path can be walked at all: it is not empty, not too long, and holds no null character. -/
def Walkable (path : String) : Prop :=
  '\x00' ∉ path.toList ∧ path ≠ "" ∧ (Utf8.ofString path).length < Path.limit

theorem locateParts_eq_ok_iff {path : String} {parts : List String} :
    t.locateParts path parts = .ok p ↔ Walkable path ∧ t.walk (t.start path) parts = .ok p := by
  unfold locateParts Walkable
  rw [start]
  by_cases hnull : '\x00' ∈ path.toList
  · simp [hnull]
  · by_cases hempty : path = ""
    · simp [hempty]
    · by_cases hlimit : Path.limit ≤ (Utf8.ofString path).length
      · simp [hnull, hempty, hlimit, Nat.not_lt.2 hlimit]
      · simp [hnull, hempty, hlimit, Nat.lt_of_not_le hlimit]

/-- One part of a path, as the walk along it takes it. -/
def tread (p : Place) (part : String) : Except FileError Place :=
  if Path.idle part then .ok p
  else if part = ".." then .ok p.dropLast
  else if Path.nameLimit < (Utf8.ofString part).length then .error .nameTooLong
  else .ok (p ++ [part])

theorem walk_cons (t : Files) (p : Place) (part : String) (parts : List String) :
    t.walk p (part :: parts) = (do t.enter p; let q ← tread p part; t.walk q parts) := by
  rw [walk, tread]
  cases t.enter p with
  | error e => rfl
  | ok _ =>
    split
    · rfl
    · split
      · rfl
      · split <;> rfl

theorem walk_cons_eq_ok_iff {part : String} {parts : List String} :
    t.walk p (part :: parts) = .ok q ↔
      t.at? p = some .directory ∧ ∃ r, tread p part = .ok r ∧ t.walk r parts = .ok q := by
  have henter : t.enter p = .ok () ↔ t.at? p = some .directory := by
    unfold enter
    split <;> simp_all
  rw [walk_cons, ← henter]
  simp only [bind_eq_ok_iff]
  exact ⟨fun ⟨_, h⟩ => h, fun h => ⟨(), h⟩⟩

theorem walk_append_eq_ok_iff {xs ys : List String} :
    t.walk p (xs ++ ys) = .ok q ↔ ∃ r, t.walk p xs = .ok r ∧ t.walk r ys = .ok q := by
  induction xs generalizing p with
  | nil => simp [walk]
  | cons x xs ih =>
    rw [List.cons_append, walk_cons_eq_ok_iff]
    simp only [walk_cons_eq_ok_iff, ih]
    grind

/-- A walk to a name goes through its directory. -/
theorem walk_name_eq_ok_iff {name : String} (h : Path.IsName name) :
    t.walk p [name] = .ok q ↔ t.at? p = some .directory ∧
      (Utf8.ofString name).length ≤ Path.nameLimit ∧ q = p ++ [name] := by
  rw [walk_cons_eq_ok_iff, tread, if_neg (by simp [h.not_idle]), if_neg h.not_above]
  by_cases hlimit : Path.nameLimit < (Utf8.ofString name).length
  · simp [hlimit, Nat.not_le.2 hlimit]
  · simp [hlimit, Nat.le_of_not_lt hlimit, walk, eq_comm]

/-- **The path of a name in a directory** leads where the path of the directory leads, and on to the name. -/
theorem locate_join_iff {directory name : String} (h : Path.IsName name) :
    t.locate (Path.join directory name) = .ok p ↔
      Walkable (Path.join directory name) ∧ (Utf8.ofString name).length ≤ Path.nameLimit ∧
        ∃ q, t.walk (t.start (Path.join directory name)) (Path.leading directory) = .ok q ∧
          t.at? q = some .directory ∧ p = q ++ [name] := by
  rw [locate, locateParts_eq_ok_iff, Path.parts_join h, walk_append_eq_ok_iff]
  simp only [walk_name_eq_ok_iff h]
  grind

/-! ## Writing -/

theorem lookup_filter_of_ne {entries : List (Place × Entry)} (h : q ≠ p) :
    (entries.filter (·.1 ≠ p)).lookup q = entries.lookup q := by
  induction entries with
  | nil => rfl
  | cons entry entries ih =>
    obtain ⟨r, e⟩ := entry
    by_cases hr : r = p
    · have hq : (q == r) = false := by simpa [hr] using h
      rw [List.filter_cons_of_neg (by simpa using hr), ih, List.lookup_cons, hq]
    · rw [List.filter_cons_of_pos (by simpa using hr), List.lookup_cons, List.lookup_cons, ih]

/-- The root is a directory. -/
theorem ne_nil_of_not_directory (h : t.at? p ≠ some .directory) : p ≠ [] := by
  rintro rfl
  exact h rfl

/-- What stands in a tree after something was put there. -/
theorem at?_put (t : Files) {p : Place} (hp : p ≠ []) (q : Place) (e : Entry) :
    (t.put p e).at? q = if q = p then some e else t.at? q := by
  unfold at? put
  by_cases hq : q = p
  · subst hq
    simp [hp]
  · have hbeq : (q == p) = false := by simpa using hq
    rw [if_neg hq, List.lookup_cons, hbeq]
    dsimp only
    rw [lookup_filter_of_ne hq]

/-- A file that is put where no directory was makes no difference to what is a directory. -/
theorem at?_put_file_iff {r : Place} {content : Bytes} (hr : t.at? r ≠ some .directory) :
    (t.put r (.file content)).at? p = some .directory ↔ t.at? p = some .directory := by
  rw [at?_put t (ne_nil_of_not_directory hr)]
  by_cases hpr : p = r
  · subst hpr
    simp [hr]
  · rw [if_neg hpr]

/-- A walk enters nothing but directories, and so a file that was put where none was is not in its way. -/
theorem walk_put_file_iff {r : Place} {content : Bytes} (hr : t.at? r ≠ some .directory)
    {parts : List String} : (t.put r (.file content)).walk p parts = .ok q ↔ t.walk p parts = .ok q := by
  induction parts generalizing p with
  | nil => rfl
  | cons part parts ih => simp only [walk_cons_eq_ok_iff, at?_put_file_iff hr, ih]

theorem locate_put_file_iff {r : Place} {content : Bytes} (hr : t.at? r ≠ some .directory) {path : String} :
    (t.put r (.file content)).locate path = .ok p ↔ t.locate path = .ok p := by
  rw [locate, locateParts_eq_ok_iff, walk_put_file_iff hr, locate, locateParts_eq_ok_iff]
  rfl

/-! ## Looking -/

theorem find_eq_ok_iff {path : String} {e : Entry} :
    t.find path = .ok e ↔ ∃ p, t.locate path = .ok p ∧ t.at? p = some e := by
  unfold find
  rw [bind_eq_ok_iff]
  refine exists_congr fun p => and_congr_right fun _ => ?_
  cases t.at? p with
  | none => exact ⟨nofun, nofun⟩
  | some e' =>
    exact ⟨fun h => congrArg some (Except.ok.inj h), fun h => congrArg Except.ok (Option.some.inj h)⟩

theorem read_eq_ok_iff {path : String} {content : Bytes} :
    t.read path = .ok content ↔ t.find path = .ok (.file content) := by
  unfold read
  rw [bind_eq_ok_iff]
  constructor
  · rintro ⟨e, hfind, he⟩
    cases e with
    | file content' =>
      cases he
      exact hfind
    | directory => cases he
  · intro hfind
    exact ⟨_, hfind, rfl⟩

theorem isDirectory_iff {path : String} : t.isDirectory path ↔ t.find path = .ok .directory := by
  unfold isDirectory
  split
  · rename_i hfind
    exact ⟨fun _ => hfind, fun _ => rfl⟩
  · rename_i hfind
    exact ⟨nofun, fun h => absurd h hfind⟩

theorem has_iff {path : String} : t.has path ↔ ∃ e, t.find path = .ok e := by
  rw [has]
  cases t.find path with
  | error e => exact ⟨nofun, fun ⟨_, h⟩ => nomatch h⟩
  | ok e => exact ⟨fun _ => ⟨e, rfl⟩, fun _ => rfl⟩

theorem has_of_find {path : String} {e : Entry} (h : t.find path = .ok e) : t.has path := has_iff.2 ⟨e, h⟩

/-! ## Writing a file -/

/-- What writing a file comes to, if it is written. -/
theorem write_eq_ok_iff {path : String} {content : Bytes} : t.write path content = .ok t' ↔
    Path.slashed path = false ∧ ∃ p, t.locate path = .ok p ∧ t.at? p ≠ some .directory ∧
      t' = t.put p (.file content) := by
  unfold write
  by_cases hslash : Path.slashed path
  · rw [if_pos hslash, bind_eq_ok_iff]
    refine ⟨fun ⟨_, _, hthrow⟩ => ?_, fun h => absurd hslash (by simp [h.1])⟩
    obtain ⟨_, hthrow, -⟩ := bind_eq_ok_iff.1 hthrow
    cases hthrow
  · have hopen : Path.slashed path = false := by simpa using hslash
    rw [if_neg hslash]
    simp only [hopen, true_and]
    have hlocate : ∀ p, t.locateNew path = .ok p ↔ t.locate path = .ok p := by
      intro p
      rw [locateNew, locate, locateParts_eq_ok_iff, locateParts_eq_ok_iff]
      refine and_congr_right fun hwalkable => ?_
      rw [Path.trimmed_parts hwalkable.2.1 hopen]
    rw [bind_eq_ok_iff]
    refine exists_congr fun p => and_congr (hlocate p) ?_
    split
    · rename_i hentry
      exact ⟨nofun, fun h => absurd hentry h.1⟩
    · rename_i hentry
      exact ⟨fun h => ⟨hentry, (Except.ok.inj h).symm⟩, fun h => congrArg Except.ok h.2.symm⟩

/-- **A file that was written is read back.** -/
theorem read_of_write {path : String} {content : Bytes} (hwrite : t.write path content = .ok t') :
    t'.read path = .ok content := by
  obtain ⟨-, p, hlocate, hfree, rfl⟩ := write_eq_ok_iff.1 hwrite
  rw [read_eq_ok_iff, find_eq_ok_iff]
  exact ⟨p, (locate_put_file_iff hfree).2 hlocate, by rw [at?_put t (ne_nil_of_not_directory hfree), if_pos rfl]⟩

/-! ## Files in a directory -/

section

variable {directory name : String} {content : Bytes}

/-- What is written in a directory leaves what stands there under another name as it was. -/
theorem find_write_of_ne {other : String} (h : Path.IsName name) (h' : Path.IsName other) (hne : other ≠ name)
    (hwrite : t.write (Path.join directory other) content = .ok t') {e : Entry} :
    t'.find (Path.join directory name) = .ok e ↔ t.find (Path.join directory name) = .ok e := by
  obtain ⟨-, p', hlocate', hfree, rfl⟩ := write_eq_ok_iff.1 hwrite
  obtain ⟨-, -, q', -, -, rfl⟩ := (locate_join_iff h').1 hlocate'
  rw [find_eq_ok_iff, find_eq_ok_iff]
  refine exists_congr fun p => ?_
  rw [locate_put_file_iff hfree]
  refine and_congr_right fun hlocate => ?_
  obtain ⟨-, -, q, -, -, rfl⟩ := (locate_join_iff h).1 hlocate
  have hapart : q ++ [name] ≠ q' ++ [other] := fun heq =>
    hne (List.singleton_inj.1 (List.append_inj_right' heq rfl)).symm
  rw [at?_put t (ne_nil_of_not_directory hfree), if_neg hapart]

/-- A file is not changed by what is written under another name in the same directory. -/
theorem read_of_write_of_ne {other : String} {content' : Bytes} (h : Path.IsName name)
    (h' : Path.IsName other) (hne : other ≠ name)
    (hwrite : t.write (Path.join directory other) content' = .ok t')
    (hread : t.read (Path.join directory name) = .ok content) :
    t'.read (Path.join directory name) = .ok content := by
  rw [read_eq_ok_iff] at hread ⊢
  exact (find_write_of_ne h h' hne hwrite).2 hread

/-- A path in a directory starts where that of the directory does. -/
theorem start_join (t : Files) (name : String) (hd : directory ≠ "") :
    t.start (Path.join directory name) = t.start directory := by
  rw [start, start, Path.absolute_join hd]

/-- A path is walked up to a directory in the same way as on to something in it. -/
theorem walk_leading_iff (hd : directory ≠ "") (hentry : t.at? q = some .directory) :
    t.walk p (Path.leading directory) = .ok q ↔ t.walk p (Path.parts directory) = .ok q := by
  obtain hparts | hparts := Path.parts_cases hd
  · rw [hparts]
  · rw [hparts, walk_append_eq_ok_iff]
    constructor
    · exact fun hwalk => ⟨q, hwalk, walk_cons_eq_ok_iff.2 ⟨hentry, q, rfl, rfl⟩⟩
    · rintro ⟨r, hwalk, hidle⟩
      obtain ⟨-, r', htread, hend⟩ := walk_cons_eq_ok_iff.1 hidle
      obtain rfl : r = r' := Except.ok.inj htread
      obtain rfl : r = q := Except.ok.inj hend
      exact hwalk

theorem walkable_directory (hd : directory ≠ "") (h : Walkable (Path.join directory name)) :
    Walkable directory := by
  obtain ⟨rest, hrest⟩ := Path.prefix_join directory name
  obtain ⟨hnull, -, hlimit⟩ := h
  refine ⟨fun hmem => hnull ?_, hd, Nat.lt_of_le_of_lt ?_ hlimit⟩
  · rw [← hrest]
    exact List.mem_append_left rest hmem
  · rw [Utf8.ofString, Utf8.ofString, ← hrest, Utf8.encode_append, List.length_append]
    exact Nat.le_add_right _ _

/-- Something in a directory stands where the path of the directory leads, unless it has none. -/
theorem locate_directory (h : Path.IsName name) (hd : directory ≠ "")
    (hlocate : t.locate (Path.join directory name) = .ok p) :
    ∃ q, t.locate directory = .ok q ∧ t.at? q = some .directory ∧ p = q ++ [name] := by
  obtain ⟨hwalkable, -, q, hwalk, hentry, hp⟩ := (locate_join_iff h).1 hlocate
  rw [start_join t name hd] at hwalk
  refine ⟨q, ?_, hentry, hp⟩
  rw [locate, locateParts_eq_ok_iff]
  exact ⟨walkable_directory hd hwalkable, (walk_leading_iff hd hentry).1 hwalk⟩

theorem isDirectory_of_write (h : Path.IsName name) (hd : directory ≠ "")
    (hwrite : t.write (Path.join directory name) content = .ok t') : t'.isDirectory directory := by
  obtain ⟨-, p, hlocate, hfree, rfl⟩ := write_eq_ok_iff.1 hwrite
  obtain ⟨q, hq, hentry, -⟩ := locate_directory h hd hlocate
  rw [isDirectory_iff, find_eq_ok_iff]
  exact ⟨q, (locate_put_file_iff hfree).2 hq, (at?_put_file_iff hfree).2 hentry⟩

/-! ## An empty directory -/

/-- A directory whose names can be listed has a path. -/
theorem directory_ne_empty {names : List String} (h : t.names directory = .ok names) : directory ≠ "" := by
  rintro rfl
  obtain ⟨p, hlocate, -⟩ := bind_eq_ok_iff.1 h
  exact (locateParts_eq_ok_iff.1 hlocate).1.2.1 rfl

theorem names_eq_ok_iff {names : List String} : t.names directory = .ok names ↔
    ∃ p, t.locate directory = .ok p ∧ t.at? p = some .directory ∧ t.namesAt p = names := by
  unfold Files.names
  rw [bind_eq_ok_iff]
  refine exists_congr fun p => and_congr_right fun _ => ?_
  split
  · rename_i hentry
    exact ⟨fun h => ⟨hentry, Except.ok.inj h⟩, fun h => congrArg Except.ok h.2⟩
  · rename_i hentry
    exact ⟨nofun, fun h => by simp [hentry] at h⟩
  · rename_i hentry
    exact ⟨nofun, fun h => by simp [hentry] at h⟩

theorem isDirectory_of_names {names : List String} (h : t.names directory = .ok names) :
    t.isDirectory directory := by
  obtain ⟨p, hlocate, hentry, -⟩ := names_eq_ok_iff.1 h
  exact isDirectory_iff.2 (find_eq_ok_iff.2 ⟨p, hlocate, hentry⟩)

/-- The names in a directory are those under which something stands there. -/
theorem mem_namesAt_iff : name ∈ t.namesAt p ↔ ∃ e, t.at? (p ++ [name]) = some e := by
  have hkey : ∀ entry : Place × Entry,
      (if entry.1.dropLast = p then entry.1.getLast? else none) = some name ↔ p ++ [name] = entry.1 := by
    intro entry
    constructor
    · intro h
      split at h
      · rename_i hplace
        obtain ⟨above, habove⟩ := List.getLast?_eq_some_iff.1 h
        rw [habove, List.dropLast_concat] at hplace
        rw [habove, hplace]
      · cases h
    · intro h
      rw [← h]
      simp
  have hlookup : t.at? (p ++ [name]) = t.entries.lookup (p ++ [name]) := by simp [at?]
  rw [hlookup, ← Option.isSome_iff_exists, List.lookup_isSome_iff, namesAt, List.mem_filterMap]
  simp only [hkey, beq_iff_eq]

/-- Nothing stands in an empty directory. -/
theorem has_of_empty (h : Path.IsName name) (hempty : t.names directory = .ok []) :
    t.has (Path.join directory name) = false := by
  rw [← Bool.not_eq_true, has_iff]
  rintro ⟨e, hfind⟩
  obtain ⟨p, hlocate, hentry⟩ := find_eq_ok_iff.1 hfind
  obtain ⟨q, hq, -, rfl⟩ := locate_directory h (directory_ne_empty hempty) hlocate
  obtain ⟨q', hq', -, hnames⟩ := names_eq_ok_iff.1 hempty
  obtain rfl : q = q' := Except.ok.inj (hq.symm.trans hq')
  -- its name would be listed
  have hmem : name ∈ t.namesAt q := mem_namesAt_iff.2 ⟨e, hentry⟩
  rw [hnames] at hmem
  cases hmem

end

end Files

end HistogramMonitor
