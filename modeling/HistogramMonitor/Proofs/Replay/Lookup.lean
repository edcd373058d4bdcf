import HistogramMonitor.Proofs.Files.Directories
import HistogramMonitor.Proofs.Replay.Recordings
import HistogramMonitor.Proofs.Transport.Listing

/-!
# What a store lists, and what it finds

A histogram has its file in the directory of the store, whatever its name is, and nowhere else. Listing goes the other
way: from the files that end as replies do, to names. The two are inverse to each other, because a listed name has no
percent signs and a file has no slashes (`nameOf?_eq_some_iff`). So every name that is listed has the file looked for
that it was listed from, and no two files are listed under one name (`listing_agrees`).

What is looked for is found unless its path is too long. That can be so even though the directory was listed, for the
path of the file is longer than that of the directory (`listed_and_not_found`).
-/

namespace HistogramMonitor.ReplyStore

variable {s : ReplyStore} {t : Files} {file name : String} {files : List String}

/-! ## Names and files -/

theorem ending_suffix (name : String) : ending <:+ (fileName name).toList :=
  ⟨swap '/' '%' name.toList, String.toList_ofList.symm⟩

/-- What is listed of a file is what stands before the ending. -/
theorem nameOf?_eq_some : nameOf? file = some name ↔ ∃ stem, stem ≠ [] ∧ file.toList = stem ++ ending ∧
    name = String.ofList (swap '%' '/' stem) := by
  unfold nameOf?
  dsimp only
  constructor
  · intro h
    split at h
    · rename_i hfile
      simp only [Bool.and_eq_true, Bool.not_eq_true', List.isEmpty_eq_false_iff, decide_eq_true_eq] at hfile
      exact ⟨_, hfile.1, hfile.2.symm, (Option.some.inj h).symm⟩
    · cases h
  · rintro ⟨stem, hstem, hfile, rfl⟩
    have htake : file.toList.take (file.toList.length - ending.length) = stem := by
      rw [hfile, List.length_append, Nat.add_sub_cancel, List.take_left]
    rw [htake, if_pos (by simp [hstem, hfile])]

/-- **Names and files are inverse to each other**, where there are no slashes in a file: it is listed under the one name
without percent signs that it is the file of. A file that is nothing but the ending is not listed. -/
theorem nameOf?_eq_some_iff (hfile : '/' ∉ file.toList) :
    nameOf? file = some name ↔ name ≠ "" ∧ '%' ∉ name.toList ∧ fileName name = file := by
  rw [nameOf?_eq_some]
  constructor
  · rintro ⟨stem, hstem, hchars, rfl⟩
    have hopen : '/' ∉ stem := fun hmem => hfile (hchars ▸ List.mem_append_left ending hmem)
    refine ⟨fun hempty => hstem ?_, ?_, ?_⟩
    · rw [← String.toList_eq_nil_iff, String.toList_ofList] at hempty
      exact List.map_eq_nil_iff.1 hempty
    · rw [String.toList_ofList]
      exact not_mem_swap (by decide) stem
    · rw [fileName, String.toList_ofList, swap_swap hopen, ← hchars, String.ofList_toList]
  · rintro ⟨hempty, hpercent, rfl⟩
    refine ⟨swap '/' '%' name.toList, ?_, String.toList_ofList, ?_⟩
    · exact fun hnil => hempty (String.toList_eq_nil_iff.1 (List.map_eq_nil_iff.1 hnil))
    · rw [swap_swap hpercent, String.ofList_toList]

/-! ## Listings -/

theorem sorted_perm (names : List String) : (sorted names).Perm names := List.mergeSort_perm names _

theorem sorted_pairwise (names : List String) : (sorted names).Pairwise (· ≤ ·) := by
  have hle : ∀ a b : String, (!decide (b < a)) = true ↔ a ≤ b := by
    intro a b
    rw [Bool.not_eq_true', decide_eq_false_iff_not, String.not_lt]
  refine (List.pairwise_mergeSort (fun a b c => ?_) (fun a b => ?_) names).imp fun {a b} h => (hle a b).1 h
  · rw [hle, hle, hle]
    exact String.le_trans
  · rw [Bool.or_eq_true, hle, hle]
    exact String.le_total a b

/-- A call for the listing is answered with the names of the files in the directory. -/
theorem answer_list (hfiles : t.names s.directory = .ok files) {c : Call} (hcommand : c.command = listCommand) :
    s.answer t c = (.ok (c.cut (Client.listMessage (sorted (files.filterMap nameOf?)))), []) := by
  have hother : c.command ≠ histogramCommand := hcommand ▸ (by decide)
  unfold answer listReply
  rw [if_pos (Files.isDirectory_of_names hfiles), hfiles]
  dsimp only
  rw [if_neg hother, if_pos hcommand]
  rfl

/-! ## Looking up what is listed -/

/-- What is answered where this stands under the name of a histogram's file: the path of that may be too long for it to
be found, and it may be no file. -/
def found (name : String) : Bool → Entry → Except RpcError Bytes
  | true, _ => .error (.rejected s!"no histogram named {name}")
  | false, .file content => .ok content
  | false, .directory => .error (.io "Is a directory (os error 21)")

theorem lookUp_eq_found (hfiles : t.names s.directory = .ok files) {e : Entry}
    (hstorable : Path.Storable (fileName name))
    (hentry : t.at? (t.intended s.directory ++ [fileName name]) = some e) :
    s.lookUp t name = found name (Path.limit ≤ (Utf8.ofString (s.path name)).length) e := by
  obtain ⟨q, hlocate, hdirectory, -⟩ := Files.names_eq_ok_iff.1 hfiles
  rw [Files.intended_of_locate hlocate] at hentry
  by_cases hlong : Path.limit ≤ (Utf8.ofString (s.path name)).length
  · rw [lookUp_of_not_has (Files.has_of_long hlong), decide_eq_true hlong, found]
  · have hplace := Files.locate_join hstorable hlocate hdirectory (Nat.lt_of_not_le hlong)
    have hfind : t.find (s.path name) = .ok e := Files.find_eq_ok_iff.2 ⟨_, hplace, hentry⟩
    rw [decide_eq_false hlong]
    cases e with
    | file content => exact lookUp_of_read (Files.read_eq_ok_iff.2 hfind)
    | directory =>
      rw [lookUp, if_pos (Files.has_of_find hfind), Files.read_of_directory hfind]
      rfl

/-- **Listing and looking up agree.**

* Whatever the name of a histogram is, the path of its file is meant for the directory of the store, and if it leads
  anywhere it leads there. The file ends as replies do, and is neither the directory itself nor the one above.
* Where the directory can be listed, the listing has, in order, one name for each file that ends as replies do: these
  are the names without percent signs, the empty one apart, whose file is in the directory. A name that is listed from a
  file has no path but that of this file, and is listed from no other.
* So a call for a listed name looks for the file that it was listed from. What stands there is what it is answered with,
  if it is a file and its path has fewer than 4096 bytes. -/
theorem listing_agrees (s : ReplyStore) (t : Files) :
    (∀ name, t.intended (s.path name) = t.intended s.directory ++ [fileName name] ∧
      (∀ p, t.locate (s.path name) = .ok p → p = t.intended s.directory ++ [fileName name]) ∧
      Path.IsName (fileName name) ∧ ".dqm".toList <:+ (fileName name).toList) ∧
    ∀ files, t.names s.directory = .ok files → (∀ file ∈ files, Path.Storable file) →
      ∃ names,
        (∀ c : Call, c.command = "dqm::list" → s.answer t c = (.ok (c.cut (Client.listMessage names)), [])) ∧
        names.Perm (files.filterMap nameOf?) ∧ names.Pairwise (· ≤ ·) ∧
        (∀ name, name ∈ names ↔ name ≠ "" ∧ '%' ∉ name.toList ∧ fileName name ∈ files) ∧
        ∀ file ∈ files, ∀ name, nameOf? file = some name →
          s.path name = Path.join s.directory file ∧
          (∀ other ∈ files, nameOf? other = some name → other = file) ∧
          ∃ e, t.at? (t.intended s.directory ++ [file]) = some e ∧
            ∀ (c : Call) (j : Json), c.command = "dqm::histogram" → Json.parse c.args = .ok j →
              j.member? "name" = some (.string name) →
              s.answer t c = (c.cut <$> found name (4096 ≤ (Utf8.ofString (s.path name)).length) e, []) := by
  refine ⟨fun name => ?_, fun files hfiles hstorable => ?_⟩
  · have hintended := Files.intended_join t s.directory (isName_fileName name)
    refine ⟨hintended, fun p hp => ?_, isName_fileName name, ending_suffix name⟩
    exact (Files.intended_of_locate hp).symm.trans hintended
  · have hfile : ∀ file ∈ files, ∀ name, nameOf? file = some name →
        name ≠ "" ∧ '%' ∉ name.toList ∧ fileName name = file :=
      fun file hmem name => (nameOf?_eq_some_iff (hstorable file hmem).no_slash).1
    refine ⟨_, fun c hcommand => answer_list hfiles hcommand, sorted_perm _, sorted_pairwise _, fun name => ?_, ?_⟩
    · rw [(sorted_perm _).mem_iff, List.mem_filterMap]
      constructor
      · rintro ⟨file, hmem, hname⟩
        obtain ⟨hsome, hpercent, rfl⟩ := hfile file hmem name hname
        exact ⟨hsome, hpercent, hmem⟩
      · rintro ⟨hsome, hpercent, hmem⟩
        exact ⟨_, hmem, (nameOf?_eq_some_iff (hstorable _ hmem).no_slash).2 ⟨hsome, hpercent, rfl⟩⟩
    · intro file hmem name hname
      obtain ⟨-, -, rfl⟩ := hfile file hmem name hname
      obtain ⟨q, hlocate, -, hnames⟩ := Files.names_eq_ok_iff.1 hfiles
      obtain ⟨e, hentry⟩ := Files.mem_namesAt_iff.1 (hnames ▸ hmem)
      rw [← Files.intended_of_locate hlocate] at hentry
      refine ⟨rfl, fun other hother hsame => (hfile other hother name hsame).2.2.symm, e, hentry, ?_⟩
      intro c j hcommand hargs hnamed
      rw [answer_histogram (Files.isDirectory_of_names hfiles) hcommand hargs hnamed,
        lookUp_eq_found hfiles (hstorable _ hmem) hentry]
      rfl

/-- A directory with a reply in it, a file that is nothing but the ending, a directory that ends as a reply does, and
something else. -/
def attic : Files where
  entries := [(["d", "a%b.dqm"], .file [7]), (["d", ".dqm"], .file []), (["d", "..dqm"], .directory),
    (["d", "notes"], .file []), (["d"], .directory)]

/-- The reply is listed, and found under the name that it is listed by. -/
theorem attic_agrees :
    attic.names "d" = .ok ["a%b.dqm", ".dqm", "..dqm", "notes"] ∧
    (∀ file ∈ ["a%b.dqm", ".dqm", "..dqm", "notes"], Path.Storable file) ∧
    nameOf? "a%b.dqm" = some "a/b" ∧ answer ⟨"d"⟩ attic (Client.request "a/b" [0] "ana") = (.ok [7], []) := by
  have hnames : attic.names "d" = .ok ["a%b.dqm", ".dqm", "..dqm", "notes"] := by rfl
  have hstorable : ∀ file ∈ ["a%b.dqm", ".dqm", "..dqm", "notes"], Path.Storable file := by decide
  have hname : nameOf? "a%b.dqm" = some "a/b" := by rfl
  obtain ⟨-, -, -, -, -, hlookUp⟩ := (listing_agrees ⟨"d"⟩ attic).2 _ hnames hstorable
  obtain ⟨-, -, e, hentry, hanswer⟩ := hlookUp "a%b.dqm" (by decide) "a/b" hname
  obtain rfl : Entry.file [7] = e := Option.some.inj hentry
  exact ⟨hnames, hstorable, hname, hanswer _ _ rfl (Client.parse_histogramArgs "a/b" [0]) rfl⟩

/-- Not every file that is listed is found: where the path of the directory is nearly too long, that of the file is. -/
theorem listed_and_not_found : ¬ ∀ (s : ReplyStore) (t : Files) (files : List String) (file name : String)
    (content : Bytes) (c : Call) (j : Json), t.names s.directory = .ok files →
    (∀ file ∈ files, Path.Storable file) → file ∈ files → nameOf? file = some name → '\n' ∉ name.toList →
    t.at? (t.intended s.directory ++ [file]) = some (.file content) → c.command = histogramCommand →
    Json.parse c.args = .ok j → j.member? "name" = some (.string name) →
    s.answer t c = (.ok (c.cut content), []) := by
  intro hall
  let s : ReplyStore := ⟨Files.slashes "d" 4092⟩
  let t : Files := { entries := [(["d", "h.dqm"], .file [1]), (["d"], .directory)] }
  have hlocate : t.locate s.directory = .ok ["d"] :=
    Files.locate_slashes (rfl : t.locate "d" = .ok ["d"]) rfl (by decide)
  have hnames : t.names s.directory = .ok ["h.dqm"] :=
    Files.names_eq_ok_iff.2 ⟨_, hlocate, by rfl, by rfl⟩
  have hentry : t.at? (t.intended s.directory ++ ["h.dqm"]) = some (.file [1]) := by
    rw [Files.intended_of_locate hlocate]
    rfl
  have hlong : Path.limit ≤ (Utf8.ofString (s.path "h")).length := by
    refine Nat.le_trans ?_ (Files.length_le_join s.directory (fileName "h"))
    rw [Files.length_slashes]
    decide
  have hargs := Client.parse_histogramArgs "h" [0]
  have hanswer := answer_histogram (c := Client.request "h" [0] "ana") (Files.isDirectory_of_names hnames) rfl hargs
    (rfl : _ = some (Json.string "h"))
  rw [lookUp_of_not_has (Files.has_of_long hlong)] at hanswer
  have hread := hall s t ["h.dqm"] "h.dqm" "h" [1] (Client.request "h" [0] "ana") _ hnames (by decide) (by decide)
    (by rfl) (by decide) hentry rfl hargs rfl
  rw [hanswer] at hread
  cases (Prod.mk.inj hread).1

end HistogramMonitor.ReplyStore
