import HistogramMonitor.Proofs.Replay.Retrieval

/-!
# What a store has recorded

A store that was empty at first is asked for one histogram after all recordings have been made. It looks for the
file of the histogram, and so it answers with the last reply that was recorded under a name with that file
(`Mirrors`, kept by every recording).

Two names have the same file if they differ in nothing but slashes where the other has percent signs. So a store
is a map from names as long as no two of them meet in a file, as is the case without percent signs
(`answer_of_recordings`); and it is none where they do, for the second recording takes the place of the first
(`recording_lost`).
-/

namespace HistogramMonitor.ReplyStore

variable {s : ReplyStore} {t t' : Files} {recordings : List (String × Bytes)} {name : String}

/-! ## Names with the same file -/

theorem fileName_eq_iff {a b : String} :
    fileName a = fileName b ↔ swap '/' '%' a.toList = swap '/' '%' b.toList := by
  rw [fileName, fileName, String.ofList_inj, List.append_left_inj]

/-- A character can be put back where there was none of those that took its place. -/
theorem swap_swap {a b : Char} {cs : List Char} (h : b ∉ cs) : swap b a (swap a b cs) = cs := by
  induction cs with
  | nil => rfl
  | cons c cs ih =>
    rw [List.mem_cons, not_or] at h
    simp only [swap, List.map_cons] at ih ⊢
    rw [ih h.2]
    by_cases hc : c = a
    · simp [hc]
    · simp [hc, Ne.symm h.1]

theorem fileName_inj {a b : String} (ha : '%' ∉ a.toList) (hb : '%' ∉ b.toList)
    (h : fileName a = fileName b) : a = b := by
  have hswap := congrArg (swap '%' '/') (fileName_eq_iff.1 h)
  rw [swap_swap ha, swap_swap hb] at hswap
  exact String.toList_injective hswap

/-! ## The last reply -/

/-- The reply that was recorded last under one of these names. -/
def lastReply (among : String → Bool) (recordings : List (String × Bytes)) : Option Bytes :=
  (recordings.filter fun r => among r.1).getLast?.map Prod.snd

theorem lastReply_concat (among : String → Bool) (recordings : List (String × Bytes)) (r : String × Bytes) :
    lastReply among (recordings ++ [r]) = if among r.1 then some r.2 else lastReply among recordings := by
  rw [lastReply, List.filter_append]
  cases hr : among r.1 with
  | false => simp [lastReply, hr]
  | true => simp [hr]

theorem lastReply_congr {p q : String → Bool} (h : ∀ r ∈ recordings, p r.1 = q r.1) :
    lastReply p recordings = lastReply q recordings := by
  rw [lastReply, lastReply, List.filter_congr h]

/-! ## Recording -/

/-- The directory is there, and for each name it holds the last reply that was recorded under a name with the
same file. -/
structure Mirrors (s : ReplyStore) (t : Files) (recordings : List (String × Bytes)) : Prop where
  reachable : s.directory ≠ ""
  directory : t.isDirectory s.directory
  has : ∀ name, t.has (s.path name) = (lastReply (fileName · = fileName name) recordings).isSome
  read : ∀ name reply, lastReply (fileName · = fileName name) recordings = some reply →
    t.read (s.path name) = .ok reply

theorem mirrors_empty (hempty : t.names s.directory = .ok []) : s.Mirrors t [] where
  reachable := Files.directory_ne_empty hempty
  directory := Files.isDirectory_of_names hempty
  has name := Files.has_of_empty (isName_fileName name) hempty
  read _ _ h := by cases h

theorem Mirrors.record (h : s.Mirrors t recordings) {r : String × Bytes}
    (hrecord : s.record r.1 r.2 t = .ok t') : s.Mirrors t' (recordings ++ [r]) where
  reachable := h.reachable
  directory := Files.isDirectory_of_write (isName_fileName r.1) h.reachable hrecord
  has name := by
    rw [lastReply_concat]
    by_cases hfile : fileName r.1 = fileName name
    · have hread : t'.read (s.path name) = .ok r.2 := by
        rw [path, ← hfile]
        exact Files.read_of_write hrecord
      simp [hfile, Files.has_of_find (Files.read_eq_ok_iff.1 hread)]
    · have hsame : t'.has (s.path name) = t.has (s.path name) := by
        rw [Bool.eq_iff_iff, Files.has_iff, Files.has_iff]
        exact exists_congr fun e => Files.find_write_of_ne (isName_fileName name) (isName_fileName r.1) hfile hrecord
      simp [hfile, hsame, h.has]
  read name reply hlast := by
    rw [lastReply_concat] at hlast
    by_cases hfile : fileName r.1 = fileName name
    · obtain rfl : r.2 = reply := by simpa [hfile] using hlast
      rw [path, ← hfile]
      exact Files.read_of_write hrecord
    · refine Files.read_of_write_of_ne (isName_fileName name) (isName_fileName r.1) hfile hrecord ?_
      exact h.read name reply (by simpa [hfile] using hlast)

/-- A row of recordings, each of which succeeds. -/
theorem Mirrors.foldlM {more : List (String × Bytes)} (h : s.Mirrors t recordings)
    (hrecord : more.foldlM (fun t r => s.record r.1 r.2 t) t = .ok t') :
    s.Mirrors t' (recordings ++ more) := by
  induction more generalizing t recordings with
  | nil =>
    cases hrecord
    rw [List.append_nil]
    exact h
  | cons r more ih =>
    obtain ⟨t₁, hfirst, hmore⟩ := Files.bind_eq_ok_iff.1 hrecord
    rw [List.append_cons]
    exact ih (h.record hfirst) hmore

/-! ## Answers -/

/-- What a call for a histogram comes to where this is the reply to it. -/
def served (c : Call) (name : String) : Option Bytes → Except RpcError Bytes × List LogLine
  | some reply => (.ok (c.cut reply), [])
  | none => (.error (.rejected s!"no histogram named {name}"), [])

theorem Mirrors.answer (h : s.Mirrors t recordings) {c : Call} {j : Json}
    (hcommand : c.command = histogramCommand) (hargs : Json.parse c.args = .ok j)
    (hname : j.member? "name" = some (.string name)) :
    s.answer t c = served c name (lastReply (fileName · = fileName name) recordings) := by
  rw [answer_histogram h.directory hcommand hargs hname]
  cases hlast : lastReply (fileName · = fileName name) recordings with
  | none =>
    rw [lookUp_of_not_has (by rw [h.has, hlast]; rfl)]
    rfl
  | some reply =>
    rw [lookUp_of_read (h.read name reply hlast)]
    rfl

/-- **What a store answers** after a row of recordings, all of which succeeded, into a directory that was empty.

* A call for a histogram gets the last reply that was recorded under a name with the same file, up to its
  budget, and an error if there is none.
* So where all names that were recorded with this file are the name itself, it gets the last reply that was
  recorded under exactly this name.
* That is so if there are no percent signs in the names: two names have the same file exactly if they are the
  same with percent signs for slashes. -/
theorem answer_of_recordings (hempty : t.names s.directory = .ok [])
    (hrecord : recordings.foldlM (fun t r => s.record r.1 r.2 t) t = .ok t') {c : Call} {j : Json}
    (hcommand : c.command = histogramCommand) (hargs : Json.parse c.args = .ok j)
    (hname : j.member? "name" = some (.string name)) :
    s.answer t' c = served c name (lastReply (fileName · = fileName name) recordings) ∧
      ((∀ r ∈ recordings, fileName r.1 = fileName name → r.1 = name) →
        s.answer t' c = served c name (lastReply (· = name) recordings)) ∧
      ('%' ∉ name.toList → (∀ r ∈ recordings, '%' ∉ r.1.toList) →
        s.answer t' c = served c name (lastReply (· = name) recordings)) ∧
      ∀ a b, fileName a = fileName b ↔ swap '/' '%' a.toList = swap '/' '%' b.toList := by
  have hanswer := ((mirrors_empty hempty).foldlM hrecord).answer hcommand hargs hname
  have hexact : (∀ r ∈ recordings, fileName r.1 = fileName name → r.1 = name) →
      s.answer t' c = served c name (lastReply (· = name) recordings) := by
    intro hapart
    rw [hanswer]
    refine congrArg (served c name) (lastReply_congr fun r hr => decide_eq_decide.2 ⟨hapart r hr, ?_⟩)
    exact congrArg fileName
  refine ⟨hanswer, hexact, fun hplain hplains => hexact fun r hr hfile => ?_, fun a b => fileName_eq_iff⟩
  exact fileName_inj (hplains r hr) hplain hfile

/-- A histogram that was recorded twice, and another one between. -/
def revised : List (String × Bytes) := [("h", [1]), ("a/b", [2]), ("h", [3])]

/-- A call for it gets the last reply. -/
theorem answer_of_revised :
    ∃ t', revised.foldlM (fun t r => record ⟨"d"⟩ r.1 r.2 t) Client.bareDirectory = .ok t' ∧
      answer ⟨"d"⟩ t' (Client.request "h" [0] "ana") = (.ok [3], []) := by
  obtain ⟨t', hrecord⟩ : ∃ t', revised.foldlM (fun t r => record ⟨"d"⟩ r.1 r.2 t) Client.bareDirectory = .ok t' :=
    ⟨_, rfl⟩
  have hanswer := answer_of_recordings rfl hrecord (c := Client.request "h" [0] "ana") rfl
    (Client.parse_histogramArgs "h" [0]) rfl
  exact ⟨t', hrecord, hanswer.2.1 (by decide)⟩

/-- Not every call gets what was recorded under exactly its name: another name with the same file has been
recorded since. -/
theorem recording_lost : ¬ ∀ (s : ReplyStore) (t t' : Files) (recordings : List (String × Bytes)) (c : Call)
    (j : Json) (name : String), t.names s.directory = .ok [] →
    recordings.foldlM (fun t r => s.record r.1 r.2 t) t = .ok t' → c.command = histogramCommand →
    Json.parse c.args = .ok j → j.member? "name" = some (.string name) →
    s.answer t' c = served c name (lastReply (· = name) recordings) := by
  intro hall
  have hrecord : [("a/b", [1]), ("a%b", [2])].foldlM (fun t r => record ⟨"d"⟩ r.1 r.2 t)
      Client.bareDirectory = .ok (Client.bareDirectory.put ["d", "a%b.dqm"] (.file [2])) := rfl
  have hexact := hall ⟨"d"⟩ Client.bareDirectory _ _ (Client.request "a/b" [0] "ana") _ "a/b" rfl hrecord rfl
    (Client.parse_histogramArgs "a/b" [0]) rfl
  have hanswer := ((mirrors_empty (s := ⟨"d"⟩) (t := Client.bareDirectory) rfl).foldlM hrecord).answer
    (c := Client.request "a/b" [0] "ana") rfl (Client.parse_histogramArgs "a/b" [0]) rfl
  rw [hanswer] at hexact
  exact absurd hexact (by decide)

end HistogramMonitor.ReplyStore
