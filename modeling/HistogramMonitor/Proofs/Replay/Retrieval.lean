import HistogramMonitor.Proofs.Files.Writing
import HistogramMonitor.Proofs.Histogram.RoundTrip
import HistogramMonitor.Proofs.Json.Values
import HistogramMonitor.Proofs.Transport.Budgets
import HistogramMonitor.Replay.Store

/-!
# Retrieving what was recorded

A reply that was recorded is held by the store from then on (`ReplyStore.Holds`), whatever is recorded beside
it under names of other files, and a held reply is what the store answers with, as far as the budget of the
call goes. The arguments of a request survive being written and read, so what the store looks for is what the
client asked for.

With a snapshot in the reply, the whole way from one end to the other gives it back
(`recorded_is_retrieved`). The exception is a store without a path: it is written to where the program runs,
but counts as missing when it is asked.
-/

namespace HistogramMonitor

/-! ## Requests -/

/-- The arguments of a request are read as they were meant. -/
theorem Client.parse_histogramArgs (name : String) (runs : List UInt32) :
    Json.parse (histogramArgs name runs) =
      .ok (.object [("name", .string name), ("runs", runsJson runs)]) := by
  have hnumbers : ∀ j ∈ runs.map fun r : UInt32 => Json.ofNat r.toNat, Json.Plain 125 j := by
    intro j hj
    obtain ⟨r, -, rfl⟩ := List.mem_map.1 hj
    exact .number (Nat.lt_of_lt_of_le r.toNat_lt (by decide))
  refine Json.parse_text (.object fun m hm => ?_)
  simp only [List.mem_cons, List.not_mem_nil, or_false] at hm
  obtain rfl | rfl := hm
  · exact .string name
  · exact .array hnumbers

namespace ReplyStore

variable {s : ReplyStore} {t t' : Files} {name : String} {reply : Bytes}

/-! ## Names of files -/

theorem not_mem_swap {a b : Char} (hab : a ≠ b) (cs : List Char) : a ∉ swap a b cs := by
  rw [swap, List.mem_map]
  rintro ⟨c, -, hc⟩
  by_cases h : c = a
  · rw [if_pos h] at hc
    exact hab hc.symm
  · rw [if_neg h] at hc
    exact h hc

theorem isName_fileName (name : String) : Path.IsName (fileName name) := by
  have hfile : (fileName name).toList = swap '/' '%' name.toList ++ ending := String.toList_ofList
  have hlong : 4 ≤ (fileName name).toList.length := by
    rw [hfile, List.length_append]
    exact Nat.le_add_left 4 _
  have hother : ∀ short : String, short.toList.length < 4 → fileName name ≠ short := by
    rintro short hshort rfl
    exact Nat.not_lt_of_le hlong hshort
  refine ⟨?_, ?_, hother ".." (by decide)⟩
  · rw [hfile, List.mem_append, not_or]
    exact ⟨not_mem_swap (by decide) _, by decide⟩
  · have hempty := hother "" (by decide)
    have hdot := hother "." (by decide)
    simp [Path.idle, hempty, hdot]

/-! ## Recorded replies -/

/-- The directory is there, and the file of the histogram holds the reply. -/
structure Holds (s : ReplyStore) (t : Files) (name : String) (reply : Bytes) : Prop where
  directory : t.isDirectory s.directory
  file : t.read (s.path name) = .ok reply

theorem holds_of_record (hd : s.directory ≠ "") (h : s.record name reply t = .ok t') :
    s.Holds t' name reply where
  directory := Files.isDirectory_of_write (isName_fileName name) hd h
  file := Files.read_of_write h

/-- A row of recordings, one after the other. One that fails leaves the files as they are. -/
def recordAll (s : ReplyStore) (t : Files) (recordings : List (String × Bytes)) : Files :=
  recordings.foldl (fun t r => match s.record r.1 r.2 t with | .ok t' => t' | .error _ => t) t

/-- What is recorded under another name is stored beside it, unless it has the same file. -/
theorem Holds.record {other : String} {reply' : Bytes} (hd : s.directory ≠ "") (h : s.Holds t name reply)
    (hother : fileName other ≠ fileName name) (hrecord : s.record other reply' t = .ok t') :
    s.Holds t' name reply where
  directory := Files.isDirectory_of_write (isName_fileName other) hd hrecord
  file := Files.read_of_write_of_ne (isName_fileName name) (isName_fileName other) hother hrecord h.file

theorem Holds.recordAll {recordings : List (String × Bytes)} (hd : s.directory ≠ "")
    (h : s.Holds t name reply) (hothers : ∀ r ∈ recordings, fileName r.1 ≠ fileName name) :
    s.Holds (s.recordAll t recordings) name reply := by
  induction recordings generalizing t with
  | nil => exact h
  | cons r recordings ih =>
    have hrest := fun r' hr' => hothers r' (List.mem_cons_of_mem r hr')
    rw [ReplyStore.recordAll, List.foldl_cons]
    cases hrecord : s.record r.1 r.2 t with
    | error e => exact ih h hrest
    | ok t' => exact ih (h.record hd (hothers r List.mem_cons_self) hrecord) hrest

/-! ## Answers -/

/-- What comes of looking for the file of a histogram. -/
def lookUp (s : ReplyStore) (t : Files) (name : String) : Except RpcError Bytes :=
  if t.has (s.path name) then (t.read (s.path name)).mapError fun e => .io e.message
  else .error (.rejected s!"no histogram named {name}")

/-- Arguments that name a histogram have its file looked for. -/
theorem histogramReply_eq {args : String} {j : Json} (hargs : Json.parse args = .ok j)
    (hname : j.member? "name" = some (.string name)) : s.histogramReply t args = s.lookUp t name := by
  unfold histogramReply lookUp
  rw [hargs]
  dsimp only
  rw [hname]
  dsimp only
  split
  · cases t.read (s.path name) <;> rfl
  · rfl

/-- So a call with such arguments is answered with what is found, up to its budget. -/
theorem answer_histogram (hd : t.isDirectory s.directory) {c : Call} {j : Json}
    (hcommand : c.command = histogramCommand) (hargs : Json.parse c.args = .ok j)
    (hname : j.member? "name" = some (.string name)) : s.answer t c = (c.cut <$> s.lookUp t name, []) := by
  unfold answer
  rw [if_pos hd]
  dsimp only
  rw [if_pos hcommand, histogramReply_eq hargs hname]
  rfl

theorem lookUp_of_read (h : t.read (s.path name) = .ok reply) : s.lookUp t name = .ok reply := by
  rw [lookUp, if_pos (Files.has_of_find (Files.read_eq_ok_iff.1 h)), h]
  rfl

theorem lookUp_of_not_has (h : t.has (s.path name) = false) :
    s.lookUp t name = .error (.rejected s!"no histogram named {name}") := by
  rw [lookUp, h]
  exact if_neg Bool.false_ne_true

/-- A held reply is what a request for it is answered with, up to the budget. -/
theorem answer_of_holds {site : Site} (h : s.Holds site.files name reply) {c : Call} {runs : List UInt32}
    (hcommand : c.command = histogramCommand) (hargs : c.args = Client.histogramArgs name runs) :
    s.surroundings.answer site c = { reply := .bytes (c.cut reply), next := site } := by
  have hparse : Json.parse c.args = .ok _ := hargs ▸ Client.parse_histogramArgs name runs
  have hanswer : s.answer site.files c = (c.cut <$> s.lookUp site.files name, []) :=
    answer_histogram h.directory hcommand hparse rfl
  rw [lookUp_of_read h.file] at hanswer
  dsimp only [surroundings]
  rw [hanswer]
  rfl

/-- Without its directory a store cannot be reached. -/
theorem answer_of_missing {site : Site} (h : site.files.isDirectory s.directory = false) (c : Call) :
    s.surroundings.answer site c = { reply := .failure (.unreachable c.program), next := site } := by
  have hanswer : s.answer site.files c = (.error (.unreachable c.program), []) := by
    unfold answer
    rw [h]
    exact if_neg Bool.false_ne_true
  dsimp only [surroundings]
  rw [hanswer]

/-- A store without a path counts as missing. -/
theorem isDirectory_empty (t : Files) : t.isDirectory "" = false := by
  have hlocate : ∀ p, t.locate "" ≠ .ok p := by
    intro p hp
    obtain ⟨⟨-, hne, -⟩, -⟩ := Files.locateParts_eq_ok_iff.1 hp
    exact hne rfl
  rw [← Bool.not_eq_true, Files.isDirectory_iff, Files.find_eq_ok_iff]
  rintro ⟨p, hp, -⟩
  exact hlocate p hp

end ReplyStore

/-! ## The whole way -/

namespace Client

open HistogramMonitor.Action

/-- A request to a store without a path fails, whatever was recorded. -/
theorem retrieve_of_no_path {s : ReplyStore} (hs : s.directory = "") (name : String) (runs : List UInt32)
    (program : String) (site : Site) :
    (retrieve s.surroundings name runs program site).value = some (.error (.rpc (.unreachable program))) ∧
      calls (retrieve s.surroundings name runs program site).events = [request name runs program] := by
  have hanswer := s.answer_of_missing (hs ▸ ReplyStore.isDirectory_empty site.files)
    (request name runs program)
  have hexchange := retrieve_exchanges s.surroundings name runs program site
  rw [hanswer] at hexchange
  exact ⟨hexchange.2, hexchange.1⟩

/-- The message with a snapshot in it, header included. -/
def message (h : Snapshot) : Bytes := Envelope.wrap Envelope.histogramType h.encode

theorem histogramIn_encode {h : Snapshot} (hlt : (message h).length < 0x100000000) :
    histogramIn h.encode = .ok h.rounded := by
  have haddressable : h.encode.length < addressable := by
    rw [message, Envelope.length_wrap] at hlt
    exact Nat.lt_of_le_of_lt (Nat.le_add_left _ _) (Nat.lt_trans hlt (by decide))
  rw [histogramIn, h.decode_encode haddressable]

/-- A snapshot that a store holds is retrieved. -/
theorem retrieve_of_holds {s : ReplyStore} {h : Snapshot} {name : String} {site : Site}
    (hholds : s.Holds site.files name (message h)) (hlt : (message h).length < 0x100000000)
    (runs : List UInt32) (program : String) :
    (retrieve s.surroundings name runs program site).value = some (.ok h.rounded) ∧
      calls (retrieve s.surroundings name runs program site).events =
        callsFor (request name runs program) histogramBudget (message h).length := by
  have hfirst : s.surroundings.answer site (request name runs program) =
      { reply := .bytes ((message h).take histogramBudget), next := site } :=
    ReplyStore.answer_of_holds hholds rfl rfl
  have hagain : s.surroundings.answer site
      { request name runs program with hint := some (message h).length } =
        { reply := .bytes ((message h).take (message h).length), next := site } :=
    ReplyStore.answer_of_holds hholds rfl rfl
  rw [List.take_length] at hagain
  have hexchange := (retrieve_exchanges s.surroundings name runs program).of_message hlt
    (by decide : Envelope.size ≤ histogramBudget) (congrArg Answer.reply hfirst)
    (by rw [hfirst]; exact congrArg Answer.reply hagain)
  rw [verdict_wrap, histogramIn_encode hlt] at hexchange
  exact hexchange.symm

/-- **What was recorded is retrieved.** Let a store record a message with a snapshot under a name, and
whatever else under names that have other files. Then a retrieval of that name over the store, for whatever
runs and program, comes to the snapshot, with its edges rounded if its bins are singles. It takes one call if
the message is within the first budget, and two if not. A store without a path cannot be reached, although it
records. -/
theorem recorded_is_retrieved (s : ReplyStore) (h : Snapshot) (name : String) (t t' : Files)
    (hrecord : s.record name (message h) t = .ok t') (hlt : (message h).length < 0x100000000)
    (others : List (String × Bytes))
    (hothers : ∀ r ∈ others, ReplyStore.fileName r.1 ≠ ReplyStore.fileName name)
    (site : Site) (hsite : site.files = s.recordAll t' others) (runs : List UInt32) (program : String) :
    (s.directory ≠ "" →
      (retrieve s.surroundings name runs program site).value = some (.ok h.rounded) ∧
      (h.kind.element ≠ .single → h.rounded = h) ∧
      calls (retrieve s.surroundings name runs program site).events =
        if (message h).length ≤ 1048576 then [request name runs program]
        else [request name runs program,
          { request name runs program with hint := some (message h).length }]) ∧
    (s.directory = "" →
      (retrieve s.surroundings name runs program site).value =
        some (.error (.rpc (.unreachable program)))) := by
  refine ⟨fun hd => ?_, fun hs => (retrieve_of_no_path hs name runs program site).1⟩
  have hholds : s.Holds site.files name (message h) :=
    hsite ▸ (ReplyStore.holds_of_record hd hrecord).recordAll hd hothers
  obtain ⟨hvalue, hcalls⟩ := retrieve_of_holds hholds hlt runs program
  exact ⟨hvalue, h.rounded_eq_self, hcalls⟩

/-- A directory with nothing in it. -/
def bareDirectory : Files := { entries := [(["d"], .directory)] }

/-- The directory with the series in it. -/
def withSeries : Files := bareDirectory.put ["d", "a%b.dqm"] (.file (message tenthSeries))

/-- The series is recorded, and something beside it; the series is retrieved, rounded. -/
theorem recorded_series_is_retrieved :
    ReplyStore.record ⟨"d"⟩ "a/b" (message tenthSeries) bareDirectory = .ok withSeries ∧
      (retrieve (ReplyStore.surroundings ⟨"d"⟩) "a/b" [7] "ana"
        { files := ReplyStore.recordAll ⟨"d"⟩ withSeries [("c", [])] }).value =
          some (.ok tenthSeries.rounded) := by
  have hrecord : ReplyStore.record ⟨"d"⟩ "a/b" (message tenthSeries) bareDirectory = .ok withSeries := by
    rfl
  have hlt : (message tenthSeries).length < 0x100000000 := by decide
  have hothers : ∀ r ∈ [("c", ([] : Bytes))], ReplyStore.fileName r.1 ≠ ReplyStore.fileName "a/b" := by
    decide
  have hway := recorded_is_retrieved ⟨"d"⟩ tenthSeries "a/b" bareDirectory withSeries hrecord hlt _ hothers
    { files := ReplyStore.recordAll ⟨"d"⟩ withSeries [("c", [])] } rfl [7] "ana"
  exact ⟨hrecord, (hway.1 (by decide)).1⟩

/-- A series whose edges are singles. -/
def ramp : Snapshot where
  kind := .series32
  axes := [⟨4, ⟨0⟩, ⟨0x4049000000000000⟩⟩]
  entries := 1000
  content := .singles (List.map Single.mk [0, 0x3F800000, 0x40000000, 0x40400000, 0x40800000, 0x40A00000])
  axes_length := rfl
  element_eq := rfl
  totalBins_eq := rfl

/-- A store without a path records the series, and cannot be asked for it. -/
theorem recorded_ramp_is_not_retrieved :
    let s : ReplyStore := ⟨""⟩
    ∃ t, s.record "h" (message ramp) {} = .ok t ∧ (message ramp).length < 0x100000000 ∧
      (retrieve s.surroundings "h" [0] "ana" { files := t }).value ≠ some (.ok ramp.rounded) := by
  refine ⟨_, rfl, by decide, ?_⟩
  rw [(retrieve_of_no_path rfl "h" [0] "ana" _).1]
  exact nofun

end Client

end HistogramMonitor
