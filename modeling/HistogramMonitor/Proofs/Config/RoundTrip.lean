import HistogramMonitor.Config.Store
import HistogramMonitor.Proofs.Files.Writing
import HistogramMonitor.Proofs.Text.Utf8
import HistogramMonitor.Proofs.Yaml.Decoding

/-!
# Saving and loading configurations

A configuration that was saved is loaded again as it was. The members that are left out on writing are the ones that
may be absent on reading, so whether a series has no runs of its own or an empty list of them is kept apart.
-/

namespace HistogramMonitor

open Yaml Yaml.Decoder Yaml.Outline

/-! ## Outlines -/

theorem writable_runs (runs : List UInt32) : Writable (runsOutline runs) := by
  refine .list fun o ho => ?_
  obtain ⟨r, -, rfl⟩ := List.mem_map.1 ho
  exact .number r.toNat

theorem writable_record {members : List (String × Outline)} (h : ∀ m ∈ members, isKey m.1 = true ∧ Writable m.2) :
    Writable (.record members) := .record (fun m hm => (h m hm).1) fun m hm => (h m hm).2

theorem SeriesSource.writable (s : SeriesSource) : Writable s.outline := by
  have hname : isKey "name" = true := by decide
  have hruns : isKey "runs" = true := by decide
  have hprogram : isKey "program" = true := by decide
  refine writable_record ?_
  rw [List.forall_mem_append, List.forall_mem_append, List.forall_mem_singleton]
  refine ⟨⟨⟨hname, .text _⟩, fun m hm => ?_⟩, fun m hm => ?_⟩
  · obtain ⟨runs, -, rfl⟩ := Option.map_eq_some_iff.1 (Option.mem_toList.1 hm)
    exact ⟨hruns, writable_runs runs⟩
  · obtain ⟨program, -, rfl⟩ := Option.map_eq_some_iff.1 (Option.mem_toList.1 hm)
    exact ⟨hprogram, .text program⟩

theorem PlotConfig.writable (p : PlotConfig) : Writable p.outline := by
  have hseries : Writable (.list (p.series.map SeriesSource.outline)) := .list fun o ho => by
    obtain ⟨s, -, rfl⟩ := List.mem_map.1 ho
    exact s.writable
  refine writable_record ?_
  simp only [List.forall_mem_cons]
  exact ⟨⟨rfl, .text _⟩, ⟨rfl, hseries⟩, fun m hm => absurd hm List.not_mem_nil⟩

theorem Config.writable (c : Config) : Writable c.outline := by
  have hplots : Writable (.list (c.plots.map PlotConfig.outline)) := .list fun o ho => by
    obtain ⟨p, -, rfl⟩ := List.mem_map.1 ho
    exact p.writable
  refine writable_record ?_
  simp only [List.forall_mem_cons]
  exact ⟨⟨rfl, .text _⟩, ⟨rfl, writable_runs _⟩, ⟨rfl, .number _⟩, ⟨rfl, .text _⟩, ⟨rfl, hplots⟩,
    fun m hm => absurd hm List.not_mem_nil⟩

/-! ## Nodes -/

/-- The records of a list are read back if each of them is. -/
theorem decodes_records {α : Type} {decode : Yaml.Decoder α} {outline : α → Outline}
    (h : ∀ a, Decodes (decode (outline a).node) a) (as : List α) :
    Decodes (Decoder.list decode (Outline.list (as.map outline)).node) as := by
  have heach := decodes_each (f := Outline.node ∘ outline) (g := id) fun a (_ : a ∈ as) => h a
  rw [List.map_id] at heach
  rw [Outline.node, itemNodes_eq_map, List.map_map]
  exact decodes_list heach

theorem decodes_runs (runs : List UInt32) : Decodes (Decoder.list runOfNode (runsOutline runs).node) runs := by
  refine decodes_records (fun r => ?_) runs
  have hnumber := (decodes_natural r.toNat_lt).map UInt32.ofNat
  rw [UInt32.ofNat_toNat] at hnumber
  rw [Outline.node]
  exact hnumber

theorem SeriesSource.decodes (s : SeriesSource) : Decodes (SeriesSource.ofNode s.outline.node) s := by
  obtain ⟨name, runs, program⟩ := s
  refine (decodes_members _).bind ?_
  refine (decodes_required (n := (Outline.text name).node) ?_ (decodes_text _ _ _)).bind ?_
  · cases runs <;> cases program <;> rfl
  refine Decodes.bind (a := runs) ?_ (Decodes.bind (a := program) ?_ (decodes_pure _))
  -- a member that was left out is absent, and an empty list of runs is a list
  · cases runs with
    | none => exact decodes_orElse_absent (by cases program <;> rfl) _ none
    | some runs =>
      have hruns := decodes_runs runs
      rw [runsOutline, Outline.node] at hruns
      refine decodes_orElse (n := (runsOutline runs).node) (by cases program <;> rfl) ?_
      rw [runsOutline, Outline.node]
      exact decodes_optional_sequence hruns
  · cases program with
    | none => exact decodes_orElse_absent (by cases runs <;> rfl) _ none
    | some program =>
      refine decodes_orElse (n := (Outline.text program).node) (by cases runs <;> rfl) ?_
      exact decodes_optional_text program

theorem PlotConfig.decodes (p : PlotConfig) : Decodes (PlotConfig.ofNode p.outline.node) p := by
  refine (decodes_members _).bind ?_
  refine (decodes_required rfl (decodes_text _ p.title _)).bind ?_
  exact (decodes_orElse rfl (decodes_records SeriesSource.decodes p.series)).bind (decodes_pure _)

namespace Config

theorem decodes (c : Config) : Decodes (Config.ofNode c.outline.node) c := by
  have hinterval := decodes_natural c.interval.toNat_lt
  refine (decodes_members _).bind ?_
  refine (decodes_required rfl (decodes_text _ c.program _)).bind ?_
  refine (decodes_required rfl (decodes_runs c.runs)).bind ?_
  refine (decodes_required rfl hinterval).bind ?_
  refine (decodes_required rfl (decodes_text _ c.replies _)).bind ?_
  refine (decodes_required rfl (decodes_records PlotConfig.decodes c.plots)).bind ?_
  rw [UInt64.ofNat_toNat]
  exact decodes_pure c

/-- The text of a configuration is read as the configuration. -/
theorem read_write (c : Config) : read c.write = .ok c := by
  have hparse : parse c.write = .ok { root := c.outline.node } := parse_render (List.cons_ne_nil _ _) c.writable
  have hdecode := c.decodes { root := c.outline.node } (Document.patience { root := c.outline.node })
  rw [read, hparse]
  dsimp only
  have hrun : (ofNode c.outline.node { root := c.outline.node }).run
      (Document.patience { root := c.outline.node }) = .ok (c, _) := hdecode
  rw [Document.decode, hrun]
  rfl

/-- A file that holds the text of a configuration is loaded as the configuration. -/
theorem load_of_read {c : Config} {t : Files} {path : String} (h : t.read path = .ok (Utf8.ofString c.write)) :
    load t path = .ok c := by
  have hhas : t.has path = true := Files.has_of_find (Files.read_eq_ok_iff.1 h)
  have htext : t.readText path = .ok c.write := by
    unfold Files.readText
    rw [h]
    dsimp only [bind, Except.bind]
    rw [Utf8.decode_ofString]
    dsimp only
    rw [String.ofList_toList]
    rfl
  rw [load, if_pos hhas, htext]
  dsimp only
  rw [read_write]

/-- **A configuration that is saved is loaded again as it was**, wherever a file can be written. -/
theorem load_of_save (c : Config) {t t₀ : Files} {path : String} {content : Bytes}
    (hwritable : t.write path content = .ok t₀) : ∃ t', c.save t path = .ok t' ∧ load t' path = .ok c := by
  obtain ⟨hopen, p, hlocate, hfree, -⟩ := Files.write_eq_ok_iff.1 hwritable
  have hwrite : t.write path (Utf8.ofString c.write) = .ok (t.put p (.file (Utf8.ofString c.write))) :=
    Files.write_eq_ok_iff.2 ⟨hopen, p, hlocate, hfree, rfl⟩
  refine ⟨_, ?_, load_of_read (Files.read_of_write hwrite)⟩
  rw [save, hwrite]

/-- A series without runs of its own beside one with an empty list of them, and a plot without series. -/
def sparse : Config :=
  { program := ""
    runs := []
    interval := 18446744073709551615
    replies := "./replies\n"
    plots :=
      [{ title := "null"
         series := [{ name := "- a: b" }, { name := "", runs := some [] }, { name := " ", program := some "~" }] },
       { title := "1e3", series := [] }] }

/-- Its file is made in an empty tree. -/
theorem load_of_save_sparse :
    ({} : Files).write "config.yaml" [] = .ok (({} : Files).put ["config.yaml"] (.file [])) ∧
    ∃ t', sparse.save {} "config.yaml" = .ok t' ∧ load t' "config.yaml" = .ok sparse :=
  have hwritable : ({} : Files).write "config.yaml" [] = .ok (({} : Files).put ["config.yaml"] (.file [])) := rfl
  ⟨hwritable, load_of_save sparse hwritable⟩

end Config

end HistogramMonitor
