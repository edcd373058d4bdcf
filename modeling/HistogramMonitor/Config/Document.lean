import HistogramMonitor.Config.Values
import HistogramMonitor.Yaml.Decoder
import HistogramMonitor.Yaml.Document
import HistogramMonitor.Yaml.Writer

/-!
# Configurations as documents

A configuration is a record, and so are its plots and their series. `Config.read (Config.write c)` is `c`
again: what is left out on writing is exactly what is absent, so a series without runs and a series with
an empty list of runs stay apart.
-/

namespace HistogramMonitor

open Yaml (Decoder Outline)

/-! ## Reading configurations -/

/-- The number of a run. -/
def runOfNode : Decoder UInt32 := fun n => UInt32.ofNat <$> Decoder.natural (0x100000000) n

/-- A series. -/
def SeriesSource.ofNode : Decoder SeriesSource := fun n => do
  let ms ← Decoder.members n
  let name ← Decoder.required ms "name" Decoder.text
  let runs ← Decoder.orElse ms "runs" none (Decoder.optional (Decoder.list runOfNode))
  let program ← Decoder.orElse ms "program" none (Decoder.optional Decoder.text)
  return ⟨name, runs, program⟩

/-- A plot. -/
def PlotConfig.ofNode : Decoder PlotConfig := fun n => do
  let ms ← Decoder.members n
  let title ← Decoder.required ms "title" Decoder.text
  let series ← Decoder.orElse ms "series" [] (Decoder.list SeriesSource.ofNode)
  return ⟨title, series⟩

namespace Config

/-- A configuration. -/
def ofNode : Decoder Config := fun n => do
  let ms ← Decoder.members n
  let program ← Decoder.required ms "program" Decoder.text
  let runs ← Decoder.required ms "run_numbers" (Decoder.list runOfNode)
  let interval ← Decoder.required ms "update_interval_ms" (Decoder.natural (0x10000000000000000))
  let replies ← Decoder.required ms "replay_path" Decoder.text
  let plots ← Decoder.required ms "plots" (Decoder.list PlotConfig.ofNode)
  return ⟨program, runs, UInt64.ofNat interval, replies, plots⟩

/-- The configuration in a text. -/
def read (text : String) : Except String Config :=
  match Yaml.parse text with
  | .ok d => d.decode ofNode
  | .error f => .error f.message

end Config

/-! ## Writing -/

/-- A list of runs. -/
def runsOutline (runs : List UInt32) : Outline := .list (runs.map fun r => .number r.toNat)

/-- A series, without what is absent. -/
def SeriesSource.outline (s : SeriesSource) : Outline :=
  .record <| [("name", .text s.name)]
    ++ (s.runs.map fun runs => ("runs", runsOutline runs)).toList
    ++ (s.program.map fun program => ("program", Outline.text program)).toList

/-- A plot. -/
def PlotConfig.outline (p : PlotConfig) : Outline :=
  .record [("title", .text p.title), ("series", .list (p.series.map SeriesSource.outline))]

namespace Config

/-- A configuration. -/
def outline (c : Config) : Outline :=
  .record
    [("program", .text c.program),
     ("run_numbers", runsOutline c.runs),
     ("update_interval_ms", .number c.interval.toNat),
     ("replay_path", .text c.replies),
     ("plots", .list (c.plots.map PlotConfig.outline))]

/-- The text of a configuration. -/
def write (c : Config) : String := c.outline.render

end Config

end HistogramMonitor
