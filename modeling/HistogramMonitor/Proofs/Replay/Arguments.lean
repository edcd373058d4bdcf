import HistogramMonitor.Proofs.Replay.Retrieval

/-!
# What a store understands of a request

The client writes the arguments of a call, and the store reads them. They are two programs that agree on nothing but
the format, and yet what the store looks for is what the client was asked for: whatever characters are in the name,
they are read as they were written, and so is every run (`arguments_understood`). So a request fails for want of the
file, or because the file cannot be read, but never because it was not understood.
-/

namespace HistogramMonitor

variable {σ : Type}

namespace Client

/-- The calls of a retrieval have the arguments of its request. -/
theorem args_of_mem_calls {w : Surroundings σ} {name : String} {runs : List UInt32} {program : String} {m : σ}
    {c : Call} (hc : c ∈ calls (retrieve w name runs program m).events) :
    c.program = program ∧ c.command = histogramCommand ∧ c.args = histogramArgs name runs := by
  obtain hcalls | ⟨declared, hcalls⟩ := calls_retrieve w name runs program m
  · rw [hcalls, List.mem_singleton] at hc
    exact hc ▸ ⟨rfl, rfl, rfl⟩
  · rw [hcalls, List.mem_cons, List.mem_singleton] at hc
    obtain rfl | rfl := hc <;> exact ⟨rfl, rfl, rfl⟩

/-- A retrieval begins with its request. -/
theorem request_mem_calls (w : Surroundings σ) (name : String) (runs : List UInt32) (program : String) (m : σ) :
    request name runs program ∈ calls (retrieve w name runs program m).events := by
  obtain hcalls | ⟨declared, hcalls⟩ := calls_retrieve w name runs program m <;>
  · rw [hcalls]
    exact List.mem_cons_self

end Client

namespace ReplyStore

/-- A file that is not there, and one that cannot be read, are all that can be wrong with a name. -/
theorem of_lookUp_eq_error {s : ReplyStore} {t : Files} {name : String} {e : RpcError}
    (h : s.lookUp t name = .error e) :
    t.has (s.path name) = false ∧ e = .rejected s!"no histogram named {name}" ∨
      ∃ f, t.read (s.path name) = .error f ∧ e = .io f.message := by
  cases hhas : t.has (s.path name) with
  | false =>
    rw [lookUp_of_not_has hhas] at h
    exact .inl ⟨rfl, (Except.error.inj h).symm⟩
  | true =>
    rw [lookUp, if_pos hhas] at h
    cases hread : t.read (s.path name) with
    | error f =>
      rw [hread] at h
      exact .inr ⟨f, rfl, (Except.error.inj h).symm⟩
    | ok b =>
      rw [hread] at h
      cases h

end ReplyStore

namespace Client

/-- **The arguments of a request are understood**, whatever the name and the runs. Every call that a retrieval makes
has arguments that are read as an object with two members: the name, exactly as it was given, and the runs, exactly as
they were given. So a store looks for the file of that name and answers with what it finds. The errors that it answers
with are that there is no such file, in so many words, and that the file cannot be read; that the arguments could not be
read, or did not name a histogram, is none of them. -/
theorem arguments_understood (w : Surroundings σ) (name : String) (runs : List UInt32) (program : String) (m : σ) :
    ∀ c ∈ calls (retrieve w name runs program m).events,
      c.program = program ∧ c.command = "dqm::histogram" ∧
      (∃ j, Json.parse c.args = .ok j ∧
        j = .object [("name", .string name), ("runs", .array (runs.map fun r => .number r.toNat 0))] ∧
        j.member? "name" = some (.string name)) ∧
      ∀ (s : ReplyStore) (t : Files), s.histogramReply t c.args = s.lookUp t name ∧
        ∀ e, s.histogramReply t c.args = .error e →
          t.has (s.path name) = false ∧ e = .rejected s!"no histogram named {name}" ∨
            ∃ f, t.read (s.path name) = .error f ∧ e = .io f.message := by
  intro c hc
  obtain ⟨hprogram, hcommand, hargs⟩ := args_of_mem_calls hc
  have hparse : Json.parse c.args = .ok (.object [("name", .string name), ("runs", runsJson runs)]) :=
    hargs ▸ parse_histogramArgs name runs
  have hlookUp : ∀ (s : ReplyStore) (t : Files), s.histogramReply t c.args = s.lookUp t name :=
    fun s t => ReplyStore.histogramReply_eq hparse rfl
  refine ⟨hprogram, hcommand, ⟨_, hparse, rfl, rfl⟩, fun s t => ⟨hlookUp s t, fun e he => ?_⟩⟩
  exact ReplyStore.of_lookUp_eq_error (hlookUp s t ▸ he)

/-- A name with characters that have to be escaped, and some that look as if they had. -/
def thorny : String := "a/\"b\\\n\x01\x7fé😀"

/-- It is asked for, and understood. -/
theorem thorny_understood :
    request thorny [0, 0xFFFFFFFF] "ana" ∈ calls (retrieve stammer thorny [0, 0xFFFFFFFF] "ana" 0).events ∧
    ∃ j, Json.parse (request thorny [0, 0xFFFFFFFF] "ana").args = .ok j ∧
      j = .object [("name", .string thorny), ("runs", .array [.number 0 0, .number 4294967295 0])] := by
  have hmem := request_mem_calls stammer thorny [0, 0xFFFFFFFF] "ana" 0
  obtain ⟨-, -, ⟨j, hparse, hj, -⟩, -⟩ := arguments_understood stammer thorny [0, 0xFFFFFFFF] "ana" 0 _ hmem
  exact ⟨hmem, j, hparse, hj⟩

end Client

end HistogramMonitor
