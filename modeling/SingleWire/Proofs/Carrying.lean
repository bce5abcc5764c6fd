import SingleWire.Proofs.Wire

/-!
The bus that a master makes on a simulated line. A master at work on a line always finds it released,
whatever ran before; from a settled line on, each request does on the line what it does on the
untimed bus, and so does every program that begins with a reset.
-/

namespace SingleWire

variable {ε α β : Type} {line : SimulatedLine} {master : Master}

def Master.serve (master : Master) : Handler (Bus.interface ε) SimulatedLine :=
  Program.carried master.carry SimulatedLine.answer

namespace SimulatedLine

theorem serve_reset (master : Master) (line : SimulatedLine) :
    master.serve (ε := ε) .reset line = Task.eval answer master.reset line := rfl

theorem serve_writeBit (master : Master) (line : SimulatedLine) (bit : Bool) :
    master.serve (ε := ε) (.writeBit bit) line = Task.eval answer (master.writeBit bit) line := rfl

theorem serve_readBit (master : Master) (line : SimulatedLine) :
    master.serve (ε := ε) .readBit line = Task.eval answer master.readBit line := rfl

theorem serve_triplet (master : Master) (line : SimulatedLine) (direction : Bool) :
    master.serve (ε := ε) (.triplet direction) line =
      Task.eval answer (Bus.tripletBy master.readBit master.writeBit direction) line := rfl

theorem natures_serve (master : Master) (request : Bus.Request) (line : SimulatedLine) :
    (master.serve (ε := ε) request line).2.natures = line.natures :=
  Program.eval_keeps answer (fun after => after.natures = line.natures)
    (fun call before same => (natures_answer call before).trans same) (master.carry request) line rfl

theorem stuckLow_serve (master : Master) (request : Bus.Request) (line : SimulatedLine) :
    (master.serve (ε := ε) request line).2.stuckLow = line.stuckLow :=
  Program.eval_keeps answer (fun after => after.stuckLow = line.stuckLow)
    (fun call before same => (stuckLow_answer call before).trans same) (master.carry request) line rfl

theorem Timely.serve (timely : line.Timely) (master : Master) (request : Bus.Request) :
    (master.serve (ε := ε) request line).2.Timely :=
  Program.eval_keeps SimulatedLine.answer Timely (fun call _ before => before.answer call)
    (master.carry request) line timely

theorem exists_eval_writeBit (master : Master) (bit : Bool) (line : SimulatedLine) :
    ∃ (before : SimulatedLine) (time : Nat),
      Task.eval answer (master.writeBit bit : Task (Line.interface ε) ε Unit) line =
        (.ok (), before.letGo.wait time) := by
  cases bit <;> exact ⟨_, _, rfl⟩

theorem exists_eval_reset (master : Master) (line : SimulatedLine) :
    ∃ (present : Bool) (before : SimulatedLine) (time : Nat),
      Task.eval answer (master.reset : Task (Line.interface ε) ε Bool) line =
        (.ok present, before.letGo.wait time) := by
  obtain ⟨high, time, -, polled, -⟩ := eval_pollIdle (ε := ε) master.timing.idlePoll
    (max master.timing.idlePolls 1) line.letGo
  have idle : Task.eval answer (master.awaitIdle : Task (Line.interface ε) ε Bool) line =
      (.ok high, line.letGo.wait time) := by
    rw [Master.awaitIdle, Task.eval_bind, eval_release]
    exact polled
  rw [Master.reset, Task.eval_bind, idle]
  cases high with
  | false => exact ⟨false, line, time, rfl⟩
  | true =>
      simp only [if_true, Master.resetSlot, Task.eval_bind, eval_driveLow, eval_delay, eval_release,
        eval_sample, Task.eval_emit, Task.eval_pure, wait_wait]
      exact ⟨_, _, _, rfl⟩

theorem exists_letGo_serve (master : Master) {request : Bus.Request} (passive : request ≠ .power)
    (line : SimulatedLine) :
    ∃ (before : SimulatedLine) (time : Nat),
      (master.serve (ε := ε) request line).2 = before.letGo.wait time := by
  cases request with
  | reset =>
      obtain ⟨present, before, time, reset⟩ := exists_eval_reset (ε := ε) master line
      exact ⟨before, time, by rw [serve_reset, reset]⟩
  | writeBit bit =>
      obtain ⟨before, time, written⟩ := exists_eval_writeBit (ε := ε) master bit line
      exact ⟨before, time, by rw [serve_writeBit, written]⟩
  | readBit => exact ⟨line.pull, _, by rw [serve_readBit, eval_readBit, wait_wait]⟩
  | power => exact absurd rfl passive
  | depower => exact ⟨line, 0, rfl⟩
  | triplet direction =>
      rw [serve_triplet, Bus.tripletBy, Task.eval_bind, eval_readBit]
      dsimp only
      rw [Task.eval_bind, eval_readBit]
      dsimp only
      split
      · exact ⟨_, _, wait_wait _ _ _⟩
      · rw [Task.eval_bind]
        obtain ⟨before, time, written⟩ := exists_eval_writeBit (ε := ε) master _ _
        rw [written]
        exact ⟨before, time, rfl⟩

theorem fellAt_serve (master : Master) (request : Bus.Request) (line : SimulatedLine) :
    (master.serve (ε := ε) request line).2.fellAt = none := by
  by_cases asked : request = .power
  · rw [asked]
    exact fellAt_letGo line
  · obtain ⟨before, time, left⟩ := exists_letGo_serve (ε := ε) master asked line
    rw [left]
    exact fellAt_letGo before

theorem powered_serve (master : Master) (request : Bus.Request) (line : SimulatedLine) :
    (master.serve (ε := ε) request line).2.powered = decide (request = .power) := by
  by_cases asked : request = .power
  · rw [asked]
    rfl
  · obtain ⟨before, time, left⟩ := exists_letGo_serve (ε := ε) master asked line
    rw [left, decide_eq_false asked]
    exact powered_letGo before

theorem Timely.released_serve (timely : line.Timely) (master : Master) (request : Bus.Request) :
    (master.serve (ε := ε) request line).2.Released :=
  ⟨timely.serve master request, fellAt_serve master request line⟩

/-- Through every slot and every change of power the lines of a relation stay with their untimed
buses, and what is read is the same. -/
structure InStep (ε : Type) (master : Master) (related : SimulatedLine → Wire → Prop) : Prop where
  write : ∀ {line wire}, related line wire → ∀ bit,
    ∃ after, Task.eval answer (master.writeBit bit : Task (Line.interface ε) ε Unit) line =
      (.ok (), after) ∧ related after (wire.slot bit)
  read : ∀ {line wire}, related line wire →
    ∃ after, Task.eval answer (master.readBit : Task (Line.interface ε) ε Bool) line =
      (.ok wire.level, after) ∧ related after (wire.slot true)
  power : ∀ {line wire}, related line wire → related line.drive { wire with powered := true }
  depower : ∀ {line wire}, related line wire → related line.letGo { wire with powered := false }

namespace InStep

variable {related : SimulatedLine → Wire → Prop} {wire : Wire}

theorem triplet (step : InStep ε master related) (holds : related line wire) (direction : Bool) :
    ∃ after, Task.eval answer
        (Bus.tripletBy master.readBit master.writeBit direction : Task (Line.interface ε) ε Triplet)
        line = (.ok (wire.triplet direction).1, after) ∧
      related after (wire.triplet direction).2 := by
  obtain ⟨second, first_read, holds_second⟩ := step.read holds
  obtain ⟨third, second_read, holds_third⟩ := step.read holds_second
  simp only [Bus.tripletBy, Task.eval_bind, first_read, second_read, Wire.triplet]
  split
  · exact ⟨third, rfl, holds_third⟩
  · obtain ⟨last, written, holds_last⟩ := step.write holds_third
      (if wire.level != (wire.slot true).level then wire.level else direction)
    refine ⟨last, ?_, holds_last⟩
    rw [Task.eval_bind, written]
    rfl

theorem serve (step : InStep ε master related) (holds : related line wire)
    (request : Bus.Request) (no_reset : request ≠ .reset) :
    (master.serve (ε := ε) request line).1 = (Wire.answer request wire).1 ∧
      related (master.serve (ε := ε) request line).2 (Wire.answer (ε := ε) request wire).2 := by
  cases request with
  | reset => exact absurd rfl no_reset
  | writeBit bit =>
      obtain ⟨after, run, holds_after⟩ := step.write holds bit
      rw [serve_writeBit, run]
      exact ⟨rfl, holds_after⟩
  | readBit =>
      obtain ⟨after, run, holds_after⟩ := step.read holds
      rw [serve_readBit, run]
      exact ⟨rfl, holds_after⟩
  | triplet direction =>
      obtain ⟨after, run, holds_after⟩ := step.triplet holds direction
      rw [serve_triplet, run]
      exact ⟨rfl, holds_after⟩
  | power => exact ⟨rfl, step.power holds⟩
  | depower => exact ⟨rfl, step.depower holds⟩

end InStep

structure Mirrors (line : SimulatedLine) (wire : Wire) : Prop where
  settled : line.Settled
  same : line.wire = wire

theorem Released.mirrors_reset (released : line.Released) (free : line.stuckLow = false)
    (standard : master.IsStandard) :
    ∃ after, Task.eval answer (master.reset : Task (Line.interface ε) ε Bool) line =
      (.ok !line.wire.devices.isEmpty, after) ∧ after.Mirrors line.wire.reset := by
  obtain ⟨time, -, reset⟩ := released.eval_reset (ε := ε) free standard
  refine ⟨(line.wait time).endReset.wait 510, ?_, ?_⟩
  · rw [reset]
    simp [SimulatedLine.wire]
  · exact ⟨settled_endReset (line.wait time) free 510 (by decide), wire_reset line time 510⟩

theorem Mirrors.power {wire : Wire} (mirrors : line.Mirrors wire) (powered : Bool) :
    ({ line with powered } : SimulatedLine).Mirrors { wire with powered } := by
  refine ⟨⟨⟨⟨?_, ?_, ?_⟩, ?_⟩, ?_, ?_, ?_⟩, ?_⟩
  · exact mirrors.settled.fell
  · exact mirrors.settled.presence
  · exact mirrors.settled.pulls
  · exact mirrors.settled.up
  · exact mirrors.settled.free
  · exact mirrors.settled.quiet
  · exact mirrors.settled.silent
  · rw [← mirrors.same]
    rfl

theorem inStep_mirrors (standard : master.IsStandard) : InStep ε master Mirrors where
  write {line wire} mirrors bit := by
    refine ⟨_, eval_writeBit standard mirrors.settled.up bit, ?_, ?_⟩
    · exact mirrors.settled.slot bit 61 (by decide)
    · rw [wire_slot, mirrors.same]
  read {line wire} mirrors := by
    refine ⟨_, ?_, mirrors.settled.slot true (master.sampleDelay + 55) ?_, ?_⟩
    · rw [mirrors.settled.eval_readBit standard, ← level_wire, mirrors.same]
    · exact Nat.le_trans (by decide) (Nat.le_add_left 55 master.sampleDelay)
    · rw [wire_slot, mirrors.same]
  power {line wire} mirrors := by
    rw [drive, letGo_up mirrors.settled.up]
    exact mirrors.power true
  depower {line wire} mirrors := by
    rw [letGo_up mirrors.settled.up]
    exact mirrors.power false

section

variable {wire : Wire} (mirrors : line.Mirrors wire) (standard : master.IsStandard)
include mirrors standard

/-- One request on a settled line is one request on the untimed bus. -/
theorem Mirrors.serve (request : Bus.Request) :
    (master.serve (ε := ε) request line).1 = (Wire.answer request wire).1 ∧
      (master.serve (ε := ε) request line).2.Mirrors (Wire.answer (ε := ε) request wire).2 := by
  by_cases again : request = .reset
  · rw [again]
    obtain ⟨after, run, holds⟩ :=
      mirrors.settled.toReleased.mirrors_reset (ε := ε) mirrors.settled.free standard
    rw [serve_reset, run, ← mirrors.same]
    exact ⟨rfl, holds⟩
  · exact (inStep_mirrors standard).serve mirrors request again

theorem Mirrors.eval (program : Program (Bus.interface ε) α) :
    (Program.eval master.serve program line).1 = (Program.eval Wire.answer program wire).1 ∧
      (Program.eval master.serve program line).2.Mirrors
        (Program.eval Wire.answer program wire).2 :=
  Program.eval_simulates master.serve Wire.answer Mirrors
    (fun request _ _ holds => holds.serve standard request) program line wire mirrors

end

end SimulatedLine

end SingleWire
