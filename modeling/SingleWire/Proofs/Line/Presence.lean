import SingleWire.Proofs.Line.Grammar
import SingleWire.Proofs.Overflow

namespace SingleWire

variable {ε : Type} {line : SimulatedLine}

theorem Master.not_driveLow_of_mem_lowPolls {pause count : Nat} {call : Call (Line.interface ε)}
    (poll : call ∈ Master.lowPolls pause count) : call.request ≠ Line.Request.driveLow := by
  obtain ⟨round, repeated, inside⟩ := List.mem_flatten.mp poll
  rw [List.eq_of_mem_replicate repeated] at inside
  rcases List.mem_pair.mp inside with rfl | rfl <;> exact Line.Request.noConfusion

namespace SimulatedLine

/-- A line that came about in any way: devices were attached, the line was shorted and freed, and it
was called upon directly or by bus programs of any masters, with faults at any of their calls. -/
inductive Handled : SimulatedLine → Prop
  | empty (capacity : Nat) : Handled { capacity }
  | attach {line grown : SimulatedLine} {device : Device} (new : device.IsNew)
      (room : line.attach? device = some grown) : Handled line → Handled grown
  | stick {line : SimulatedLine} (low : Bool) : Handled line → Handled { line with stuckLow := low }
  | setLatency {line : SimulatedLine} (time : Nat) :
      Handled line → Handled { line with latency := time }
  | call {ε : Type} {line : SimulatedLine} (request : Line.Request) :
      Handled line → Handled (answer (ε := ε) request line).2
  | work {ε α : Type} {line : SimulatedLine} (master : Master) (plan : List (Nat × ε))
      (program : Program (Bus.interface ε) α) :
      Handled line → Handled ((master.onLine program).run (Handler.faulty Line.failure answer)
        { layer := line, plan }).state.layer

theorem Handled.reachable (handled : line.Handled) : line.Reachable := by
  induction handled with
  | empty capacity => exact .empty capacity
  | attach new room _ ih => exact ih.attach new room
  | stick low _ ih => exact ih.stick low
  | setLatency time _ ih => exact ih.setLatency time
  | @call ε line request _ ih => exact ih.call (ε := ε) request
  | @work ε α line master plan program _ ih =>
      exact Program.eval_faulty_keeps SimulatedLine.answer Reachable
        (fun request _ before => before.call (ε := ε) request) (master.onLine program)
        { layer := line, plan } ih

theorem isLow_stuck (stuck : line.stuckLow = true) : line.isLow = true := by
  simp [isLow, stuck]

theorem runs_pollIdle_stuck (stuck : line.stuckLow = true) (pause polls : Nat) :
    Task.Runs (answer (ε := ε)) (Master.pollIdle pause polls) line (Master.lowPolls pause polls)
      (.ok false) (line.wait (pause * polls)) := by
  induction polls generalizing line with
  | zero => exact Task.runs_pure false line
  | succ polls ih =>
      have read : Task.Runs (answer (ε := ε)) Line.sample line [Line.sampled false] (.ok false) line := by
        have seen : Task.Runs (answer (ε := ε)) Line.sample line [Line.sampled !line.isLow]
            (.ok !line.isLow) line := ⟨rfl, rfl⟩
        rwa [isLow_stuck stuck] at seen
      have rest := @ih (line.wait pause) stuck
      rw [wait_wait, Nat.add_comm, ← Nat.mul_succ] at rest
      rw [Master.pollIdle, Master.lowPolls_succ]
      exact read.bind ((Line.runs_delay pause line).bind rest)

theorem runs_reset_stuck (stuck : line.stuckLow = true) (master : Master) :
    Task.Runs (answer (ε := ε)) master.reset line
      ([Line.released] ++
        Master.lowPolls master.timing.idlePoll (max master.timing.idlePolls 1))
      (.ok false) (line.letGo.wait (master.timing.idlePoll * max master.timing.idlePolls 1)) := by
  have let_go : Task.Runs (answer (ε := ε)) Line.release line [Line.released] (.ok ()) line.letGo :=
    ⟨rfl, rfl⟩
  have still_stuck : line.letGo.stuckLow = true :=
    (stuckLow_answer (ε := ε) .release line).trans stuck
  have idle : Task.Runs (answer (ε := ε)) master.awaitIdle line _ _ _ :=
    let_go.bind (runs_pollIdle_stuck still_stuck master.timing.idlePoll
      (max master.timing.idlePolls 1))
  have refused : Task.Runs (answer (ε := ε)) master.reset line _ _ _ :=
    idle.bind ((Task.runs_emit .lineStuckLow _).bind (Task.runs_pure false _))
  rwa [List.append_nil, List.append_nil] at refused

theorem now_letGo (line : SimulatedLine) : line.letGo.now = line.now := by
  unfold letGo
  split
  · rfl
  · dsimp only
    split <;> rfl

theorem counts_letGo (line : SimulatedLine) :
    line.letGo.resets ≤ line.resets + 1 ∧ line.letGo.slots ≤ line.slots + 1 := by
  unfold letGo
  split
  · exact ⟨Nat.le_succ _, Nat.le_succ _⟩
  · dsimp only
    split
    · exact ⟨Nat.le_refl _, Nat.le_succ _⟩
    · exact ⟨Nat.le_succ _, Nat.le_refl _⟩

theorem isEmpty_letGo (line : SimulatedLine) :
    line.letGo.devices.isEmpty = line.devices.isEmpty := by
  have same := congrArg List.isEmpty (natures_letGo line)
  rwa [natures, natures, List.isEmpty_map, List.isEmpty_map] at same

/-- Whatever a line that is not shorted is in the middle of, it comes to rest before the pulse. -/
theorem Timely.eval_reset (timely : line.Timely) (free : line.stuckLow = false)
    (samplePoint sampleDelay : Nat) :
    ∃ time ≤ 750, Task.eval (SimulatedLine.answer (ε := ε))
        (Master.reset ⟨Timing.standard.set (.samplePoint samplePoint), sampleDelay⟩) line =
      (.ok !line.devices.isEmpty, (line.letGo.wait time).endReset.wait 510) := by
  have released : line.letGo.Released := ⟨timely.letGo, fellAt_letGo line⟩
  have still_free : line.letGo.stuckLow = false :=
    (stuckLow_answer (ε := ε) .release line).trans free
  -- A reset takes no sample of a read slot, so any delay before that will do.
  have standard : Master.IsStandard ⟨Timing.standard.set (.samplePoint samplePoint), 0⟩ :=
    ⟨⟨samplePoint, rfl⟩, (by decide : 0 < Device.zeroLow)⟩
  obtain ⟨time, short, reset⟩ := released.eval_reset (ε := ε) still_free standard
  rw [eval_reset_letGo, isEmpty_letGo] at reset
  exact ⟨time, short, reset⟩

end SimulatedLine

end SingleWire
