import SingleWire.Master
import SingleWire.Proofs.Evaluation
import SingleWire.Proofs.Line.Clock

namespace SingleWire

theorem Device.pulls_past (device : Device) {now : Nat}
    (past : ∀ limit, device.pullUntil = some limit → limit ≤ now) : device.pulls now = false := by
  unfold Device.pulls
  split
  · rename_i limit pulling
    exact decide_eq_false (Nat.not_lt_of_le (past limit pulling))
  · rfl

namespace SimulatedLine

theorem inPresence_past {line : SimulatedLine}
    (past : ∀ start finish, line.presence = some (start, finish) → finish ≤ line.now) :
    line.inPresence = false := by
  unfold inPresence
  split
  · rename_i start finish window
    rw [decide_eq_false (Nat.not_lt_of_le (past start finish window)), Bool.and_false]
  · rfl

/-- One whole slot on a released line. -/
def slot (line : SimulatedLine) (bit : Bool) (length : Nat) : SimulatedLine :=
  { line with
    powered := false
    now := line.now + length
    slots := line.slots + 1
    devices := line.devices.map fun device => (device.startSlot line.now).endSlot bit }

def level (line : SimulatedLine) : Bool :=
  line.devices.all fun device => device.sending != some false

structure Released (line : SimulatedLine) : Prop extends line.Timely where
  up : line.fellAt = none

structure Settled (line : SimulatedLine) : Prop extends line.Released where
  free : line.stuckLow = false
  quiet : ∀ device ∈ line.devices, ∀ limit, device.pullUntil = some limit → limit ≤ line.now
  silent : ∀ start finish, line.presence = some (start, finish) → finish ≤ line.now

/-- In a slot only a device that sends a zero can pull the line low. What is left of a pull from an
earlier slot ends at the falling edge. -/
structure Clear (line : SimulatedLine) : Prop where
  up : line.fellAt = none
  free : line.stuckLow = false
  silent : ∀ start finish, line.presence = some (start, finish) → finish ≤ line.now

variable {ε : Type} {line : SimulatedLine}

theorem Settled.clear (settled : line.Settled) : line.Clear :=
  ⟨settled.up, settled.free, settled.silent⟩

section

variable (line : SimulatedLine)

@[simp] theorem eval_driveLow :
    Task.eval answer (Line.driveLow : Task (Line.interface ε) ε Unit) line = (.ok (), line.pull) :=
  rfl

@[simp] theorem eval_release :
    Task.eval answer (Line.release : Task (Line.interface ε) ε Unit) line = (.ok (), line.letGo) :=
  rfl

@[simp] theorem eval_driveHigh :
    Task.eval answer (Line.driveHigh : Task (Line.interface ε) ε Unit) line = (.ok (), line.drive) :=
  rfl

@[simp] theorem eval_sample :
    Task.eval answer (Line.sample : Task (Line.interface ε) ε Bool) line = (.ok !line.isLow, line) :=
  rfl

@[simp] theorem eval_delay (time : Nat) :
    Task.eval answer (Line.delay time : Task (Line.interface ε) ε Unit) line =
      (.ok (), line.wait time) :=
  rfl

@[simp] theorem eval_latency :
    Task.eval answer (Line.latency : Task (Line.interface ε) ε Nat) line =
      (.ok line.latency, line) :=
  rfl

end

theorem pull_up (up : line.fellAt = none) :
    line.pull = { line with
      powered := false
      fellAt := some line.now
      devices := line.devices.map (·.startSlot line.now) } := by
  simp [pull, up]

theorem fellAt_letGo (line : SimulatedLine) : line.letGo.fellAt = none := by
  unfold letGo
  split
  · assumption
  · dsimp only
    split <;> rfl

theorem letGo_up (up : line.fellAt = none) : line.letGo = { line with powered := false } := by
  simp [letGo, up]

theorem powered_letGo (line : SimulatedLine) : line.letGo.powered = false := by
  unfold letGo
  split
  · rfl
  · dsimp only
    split <;> rfl

theorem letGo_letGo (line : SimulatedLine) : line.letGo.letGo = line.letGo := by
  rw [letGo_up (fellAt_letGo line), ← powered_letGo line]

theorem letGo_wait_pull (up : line.fellAt = none) (low : Nat) (short : low < resetLow) :
    (line.pull.wait low).letGo = line.slot (low < zeroLow) low := by
  have time : line.now + low - line.now = low := Nat.add_sub_cancel_left _ _
  rw [pull_up up]
  simp [letGo, wait, time, Nat.not_le_of_lt short, endSlot, slot, up]

theorem eval_writeSlot (low high : Nat) (line : SimulatedLine) :
    Task.eval answer (Master.writeSlot low high : Task (Line.interface ε) ε Unit) line =
      (.ok (), (line.pull.wait low).letGo.wait high) := by
  simp only [Master.writeSlot, Task.eval_bind, eval_driveLow, eval_delay, eval_release]

theorem eval_readBit (master : Master) (line : SimulatedLine) :
    Task.eval answer (master.readBit : Task (Line.interface ε) ε Bool) line =
      (.ok !(line.pull.letGo.wait master.sampleDelay).isLow,
        (line.pull.letGo.wait master.sampleDelay).wait master.timing.readRecovery) := by
  simp only [Master.readBit, Task.eval_bind, eval_driveLow, eval_delay, eval_release, eval_sample,
    Task.eval_pure]

theorem eval_writeSlot_up (up : line.fellAt = none) (low high : Nat) (short : low < resetLow) :
    Task.eval answer (Master.writeSlot low high : Task (Line.interface ε) ε Unit) line =
      (.ok (), line.slot (low < zeroLow) (low + high)) := by
  rw [eval_writeSlot, letGo_wait_pull up low short]
  simp [slot, wait, Nat.add_assoc]

theorem eval_readBit_up (master : Master) (up : line.fellAt = none) :
    Task.eval answer (master.readBit : Task (Line.interface ε) ε Bool) line =
      (.ok !(line.slot true master.sampleDelay).isLow,
        line.slot true (master.sampleDelay + master.timing.readRecovery)) := by
  have pulse : line.pull.letGo = line.slot true 0 := letGo_wait_pull up 0 (by decide)
  rw [SimulatedLine.eval_readBit, pulse]
  simp [slot, wait, Nat.add_assoc]

theorem Released.slot (released : line.Released) (bit : Bool) (length : Nat) :
    (line.slot bit length).Released where
  fell start fallen := by
    rw [SimulatedLine.slot, released.up] at fallen
    cases fallen
  presence start finish window := by
    have bound := released.presence start finish window
    simp only [SimulatedLine.slot]
    omega
  pulls device member limit pulling := by
    obtain ⟨before, _, rfl⟩ := List.mem_map.mp member
    rw [Device.pullUntil_endSlot] at pulling
    have bound := Device.pullUntil_startSlot before line.now limit pulling
    simp only [SimulatedLine.slot]
    omega
  up := released.up

theorem Settled.slot (settled : line.Settled) (bit : Bool) (length : Nat)
    (long : Device.zeroLow ≤ length) : (line.slot bit length).Settled where
  toReleased := settled.toReleased.slot bit length
  free := settled.free
  quiet device member limit pulling := by
    obtain ⟨before, _, rfl⟩ := List.mem_map.mp member
    rw [Device.pullUntil_endSlot] at pulling
    have bound := Device.pullUntil_startSlot before line.now limit pulling
    simp only [SimulatedLine.slot]
    omega
  silent start finish window := by
    have past := settled.silent start finish window
    simp only [SimulatedLine.slot]
    omega

theorem pulls_slot (device : Device) (bit : Bool) (now length : Nat)
    (short : length < Device.zeroLow) :
    ((device.startSlot now).endSlot bit).pulls (now + length) =
      (device.sending == some false) := by
  have limit : ((device.startSlot now).endSlot bit).pullUntil = (device.startSlot now).pullUntil :=
    Device.pullUntil_endSlot _ _
  rw [Device.pulls, limit]
  by_cases zero : device.sending = some false
  · simp [Device.startSlot, zero, short]
  · simp [Device.startSlot, zero]

theorem Clear.slot (clear : line.Clear) (bit : Bool) (length : Nat) : (line.slot bit length).Clear where
  up := clear.up
  free := clear.free
  silent start finish window := Nat.le_trans (clear.silent start finish window) (Nat.le_add_right _ _)

theorem Clear.isLow_slot (clear : line.Clear) (bit : Bool) (length : Nat)
    (short : length < Device.zeroLow) : (line.slot bit length).isLow = !line.level := by
  have past := inPresence_past (clear.slot bit length).silent
  simp only [isLow, past, level]
  simp only [SimulatedLine.slot, clear.free, clear.up, List.any_map, Function.comp_def,
    pulls_slot _ bit line.now length short]
  simp [List.any_eq_not_all_not, bne]

theorem letGo_wait_pull_reset (up : line.fellAt = none) (low : Nat) (long : resetLow ≤ low) :
    (line.pull.wait low).letGo = (line.wait low).endReset := by
  have time : line.now + low - line.now = low := Nat.add_sub_cancel_left _ _
  have again : ∀ device : Device, (device.startSlot line.now).reset = device.reset := fun _ => rfl
  rw [pull_up up]
  simp [letGo, wait, time, long, endReset, again]

/-- Between its start and its end the presence pulse of the devices is all that pulls the line. -/
theorem isLow_endReset (line : SimulatedLine) (free : line.stuckLow = false) (time : Nat)
    (begun : presenceStart ≤ time) (going : time < presenceEnd) :
    (line.endReset.wait time).isLow = !line.devices.isEmpty := by
  have calm : (line.devices.map Device.reset).any (·.pulls (line.now + time)) = false := by
    simp [Device.reset, Device.pulls]
  cases empty : line.devices.isEmpty with
  | true =>
      simp only [isLow, wait, endReset, free, calm, inPresence, empty]
      rfl
  | false =>
      simp only [isLow, wait, endReset, free, calm, inPresence, empty]
      simp [begun, going]

theorem settled_endReset (line : SimulatedLine) (free : line.stuckLow = false) (time : Nat)
    (past : presenceEnd ≤ time) : (line.endReset.wait time).Settled where
  toTimely := (timely_endReset line).wait time
  up := rfl
  free := free
  quiet device member limit pulling := by
    obtain ⟨before, _, rfl⟩ := List.mem_map.mp member
    cases pulling
  silent start finish window := by
    simp only [endReset, wait] at window ⊢
    split at window
    · cases window
    · obtain ⟨-, rfl⟩ := Prod.mk.inj (Option.some_inj.mp window)
      omega

theorem Released.isLow_wait (released : line.Released) (free : line.stuckLow = false) (time : Nat)
    (past : presenceEnd ≤ time) : (line.wait time).isLow = false := by
  have silent : (line.wait time).inPresence = false := by
    apply inPresence_past
    intro start finish window
    have bound := released.presence start finish window
    simp only [SimulatedLine.wait]
    omega
  have calm : line.devices.any (·.pulls (line.now + time)) = false := by
    refine List.any_eq_false.mpr fun device member =>
      Bool.eq_false_iff.mp (device.pulls_past ?_)
    intro limit pulling
    have bound := released.pulls device member limit pulling
    have short : Device.zeroLow ≤ presenceEnd := by decide
    omega
  simp only [isLow, silent]
  simp [SimulatedLine.wait, free, released.up, calm]

theorem wait_wait (line : SimulatedLine) (first second : Nat) :
    (line.wait first).wait second = line.wait (first + second) := by
  simp [wait, Nat.add_assoc]

theorem eval_pollIdle (pause polls : Nat) (line : SimulatedLine) :
    ∃ high, ∃ time ≤ pause * polls,
      Task.eval answer (Master.pollIdle pause polls : Task (Line.interface ε) ε Bool)
        line = (.ok high, line.wait time) ∧
      (high = false → time = pause * polls ∧
        ∀ poll < polls, (line.wait (pause * poll)).isLow = true) := by
  induction polls generalizing line with
  | zero =>
      refine ⟨false, 0, Nat.zero_le _, rfl, fun _ => ⟨rfl, ?_⟩⟩
      intro poll inside
      exact absurd inside (Nat.not_lt_zero poll)
  | succ polls ih =>
      rw [Master.pollIdle, Task.eval_bind, eval_sample]
      cases low : line.isLow with
      | false => exact ⟨true, 0, Nat.zero_le _, rfl, fun never => by cases never⟩
      | true =>
          obtain ⟨high, time, short, polled, spent⟩ := ih (line.wait pause)
          refine ⟨high, pause + time, ?_, ?_, ?_⟩
          · rw [Nat.mul_succ, Nat.add_comm]
            exact Nat.add_le_add_right short pause
          · simp only [Bool.not_true, Bool.false_eq_true, if_false, Task.eval_bind, eval_delay,
              polled, wait_wait]
          · intro never
            obtain ⟨total, stayed⟩ := spent never
            refine ⟨by rw [total, Nat.mul_succ, Nat.add_comm], ?_⟩
            intro poll inside
            cases poll with
            | zero => exact low
            | succ poll =>
                have later := stayed poll (Nat.lt_of_succ_lt_succ inside)
                rwa [wait_wait, Nat.add_comm, ← Nat.mul_succ] at later

end SimulatedLine

namespace Master

structure IsStandard (master : Master) : Prop where
  timing : ∃ samplePoint, master.timing = Timing.standard.set (.samplePoint samplePoint)
  early : master.sampleDelay < Device.zeroLow

end Master

namespace SimulatedLine

variable {ε : Type} {line : SimulatedLine} {master : Master}

theorem eval_writeBit (standard : master.IsStandard) (up : line.fellAt = none) (bit : Bool) :
    Task.eval answer (master.writeBit bit : Task (Line.interface ε) ε Unit) line =
      (.ok (), line.slot bit 61) := by
  obtain ⟨samplePoint, timing⟩ := standard.timing
  cases bit with
  | true =>
      rw [Master.writeBit, if_pos rfl, timing]
      exact eval_writeSlot_up up 1 60 (by decide)
  | false =>
      rw [Master.writeBit, if_neg Bool.false_ne_true, timing]
      exact eval_writeSlot_up up 60 1 (by decide)

theorem Settled.eval_readBit (settled : line.Settled) (standard : master.IsStandard) :
    Task.eval answer (master.readBit : Task (Line.interface ε) ε Bool) line =
      (.ok line.level, line.slot true (master.sampleDelay + 55)) := by
  obtain ⟨samplePoint, timing⟩ := standard.timing
  rw [eval_readBit_up master settled.up, settled.clear.isLow_slot true _ standard.early,
    Bool.not_not, timing]
  rfl

theorem Released.eval_awaitIdle (released : line.Released) (free : line.stuckLow = false)
    (standard : master.IsStandard) :
    ∃ time ≤ 250, Task.eval answer (master.awaitIdle : Task (Line.interface ε) ε Bool) line =
      (.ok true, line.letGo.wait time) := by
  obtain ⟨samplePoint, timing⟩ := standard.timing
  obtain ⟨high, time, short, polled, stayed⟩ := eval_pollIdle (ε := ε) 2 125 line.letGo
  cases high with
  | true =>
      refine ⟨time, short, ?_⟩
      rw [Master.awaitIdle, Task.eval_bind, eval_release, timing]
      exact polled
  | false =>
      have last := (stayed rfl).2 124 (by decide)
      rw [letGo_up released.up] at last
      have past : (line.wait (2 * 124)).isLow = false := released.isLow_wait free _ (by decide)
      exact absurd (past.symm.trans last) Bool.false_ne_true

theorem Released.eval_reset (released : line.Released) (free : line.stuckLow = false)
    (standard : master.IsStandard) :
    ∃ time ≤ 750, Task.eval answer (master.reset : Task (Line.interface ε) ε Bool) line =
      (.ok !line.devices.isEmpty, (line.wait time).endReset.wait 510) := by
  obtain ⟨time, short, idle⟩ := released.eval_awaitIdle (ε := ε) free standard
  obtain ⟨samplePoint, timing⟩ := standard.timing
  have pulse : ((line.letGo.wait time).pull.wait 500).letGo =
      (line.wait (time + 500)).endReset := by
    rw [letGo_up released.up, letGo_wait_pull_reset (by exact released.up) 500 (by decide),
      wait_wait]
    rfl
  have answered : ((line.wait (time + 500)).endReset.wait 90).isLow = !line.devices.isEmpty :=
    isLow_endReset (line.wait (time + 500)) free 90 (by decide) (by decide)
  refine ⟨time + 500, Nat.add_le_add_right short 500, ?_⟩
  rw [Master.reset, Task.eval_bind, idle]
  simp only [if_true, Master.resetSlot, timing, Timing.set, Timing.standard, Task.eval_bind,
    eval_driveLow, eval_delay, eval_release, eval_sample, Task.eval_emit, Task.eval_pure, pulse,
    answered, Bool.not_not, wait_wait]

end SimulatedLine

end SingleWire
