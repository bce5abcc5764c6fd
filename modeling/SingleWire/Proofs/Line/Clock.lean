import SingleWire.Line.Simulated

namespace SingleWire

namespace Device

def nature (device : Device) : Device :=
  { device with phase := .idle, pullUntil := none, lastCommand := none }

/-- A device as it comes: it has seen no bus yet. -/
structure IsNew (device : Device) : Prop where
  idle : device.phase = .idle
  calm : device.pullUntil = none
  unasked : device.lastCommand = none
  fits : device.data.length ≤ dataCapacity

theorem isNew_of_rom (rom : Rom) (alarm : Bool) : ({ rom, alarm } : Device).IsNew :=
  ⟨rfl, rfl, rfl, Nat.zero_le _⟩

theorem IsNew.withData {device : Device} (new : device.IsNew) (data : List UInt8) :
    (device.withData data).IsNew where
  idle := new.idle
  calm := new.calm
  unasked := new.unasked
  fits := List.length_take_le dataCapacity data

@[simp] theorem nature_startSlot (device : Device) (now : Nat) :
    (device.startSlot now).nature = device.nature := rfl

@[simp] theorem nature_reset (device : Device) : device.reset.nature = device.nature := rfl

theorem endSlot_frame (device : Device) (bit : Bool) :
    ∃ phase lastCommand, device.endSlot bit = { device with phase, lastCommand } := by
  unfold endSlot
  split <;> (repeat' split) <;> exact ⟨_, _, rfl⟩

@[simp] theorem nature_endSlot (device : Device) (bit : Bool) :
    (device.endSlot bit).nature = device.nature := by
  obtain ⟨phase, lastCommand, same⟩ := endSlot_frame device bit
  rw [same]
  rfl

@[simp] theorem pullUntil_endSlot (device : Device) (bit : Bool) :
    (device.endSlot bit).pullUntil = device.pullUntil := by
  obtain ⟨phase, lastCommand, same⟩ := endSlot_frame device bit
  rw [same]

theorem pullUntil_startSlot (device : Device) (now limit : Nat)
    (pulling : (device.startSlot now).pullUntil = some limit) : limit = now + zeroLow := by
  simp only [startSlot] at pulling
  split at pulling
  · exact (Option.some_inj.mp pulling).symm
  · cases pulling

end Device

namespace SimulatedLine

def natures (line : SimulatedLine) : List Device := line.devices.map Device.nature

structure Timely (line : SimulatedLine) : Prop where
  fell : ∀ time, line.fellAt = some time → time ≤ line.now
  presence : ∀ start finish, line.presence = some (start, finish) → finish ≤ line.now + presenceEnd
  pulls : ∀ device ∈ line.devices, ∀ limit,
    device.pullUntil = some limit → limit ≤ line.now + Device.zeroLow

/-- A line that came about by attaching new devices and by calls on it, in any order. -/
inductive Reachable : SimulatedLine → Prop
  | empty (capacity : Nat) : Reachable { capacity }
  | attach {line grown : SimulatedLine} {device : Device} (new : device.IsNew)
      (room : line.attach? device = some grown) : Reachable line → Reachable grown
  | stick {line : SimulatedLine} (low : Bool) :
      Reachable line → Reachable { line with stuckLow := low }
  | setLatency {line : SimulatedLine} (time : Nat) :
      Reachable line → Reachable { line with latency := time }
  | call {ε : Type} {line : SimulatedLine} (request : Line.Request) :
      Reachable line → Reachable (answer (ε := ε) request line).2

variable {ε : Type} {line : SimulatedLine}

theorem natures_pull (line : SimulatedLine) : line.pull.natures = line.natures := by
  unfold pull natures
  split
  · rfl
  · simp

theorem natures_letGo (line : SimulatedLine) : line.letGo.natures = line.natures := by
  unfold letGo natures
  split
  · rfl
  · simp only [endReset, endSlot]
    split <;> simp

theorem natures_answer (request : Line.Request) (line : SimulatedLine) :
    (answer (ε := ε) request line).2.natures = line.natures := by
  cases request with
  | driveLow => exact natures_pull line
  | release => exact natures_letGo line
  | driveHigh => exact natures_letGo line
  | sample | delay _ | latency => rfl

theorem stuckLow_answer (request : Line.Request) (line : SimulatedLine) :
    (answer (ε := ε) request line).2.stuckLow = line.stuckLow := by
  cases request with
  | driveLow => simp only [answer, pull]; split <;> rfl
  | release => simp only [answer, letGo, endReset, endSlot]; split <;> (try split) <;> rfl
  | driveHigh => simp only [answer, drive, letGo, endReset, endSlot]; split <;> (try split) <;> rfl
  | sample | delay _ | latency => rfl

theorem timely_endReset (line : SimulatedLine) : line.endReset.Timely := by
  constructor
  · intro time fallen
    cases fallen
  · intro start finish window
    simp only [SimulatedLine.endReset] at window ⊢
    split at window
    · cases window
    · obtain ⟨-, rfl⟩ := Prod.mk.inj (Option.some_inj.mp window)
      exact Nat.le_refl _
  · intro device member limit pulling
    obtain ⟨before, _, rfl⟩ := List.mem_map.mp member
    cases pulling

namespace Timely

theorem wait (timely : line.Timely) (time : Nat) : (line.wait time).Timely where
  fell start fallen := Nat.le_trans (timely.fell start fallen) (Nat.le_add_right _ _)
  presence start finish window := by
    have bound := timely.presence start finish window
    simp only [SimulatedLine.wait]
    omega
  pulls device member limit pulling := by
    have bound := timely.pulls device member limit pulling
    simp only [SimulatedLine.wait]
    omega

theorem pull (timely : line.Timely) : line.pull.Timely := by
  unfold SimulatedLine.pull
  split
  · exact ⟨timely.fell, timely.presence, timely.pulls⟩
  · refine ⟨?_, timely.presence, ?_⟩
    · intro time fallen
      exact Nat.le_of_eq (Option.some_inj.mp fallen).symm
    · intro device member limit pulling
      obtain ⟨before, _, rfl⟩ := List.mem_map.mp member
      exact Nat.le_of_eq (Device.pullUntil_startSlot before line.now limit pulling)

theorem endSlot (timely : line.Timely) (bit : Bool) : (line.endSlot bit).Timely := by
  refine ⟨?_, timely.presence, ?_⟩
  · intro time fallen
    cases fallen
  · intro device member limit pulling
    obtain ⟨before, present, rfl⟩ := List.mem_map.mp member
    rw [Device.pullUntil_endSlot] at pulling
    exact timely.pulls before present limit pulling

theorem letGo (timely : line.Timely) : line.letGo.Timely := by
  unfold SimulatedLine.letGo
  split
  · exact ⟨timely.fell, timely.presence, timely.pulls⟩
  · dsimp only
    split
    · exact timely_endReset _
    · exact timely.endSlot _

theorem answer (timely : line.Timely) (request : Line.Request) :
    (SimulatedLine.answer (ε := ε) request line).2.Timely := by
  cases request with
  | driveLow => exact timely.pull
  | release => exact timely.letGo
  | driveHigh => exact ⟨timely.letGo.fell, timely.letGo.presence, timely.letGo.pulls⟩
  | delay time => exact timely.wait time
  | sample | latency => exact timely

theorem attach {grown : SimulatedLine} {device : Device} (timely : line.Timely)
    (calm : device.pullUntil = none) (room : line.attach? device = some grown) : grown.Timely := by
  simp only [attach?] at room
  split at room
  · cases room
    refine ⟨timely.fell, timely.presence, ?_⟩
    intro other member limit pulling
    rcases List.mem_append.mp member with old | added
    · exact timely.pulls other old limit pulling
    · rw [List.mem_singleton.mp added, calm] at pulling
      cases pulling
  · cases room

end Timely

theorem Reachable.populate {devices : List Device} (reachable : line.Reachable)
    (new : ∀ device ∈ devices, device.IsNew) : (line.populate devices).1.Reachable := by
  induction devices generalizing line with
  | nil => exact reachable
  | cons device rest ih =>
      have later : ∀ device ∈ rest, device.IsNew :=
        fun other member => new other (List.mem_cons_of_mem device member)
      rw [SimulatedLine.populate]
      cases room : line.attach? device with
      | some grown => exact ih (reachable.attach (new device List.mem_cons_self) room) later
      | none => exact ih reachable later

theorem populate_frame (line : SimulatedLine) (devices : List Device) :
    ∃ joined : List Device, joined.Sublist devices ∧
      (line.populate devices).1 = { line with devices := line.devices ++ joined } := by
  induction devices generalizing line with
  | nil => exact ⟨[], List.nil_sublist [], by rw [List.append_nil]; rfl⟩
  | cons device rest ih =>
      rw [SimulatedLine.populate, attach?]
      split
      · rename_i grown room
        split at room
        · cases room
          obtain ⟨joined, some_of, same⟩ := ih { line with devices := line.devices ++ [device] }
          refine ⟨device :: joined, some_of.cons_cons device, ?_⟩
          rw [same, List.append_assoc, List.singleton_append]
        · cases room
      · obtain ⟨joined, some_of, same⟩ := ih line
        exact ⟨joined, some_of.cons device, same⟩

theorem Reachable.timely (reachable : line.Reachable) : line.Timely := by
  induction reachable with
  | empty capacity =>
      constructor
      · intro time fallen
        cases fallen
      · intro start finish window
        cases window
      · intro device member
        cases member
  | attach new room _ ih => exact ih.attach new.calm room
  | stick _ _ ih => exact ⟨ih.fell, ih.presence, ih.pulls⟩
  | setLatency _ _ ih => exact ⟨ih.fell, ih.presence, ih.pulls⟩
  | call request _ ih => exact ih.answer request

end SimulatedLine

end SingleWire
