import SingleWire.Proofs.Overflow

/-!
The untimed bus behind lines of any timing. Where devices can tell a one from a zero by its length,
and the master samples while they still answer, every slot on a clear line is one slot of the
untimed bus, and it takes the same time whatever the devices send.
-/

namespace SingleWire

variable {ε : Type} {line : SimulatedLine} {wire : Wire} {master : Master}

namespace Program

variable {I : Interface} {σ τ α : Type}

def Asks (allowed : I.Request → Prop) : Program I α → Prop
  | done _ => True
  | ask request next => allowed request ∧ ∀ reply, (next reply).Asks allowed
  | note _ rest => rest.Asks allowed

theorem Asks.eval_simulates {allowed : I.Request → Prop} {program : Program I α}
    (asks : program.Asks allowed) (handle : Handler I σ) (other : Handler I τ)
    (related : σ → τ → Prop)
    (step : ∀ request state image, allowed request → related state image →
      (handle request state).1 = (other request image).1 ∧
        related (handle request state).2 (other request image).2)
    (state : σ) (image : τ) (start : related state image) :
    (program.eval handle state).1 = (program.eval other image).1 ∧
      related (program.eval handle state).2 (program.eval other image).2 := by
  induction program generalizing state image with
  | done value => exact ⟨rfl, start⟩
  | ask request next ih =>
      obtain ⟨same, after⟩ := step request state image asks.1 start
      simp only [eval_ask, same]
      exact ih _ (asks.2 _) _ _ after
  | note event rest ih => exact ih asks state image start

end Program

/-- Devices take each slot of the master for what it is, and a zero is sampled before it ends. -/
structure Master.Legible (master : Master) : Prop where
  one : master.timing.writeOneLow < SimulatedLine.zeroLow
  zero : SimulatedLine.zeroLow ≤ master.timing.writeZeroLow
  short : master.timing.writeZeroLow < SimulatedLine.resetLow
  early : master.sampleDelay < Device.zeroLow

def Timing.writeTime (timing : Timing) (bit : Bool) : Nat :=
  if bit then timing.writeOneLow + timing.writeOneHigh
  else timing.writeZeroLow + timing.writeZeroHigh

namespace SimulatedLine

/-- What a slot that carries a bit for the given time leaves of a line: the untimed step of each
device once, and nothing else but the clock and the count of slots. -/
structure Slotted (line : SimulatedLine) (bit : Bool) (length : Nat) (after : SimulatedLine) :
    Prop where
  devices : after.devices = line.devices.map fun device =>
    { device.endSlot bit with pullUntil := (device.startSlot line.now).pullUntil }
  slots : after.slots = line.slots + 1
  resets : after.resets = line.resets
  up : after.fellAt = none
  unpowered : after.powered = false
  now : after.now = line.now + length
  others : after = { line with
    devices := after.devices
    slots := after.slots
    powered := after.powered
    now := after.now }

theorem slotted_slot (up : line.fellAt = none) (bit : Bool) (length : Nat) :
    line.Slotted bit length (line.slot bit length) where
  devices := List.map_congr_left fun device _ => device.endSlot_pulling _ bit
  slots := rfl
  resets := rfl
  up := up
  unpowered := rfl
  now := rfl
  others := rfl

theorem level_eq_false_iff (line : SimulatedLine) :
    line.level = false ↔ ∃ device ∈ line.devices, device.sending = some false := by
  simp [level, bne]

section

variable (legible : master.Legible)
include legible

theorem eval_writeBit_legible (up : line.fellAt = none) (bit : Bool) :
    Task.eval answer (master.writeBit bit : Task (Line.interface ε) ε Unit) line =
      (.ok (), line.slot bit (master.timing.writeTime bit)) := by
  cases bit with
  | true =>
      have short : master.timing.writeOneLow < resetLow := Nat.lt_trans legible.one (by decide)
      rw [Master.writeBit, if_pos rfl, eval_writeSlot_up up _ _ short, decide_eq_true legible.one]
      rfl
  | false =>
      rw [Master.writeBit, if_neg Bool.false_ne_true, eval_writeSlot_up up _ _ legible.short,
        decide_eq_false (Nat.not_lt_of_le legible.zero)]
      rfl

theorem Clear.eval_readBit (clear : line.Clear) :
    Task.eval answer (master.readBit : Task (Line.interface ε) ε Bool) line =
      (.ok line.level, line.slot true (master.sampleDelay + master.timing.readRecovery)) := by
  rw [eval_readBit_up master clear.up, clear.isLow_slot true _ legible.early, Bool.not_not]

end

structure Carries (line : SimulatedLine) (wire : Wire) : Prop where
  clear : line.Clear
  same : line.wire = wire

theorem Carries.slot (carries : line.Carries wire) (bit : Bool) (length : Nat) :
    (line.slot bit length).Carries (wire.slot bit) :=
  ⟨carries.clear.slot bit length, by rw [wire_slot, carries.same]⟩

theorem Carries.power (carries : line.Carries wire) (powered : Bool) :
    ({ line with powered } : SimulatedLine).Carries { wire with powered } := by
  refine ⟨⟨carries.clear.up, carries.clear.free, carries.clear.silent⟩, ?_⟩
  rw [← carries.same]
  rfl

theorem inStep_carries (legible : master.Legible) : InStep ε master Carries where
  write {line wire} carries bit :=
    ⟨_, eval_writeBit_legible legible carries.clear.up bit, carries.slot bit _⟩
  read {line wire} carries := by
    have read := carries.clear.eval_readBit (ε := ε) legible
    rw [← level_wire, carries.same] at read
    exact ⟨_, read, carries.slot true _⟩
  power {line wire} carries := by
    rw [drive, letGo_up carries.clear.up]
    exact carries.power true
  depower {line wire} carries := by
    rw [letGo_up carries.clear.up]
    exact carries.power false

end SimulatedLine

end SingleWire
