import SingleWire.Proofs.Transfers

/-!
What a simulated line keeps whatever is called on it, in any order and for any times: no more devices
than it has room for, nothing noted for later than its kind lasts, and every device in a phase whose
indices point into what they index.
-/

namespace SingleWire

variable {ε : Type}

/-- Indices are those of the 64 bits of a code, and a byte under way has no bit set that has not been
received. -/
def Phase.Sound : Phase → Prop
  | .idle => True
  | .romCommand byte count | .functionCommand byte count => count < 8 ∧ byte.toNat < 2 ^ count
  | .search index _ | .matchRom index | .sendRom index => index < 64
  | .sendData position => position ≤ Device.lastPosition

namespace Device

theorem toNat_one_shiftLeft {count : Nat} (more : count < 8) :
    (1 <<< UInt8.ofNat count : UInt8).toNat = 2 ^ count := by
  revert count
  decide

theorem addBit_lt {byte : UInt8} {count : Nat} (more : count < 8) (small : byte.toNat < 2 ^ count)
    (bit : Bool) : (addBit byte count bit).toNat < 2 ^ (count + 1) := by
  have wider : 2 ^ count < 2 ^ (count + 1) := Nat.pow_lt_pow_succ (by decide)
  cases bit with
  | false => exact small.trans wider
  | true =>
      have one : addBit byte count true = byte ||| (1 <<< UInt8.ofNat count) := rfl
      rw [one, UInt8.toNat_or, toNat_one_shiftLeft more]
      exact Nat.or_lt_two_pow (small.trans wider) wider

theorem sound_obey (device : Device) (command : UInt8) : (device.obey command).Sound := by
  unfold obey
  repeat' split
  all_goals simp [Phase.Sound]

theorem next_inside {index : Nat} (inside : index < 64) (more : index ≠ 63) : index + 1 < 64 := by
  omega

theorem sound_endSlot {device : Device} (sound : device.phase.Sound) (bit : Bool) :
    (device.endSlot bit).phase.Sound := by
  cases phase : device.phase with
  | idle =>
      rw [endSlot_idle phase, phase]
      trivial
  | romCommand byte count =>
      rw [phase] at sound
      rw [endSlot, phase]
      dsimp only
      split
      · rename_i more
        exact ⟨Nat.succ_lt_succ more, addBit_lt sound.1 sound.2 bit⟩
      · exact sound_obey device _
  | search index step =>
      rw [phase] at sound
      rw [endSlot, phase]
      cases step with
      | bit | complement => exact sound
      | direction =>
          dsimp only
          split
          · trivial
          · rename_i stays
            exact next_inside sound fun last => stays (.inr last)
  | matchRom index =>
      rw [phase] at sound
      rw [endSlot, phase]
      dsimp only
      split
      · trivial
      · split
        · exact ⟨by decide, by decide⟩
        · rename_i more
          exact next_inside sound more
  | sendRom index =>
      rw [phase] at sound
      rw [endSlot, phase]
      dsimp only
      split
      · trivial
      · rename_i more
        exact next_inside sound more
  | functionCommand byte count =>
      rw [phase] at sound
      rw [endSlot, phase]
      dsimp only
      split
      · rename_i more
        exact ⟨Nat.succ_lt_succ more, addBit_lt sound.1 sound.2 bit⟩
      · exact Nat.zero_le _
  | sendData position =>
      rw [endSlot, phase]
      exact Nat.min_le_right _ _

end Device

namespace SimulatedLine

variable {line grown : SimulatedLine}

def Fits (line : SimulatedLine) : Prop :=
  ∀ device ∈ line.devices, device.data.length ≤ Device.dataCapacity

theorem fits_of_natures {after : SimulatedLine} (fits : line.Fits)
    (same : after.natures = line.natures) : after.Fits := by
  intro device member
  have listed : device.nature ∈ after.natures := List.mem_map_of_mem member
  rw [same] at listed
  obtain ⟨before, present, equal⟩ := List.mem_map.mp listed
  have data : before.nature.data = device.nature.data := congrArg Device.data equal
  exact data ▸ fits before present

theorem Fits.attach {device : Device} (fits : line.Fits)
    (new : device.IsNew) (room : line.attach? device = some grown) : grown.Fits := by
  simp only [attach?] at room
  split at room
  · cases room
    intro other member
    rcases List.mem_append.mp member with old | added
    · exact fits other old
    · rw [List.mem_singleton.mp added]
      exact new.fits
  · cases room

theorem Reachable.fits (reachable : line.Reachable) : line.Fits := by
  induction reachable with
  | empty capacity => exact fun device member => absurd member List.not_mem_nil
  | attach new room _ ih => exact ih.attach new room
  | stick _ _ ih | setLatency _ _ ih => exact ih
  | call request _ ih => exact fits_of_natures ih (natures_answer request _)

/-- What the representation of a line promises. -/
structure WellFormed (line : SimulatedLine) : Prop extends line.Timely where
  room : line.devices.length ≤ line.capacity
  fits : line.Fits
  sound : ∀ device ∈ line.devices, device.phase.Sound

theorem devices_answer (request : Line.Request) (line : SimulatedLine) :
    (answer (ε := ε) request line).2.capacity = line.capacity ∧
      ∃ change : Device → Device,
        (answer (ε := ε) request line).2.devices = line.devices.map change ∧
          ∀ device, device.phase.Sound → (change device).phase.Sound := by
  have same : line.devices = line.devices.map id := (List.map_id _).symm
  have released : line.letGo.capacity = line.capacity ∧
      ∃ change : Device → Device, line.letGo.devices = line.devices.map change ∧
        ∀ device, device.phase.Sound → (change device).phase.Sound := by
    unfold letGo
    split
    · exact ⟨rfl, id, same, fun _ sound => sound⟩
    · dsimp only
      split
      · exact ⟨rfl, Device.reset, rfl, fun _ _ => ⟨by decide, by decide⟩⟩
      · exact ⟨rfl, _, rfl, fun _ sound => Device.sound_endSlot sound _⟩
  cases request with
  | driveLow =>
      simp only [answer, pull]
      split
      · exact ⟨rfl, id, same, fun _ sound => sound⟩
      · exact ⟨rfl, _, rfl, fun _ sound => sound⟩
  | release | driveHigh => exact released
  | sample | delay _ | latency => exact ⟨rfl, id, same, fun _ sound => sound⟩

theorem attached {device : Device} (room : line.attach? device = some grown) :
    line.devices.length < line.capacity ∧
      grown = { line with devices := line.devices ++ [device] } := by
  simp only [attach?] at room
  split at room
  · rename_i free
    exact ⟨free, (Option.some_inj.mp room).symm⟩
  · cases room

namespace WellFormed

theorem empty (capacity : Nat) : ({ capacity } : SimulatedLine).WellFormed where
  toTimely := (Reachable.empty capacity).timely
  room := Nat.zero_le capacity
  fits := (Reachable.empty capacity).fits
  sound _ member := absurd member List.not_mem_nil

theorem answer (formed : line.WellFormed) (request : Line.Request) :
    (SimulatedLine.answer (ε := ε) request line).2.WellFormed := by
  obtain ⟨capacity, change, devices, keeps⟩ := devices_answer (ε := ε) request line
  refine ⟨formed.toTimely.answer request, ?_,
    fits_of_natures formed.fits (natures_answer request line), ?_⟩
  · rw [capacity, devices, List.length_map]
    exact formed.room
  · intro device member
    rw [devices] at member
    obtain ⟨before, present, rfl⟩ := List.mem_map.mp member
    exact keeps before (formed.sound before present)

theorem attach {device : Device} (formed : line.WellFormed) (new : device.IsNew)
    (room : line.attach? device = some grown) : grown.WellFormed := by
  refine ⟨formed.toTimely.attach new.calm room, ?_, formed.fits.attach new room, ?_⟩
  · obtain ⟨free, rfl⟩ := attached room
    rw [List.length_append, List.length_singleton]
    exact free
  · obtain ⟨-, rfl⟩ := attached room
    intro other member
    rcases List.mem_append.mp member with old | added
    · exact formed.sound other old
    · rw [List.mem_singleton.mp added, new.idle]
      trivial

end WellFormed

theorem Reachable.wellFormed (reachable : line.Reachable) : line.WellFormed := by
  induction reachable with
  | empty capacity => exact .empty capacity
  | attach new room _ ih => exact ih.attach new room
  | stick _ _ ih | setLatency _ _ ih =>
      exact ⟨⟨ih.fell, ih.presence, ih.pulls⟩, ih.room, ih.fits, ih.sound⟩
  | call request _ ih => exact ih.answer request

end SimulatedLine

end SingleWire
