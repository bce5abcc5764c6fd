import SingleWire.Proofs.Search.Descent
import SingleWire.Proofs.Transfers

namespace SingleWire

namespace Search

def Kind.includes (kind : Kind) (device : Device) : Bool :=
  match kind with
  | .normal => true
  | .alarmed => device.alarm

/-- The codes of the devices that take part. -/
def Kind.codes (kind : Kind) (devices : List Device) : List Rom :=
  (devices.filter kind.includes).map Device.rom

theorem Kind.mem_codes {kind : Kind} {devices : List Device} {code : Rom} :
    code ∈ kind.codes devices ↔
      ∃ device ∈ devices, kind.includes device = true ∧ device.rom = code := by
  simp [codes, and_assoc]

theorem Kind.codes_nature (kind : Kind) (devices : List Device) :
    kind.codes (devices.map Device.nature) = kind.codes devices := by
  have called : kind.includes ∘ Device.nature = kind.includes := by cases kind <;> rfl
  rw [codes, List.filter_map, called, List.map_map]
  rfl

end Search

namespace Device

theorem obey_command (device : Device) (kind : Search.Kind) :
    device.obey kind.command = if kind.includes device then .search 0 .bit else .idle := by
  cases kind <;> rfl

@[simp] theorem includes_endSlot (kind : Search.Kind) (device : Device) (bit : Bool) :
    kind.includes (device.endSlot bit) = kind.includes device := by
  obtain ⟨phase, lastCommand, same⟩ := endSlot_frame device bit
  rw [same]
  cases kind <;> rfl

end Device

namespace Wire

variable {ε : Type} {kind : Search.Kind} {path : Rom} {index : Nat} {wire : Wire}

/-- Those that take part and whose codes took the path so far are at the same step of the same bit;
all others wait for the next reset. -/
def Searching (kind : Search.Kind) (path : Rom) (index : Nat) (step : SearchStep) (wire : Wire) :
    Prop :=
  ∀ device ∈ wire.devices, device.phase =
    if kind.includes device ∧ device.rom.agrees path index then .search index step else .idle

theorem searching_command (waiting : ∀ device ∈ wire.devices, device.phase = .romCommand 0 0)
    (kind : Search.Kind) (path : Rom) :
    ((bitsOf kind.command).foldl slot wire).Searching kind path 0 .bit := by
  intro device member
  rw [(foldl_slot _ wire).1] at member
  obtain ⟨before, present, rfl⟩ := List.mem_map.mp member
  have none : before.rom.agrees path 0 := fun index inside => absurd inside (Nat.not_lt_zero index)
  rw [Device.foldl_endSlot_bitsOf (waiting before present), Device.obey_command]
  simp only [none, and_true]
  cases kind <;> rfl

theorem Searching.complement (searching : wire.Searching kind path index .bit) (bit : Bool) :
    (wire.slot bit).Searching kind path index .complement := by
  intro device member
  obtain ⟨before, present, rfl⟩ := mem_slot member
  have phase := searching before present
  rw [Device.rom_endSlot, Device.includes_endSlot]
  split at phase
  · rename_i active
    rw [if_pos active, Device.endSlot, phase]
  · rename_i passive
    rw [if_neg passive, Device.endSlot, phase]
    exact phase

theorem Searching.direction (searching : wire.Searching kind path index .complement) (bit : Bool) :
    (wire.slot bit).Searching kind path index .direction := by
  intro device member
  obtain ⟨before, present, rfl⟩ := mem_slot member
  have phase := searching before present
  rw [Device.rom_endSlot, Device.includes_endSlot]
  split at phase
  · rename_i active
    rw [if_pos active, Device.endSlot, phase]
  · rename_i passive
    rw [if_neg passive, Device.endSlot, phase]
    exact phase

theorem Searching.next (searching : wire.Searching kind path index .direction)
    (more : index + 1 < 64) (bit : Bool) :
    (wire.slot bit).Searching kind (path.setBit index bit) (index + 1) .bit := by
  intro device member
  obtain ⟨before, present, rfl⟩ := mem_slot member
  have phase := searching before present
  have inside : index < 64 := by omega
  have along := Search.agrees_setBit path inside bit
  have here := Search.bit_setBit_same path inside bit
  rw [Device.rom_endSlot, Device.includes_endSlot]
  split at phase
  · rename_i active
    have same : before.rom.agrees (path.setBit index bit) index := active.2.trans along
    have last : index ≠ 63 := by omega
    rw [Device.endSlot, phase]
    by_cases kept : bit = before.rom.bit index
    · rw [if_pos ⟨active.1, Rom.agrees_succ_iff.mpr ⟨same, by rw [here, kept]⟩⟩]
      simp [kept, last]
    · rw [if_neg fun both => kept (by rw [(Rom.agrees_succ_iff.mp both.2).2, here])]
      simp [kept]
  · rename_i passive
    rw [if_neg, Device.endSlot, phase]
    · exact phase
    · rintro ⟨included, same⟩
      exact passive ⟨included, (Rom.agrees_succ_iff.mp same).1.trans along.symm⟩

theorem codes_of_natures {other : Wire} (same : other.natures = wire.natures) :
    kind.codes other.devices = kind.codes wire.devices := by
  rw [← Search.Kind.codes_nature, ← Search.Kind.codes_nature kind wire.devices]
  exact congrArg kind.codes same

theorem Searching.level_eq {step : SearchStep} {zero : Bool}
    (searching : wire.Searching kind path index step)
    (sends : ∀ device : Device, device.phase = .search index step →
      device.sending = some (device.rom.bit index != zero)) :
    wire.level = !Search.offers (kind.codes wire.devices) path index zero := by
  apply Bool.eq_iff_iff.mpr
  rw [level, List.all_eq_true, Bool.not_eq_true', ← Bool.not_eq_true, Search.offers_iff]
  constructor
  · rintro high ⟨code, member, same, bit⟩
    obtain ⟨device, present, included, rfl⟩ := Search.Kind.mem_codes.mp member
    have phase := searching device present
    rw [if_pos ⟨included, same⟩] at phase
    have loud := high device present
    rw [sends device phase, bit] at loud
    simp at loud
  · intro silent device present
    have phase := searching device present
    split at phase
    · rename_i active
      have other : device.rom.bit index ≠ zero := fun bit =>
        silent ⟨device.rom, Search.Kind.mem_codes.mpr ⟨device, present, active.1, rfl⟩, active.2, bit⟩
      rw [sends device phase, bne_iff_ne.mpr other]
      rfl
    · rw [Device.sending, phase]
      rfl

theorem Searching.triplet_answer (searching : wire.Searching kind path index .bit)
    (direction : Bool) :
    (wire.triplet direction).1 =
      Search.tripletOf (kind.codes wire.devices) path index direction := by
  have first : wire.level = !Search.offers (kind.codes wire.devices) path index false :=
    searching.level_eq fun device phase => by simp [Device.sending, phase]
  have second : (wire.slot true).level =
      !Search.offers (kind.codes wire.devices) path index true := by
    rw [← codes_of_natures (natures_slot wire true)]
    exact (searching.complement true).level_eq fun device phase => by simp [Device.sending, phase]
  unfold triplet Search.tripletOf
  cases zero : Search.offers (kind.codes wire.devices) path index false <;>
    cases one : Search.offers (kind.codes wire.devices) path index true <;>
      simp [first, second, zero, one]

theorem triplet_answered (wire : Wire) (direction : Bool)
    (answered : (wire.triplet direction).1.isUnanswered = false) :
    (wire.triplet direction).2 =
      ((wire.slot true).slot true).slot (wire.triplet direction).1.taken := by
  unfold triplet at answered ⊢
  dsimp only at answered ⊢
  split
  · rename_i both
    rw [if_pos both] at answered
    cases answered
  · rfl

end Wire

end SingleWire
