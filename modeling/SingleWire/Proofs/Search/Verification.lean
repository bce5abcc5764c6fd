import SingleWire.Proofs.Checksum
import SingleWire.Proofs.Search.Progress

namespace SingleWire

variable {ε σ : Type} {line : SimulatedLine} {master : Master}
variable {codes : List Rom} {rom path : Rom}

namespace Rom

/-- Another code of the list differs from this one in the last bit alone, and has the one there. -/
def Shadowed (rom : Rom) (codes : List Rom) : Prop :=
  rom.bit 63 = false ∧ rom.setBit 63 true ∈ codes

instance (rom : Rom) (codes : List Rom) : Decidable (rom.Shadowed codes) :=
  inferInstanceAs (Decidable (_ ∧ _))

end Rom

namespace Search

variable {state : State} {wire : Wire}

theorem Led.toward (led : Led codes (steering rom 64) path 64) (member : rom ∈ codes) :
    rom.agrees path 63 := by
  apply led.follows member (by omega)
  intro index early _
  exact (steering_before (Nat.succ_lt_succ early)).symm

theorem Led.toward_eq_iff (led : Led codes (steering rom 64) path 64) (member : rom ∈ codes) :
    path = rom ↔ ¬ rom.Shadowed codes := by
  have along := led.toward member
  have steered : Forks codes path 63 → path.bit 63 = true := led.steered 63 (by decide)
  constructor
  · rintro rfl ⟨zero, twin⟩
    have fork : Forks codes path 63 := by
      refine ⟨path.setBit 63 true, twin, (agrees_setBit path (by decide) true).symm, ?_⟩
      rw [bit_setBit_same path (by decide), zero]
      exact Bool.false_ne_true.symm
    exact Bool.false_ne_true (zero.symm.trans (steered fork))
  · intro alone
    by_contra differ
    have last : rom.bit 63 ≠ path.bit 63 := by
      intro same
      exact differ (Rom.eq_of_agrees (Rom.agrees_succ_iff.mpr ⟨along, same⟩)).symm
    have one : path.bit 63 = true := steered ⟨rom, member, along, last⟩
    have zero : rom.bit 63 = false := by
      rw [one] at last
      exact Bool.eq_false_of_not_eq_true last
    have twin : rom.setBit 63 true = path := by
      refine Rom.eq_of_agrees (Rom.agrees_succ_iff.mpr ⟨?_, ?_⟩)
      · exact (agrees_setBit rom (by decide) true).symm.trans along
      · rw [bit_setBit_same rom (by decide), one]
    exact alone ⟨zero, by rw [twin]; exact led.mem⟩

section

variable {handle : Handler (Bus.interface ε) σ} {bus : σ}

theorem eval_verify :
    (eval handle (verify rom) state bus).1 =
      (eval handle next (state.toward rom) bus).1.map (· == some rom) := by
  simp only [verify, eval_bind, eval_modify, eval_attempt]
  cases (eval handle next (state.toward rom) bus).1 <;> rfl

theorem eval_judge_outcome (untargeted : state.family = 0) :
    (eval handle (judge path) state bus).1 =
      if path.family = 0 then .ok none else verdict path := by
  by_cases family : path.family = 0
  · simp only [judge, eval_bind, eval_get, family, if_true, eval_set, eval_pure]
  · rw [eval_judge untargeted family, if_neg family]

end

theorem eval_verify_passed (someone : state.kind.codes wire.devices ≠ []) :
    ∃ path, Led (state.kind.codes wire.devices) (steering rom 64) path 64 ∧
      (eval (Wire.answer (ε := ε)) (verify rom) state wire).1 =
        (if path.family = 0 then .ok none else verdict path).map (· == some rom) := by
  obtain ⟨path, after, passed, led, -⟩ := @eval_pass ε (state.toward rom) wire someone
  refine ⟨path, led, ?_⟩
  rw [eval_verify, eval_next_passed rfl passed, eval_judge_outcome rfl]

theorem said_present_iff (valid : rom.isValid = true) (family : rom.family ≠ 0) :
    (if path.family = 0 then .ok none else verdict path : Except (BusError ε) (Option Rom)).map
        (· == some rom) = .ok true ↔ path = rom := by
  constructor
  · intro said
    split at said
    · cases said
    · rw [verdict] at said
      split at said
      · exact Option.some_inj.mp (beq_iff_eq.mp (Except.ok.inj said))
      · cases said
  · rintro rfl
    rw [if_neg family, verdict, if_pos valid]
    simp [Except.map]

/-- A valid code is said to be there exactly where a device that takes part has it and none shadows
it. A device whose code is shadowed is not found: its search fails on the other code. -/
theorem verify_present_iff (drives : master.Drives line) (free : line.stuckLow = false)
    (valid : rom.isValid = true) (family : rom.family ≠ 0) (state : State) :
    ((perform (ε := ε) master (verify rom) state line).1 = .ok true ↔
      rom ∈ state.kind.codes line.devices ∧ ¬ rom.Shadowed (state.kind.codes line.devices)) ∧
    (rom ∈ state.kind.codes line.devices → rom.Shadowed (state.kind.codes line.devices) →
      (perform (ε := ε) master (verify rom) state line).1 = .error .invalidCrc) := by
  obtain ⟨after, performed, -⟩ := perform_wire drives free (beginsWithReset_verify (ε := ε) rom) state
  rw [performed, ← line.codes_wire state.kind]
  dsimp only
  by_cases nobody : state.kind.codes line.wire.devices = []
  · obtain ⟨bus, ended, -⟩ := @eval_next_nobody ε (state.toward rom) line.wire rfl nobody
    rw [eval_verify, ended, nobody]
    constructor
    · apply iff_of_false
      · intro said
        cases said
      · intro present
        exact List.not_mem_nil present.1
    · intro member
      exact absurd member List.not_mem_nil
  · obtain ⟨path, led, said⟩ := @eval_verify_passed ε rom state line.wire nobody
    rw [said, said_present_iff valid family]
    refine ⟨⟨?_, fun present => (led.toward_eq_iff present.1).mpr present.2⟩, ?_⟩
    · rintro rfl
      exact ⟨led.mem, (led.toward_eq_iff led.mem).mp rfl⟩
    · intro member shadowed
      have along := led.toward member
      have other : path ≠ rom := fun same => (led.toward_eq_iff member).mp same shadowed
      have path_family : path.family ≠ 0 := by
        rwa [← Rom.family_eq_iff.mpr (along.mono (by decide))]
      have corrupt : ¬ path.isValid = true := fun path_valid =>
        other (Rom.eq_of_isValid path_valid valid (along.mono (by decide)).symm)
      rw [if_neg path_family, verdict, if_neg corrupt]
      rfl

theorem verify_shadowed_pair :
    let rom : Rom := ⟨0x1e00000000000028⟩
    let twin : Rom := ⟨0x9e00000000000028⟩
    let devices := [rom, twin].map fun rom => ({ rom } : Device)
    let line := (SimulatedLine.populate { capacity := 2 } devices).1
    (perform (ε := Empty) ⟨Timing.standard, 12⟩ (verify rom) (State.fresh .normal) line).1 =
      .error .invalidCrc := by
  intro rom twin devices line
  have new : ∀ device ∈ devices, device.IsNew :=
    List.forall_mem_map.mpr fun rom _ => Device.isNew_of_rom rom false
  have valid : rom.isValid = true := by decide +kernel
  have family : rom.family ≠ 0 := by decide +kernel
  have shadowed : rom.Shadowed [rom, twin] := by decide +kernel
  exact (verify_present_iff (Master.Drives.populated new 2) rfl valid family (State.fresh .normal)).2
    List.mem_cons_self shadowed

end Search

end SingleWire
