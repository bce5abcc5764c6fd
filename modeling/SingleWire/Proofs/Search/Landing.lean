import Mathlib.Data.Nat.Find
import SingleWire.Proofs.Search.Progress

namespace SingleWire.Search

variable {ε : Type} {codes left : List Rom} {steer : Nat → Bool} {path : Rom} {count index : Nat}
  {line : SimulatedLine} {master : Master}

def branch (left : List Rom) (index : Nat) (steered : Bool) : Bool :=
  if left.all fun code => code.bit index then true
  else if left.all fun code => !code.bit index then false
  else steered

/-- The codes left after the first bits of a descent. -/
def remaining (codes : List Rom) (steer : Nat → Bool) : (count : Nat) → List Rom
  | 0 => codes
  | count + 1 =>
      (remaining codes steer count).filter fun code =>
        code.bit count == branch (remaining codes steer count) count (steer count)

def ZeroOfTwo (codes : List Rom) (path : Rom) : (bit : Nat) → Prop
  | 0 => False
  | index + 1 =>
      path.bit index = false ∧
        ∀ value, ∃ code ∈ codes, code.agrees path index ∧ code.bit index = value

instance (codes : List Rom) (path : Rom) : DecidablePred (ZeroOfTwo codes path)
  | 0 => inferInstanceAs (Decidable False)
  | _ + 1 => inferInstanceAs (Decidable (_ ∧ _))

/-- The highest such bit among the first `count`, or zero if there is none. -/
def highestZero (codes : List Rom) (path : Rom) (count : Nat) : Nat :=
  Nat.findGreatest (ZeroOfTwo codes path) count

theorem Led.mono {fewer : Nat} (led : Led codes steer path count) (less : fewer ≤ count) :
    Led codes steer path fewer where
  reached := by
    obtain ⟨code, member, same⟩ := led.reached
    exact ⟨code, member, same.mono less⟩
  steered index inside := led.steered index (Nat.lt_of_lt_of_le inside less)

theorem Led.branch_eq (led : Led codes steer path (index + 1)) :
    branch (codes.filter fun code => decide (code.agrees path index)) index (steer index) =
      path.bit index := by
  obtain ⟨code, member, same⟩ := led.reached
  obtain ⟨along, here⟩ := Rom.agrees_succ_iff.mp same
  have shares : code ∈ codes.filter fun code => decide (code.agrees path index) :=
    List.mem_filter.mpr ⟨member, decide_eq_true along⟩
  rw [branch]
  split
  · rename_i ones
    rw [← here, List.all_eq_true.mp ones code shares]
  · rename_i some_zero
    split
    · rename_i zeros
      have zero : code.bit index = false := by simpa using List.all_eq_true.mp zeros code shares
      rw [← here, zero]
    · rename_i some_one
      -- Both values are left, so one of the codes goes the other way.
      have other : ∀ value, ∃ code ∈ codes, code.agrees path index ∧ code.bit index = value := by
        intro value
        cases value with
        | false => simpa [and_assoc] using some_zero
        | true => simpa [and_assoc] using some_one
      obtain ⟨rival, present, shared, opposite⟩ := other (!path.bit index)
      have fork : Forks codes path index := by
        refine ⟨rival, present, shared, ?_⟩
        rw [opposite]
        exact Bool.not_ne_self _
      exact (led.steered index (Nat.lt_succ_self index) fork).symm

theorem Led.remaining_eq (led : Led codes steer path count) :
    remaining codes steer count = codes.filter fun code => decide (code.agrees path count) := by
  induction count with
  | zero =>
      have all : ∀ code : Rom, code.agrees path 0 := fun code index inside =>
        absurd inside (Nat.not_lt_zero index)
      simp [remaining, all]
  | succ count ih =>
      rw [remaining, ih (led.mono (Nat.le_succ count)), led.branch_eq, List.filter_filter]
      apply List.filter_congr
      intro code _
      simp [Rom.agrees_succ_iff, Bool.and_comm, beq_eq_decide]

theorem Led.remaining_whole (led : Led codes steer path 64) :
    remaining codes steer 64 = codes.filter fun code => decide (code = path) := by
  rw [led.remaining_eq]
  apply List.filter_congr
  intro code _
  apply decide_eq_decide.mpr
  constructor
  · exact Rom.eq_of_agrees
  · rintro rfl index _
    rfl

theorem leavesOne_iff_zeroOfTwo (member : path ∈ codes) :
    leavesOne codes path index = true ↔ ZeroOfTwo codes path (index + 1) := by
  rw [leavesOne_iff]
  constructor
  · rintro ⟨zero, one⟩
    refine ⟨zero, fun value => ?_⟩
    cases value with
    | false => exact ⟨path, member, fun _ _ => rfl, zero⟩
    | true => exact one
  · rintro ⟨zero, both⟩
    exact ⟨zero, both true⟩

theorem lastZero_eq_highestZero (member : path ∈ codes) (count : Nat) :
    lastZero codes path count = highestZero codes path count := by
  induction count with
  | zero => rfl
  | succ count ih =>
      rw [lastZero, highestZero, Nat.findGreatest_succ, ← highestZero, ih]
      simp only [leavesOne_iff_zeroOfTwo member]

theorem State.landed_eq (state : State) (member : path ∈ codes) :
    state.landed codes path =
      { state with
        rom := path
        discrepancy := highestZero codes path 64
        exhausted := highestZero codes path 64 == 0
        familyDiscrepancy :=
          if highestZero codes path 8 = 0 then state.familyDiscrepancy
          else highestZero codes path 8 } := by
  simp only [← lastZero_eq_highestZero member]
  rfl

/-- A pass on a line that some device takes part on ends on the code of one of them, the only one
that the descent leaves, and notes the highest bit at which that code has the zero of two; without
one the search is exhausted. Among the family bits an older note stays if there is no new one. -/
theorem pass_lands {state : State} (drives : master.Drives line) (free : line.stuckLow = false)
    (taking : state.kind.codes line.devices = codes) (someone : codes ≠ []) :
    ∃ path after,
      path ∈ codes ∧
      remaining codes (steering state.rom state.discrepancy) 64 =
        codes.filter (fun code => decide (code = path)) ∧
      perform (ε := ε) master pass state line =
        (.ok path,
          { state with
            rom := path
            discrepancy := highestZero codes path 64
            exhausted := highestZero codes path 64 == 0
            familyDiscrepancy :=
              if highestZero codes path 8 = 0 then state.familyDiscrepancy
              else highestZero codes path 8 },
          after) := by
  subst taking
  obtain ⟨after, performed, -⟩ :=
    perform_wire drives free (beginsWithReset_pass (ε := ε)) state
  have same := line.codes_wire state.kind
  obtain ⟨path, bus, passed, led, -⟩ := @eval_pass ε state line.wire (by rwa [same])
  rw [passed] at performed
  rw [same] at performed led
  refine ⟨path, after, led.mem, led.remaining_whole, ?_⟩
  rw [performed, state.landed_eq led.mem]

theorem pass_lands_among_five :
    let codes : List Rom := [⟨0x080⟩, ⟨0x082⟩, ⟨0x096⟩, ⟨0x186⟩, ⟨0x086⟩]
    let devices := codes.map fun rom => ({ rom } : Device)
    let line := (SimulatedLine.populate { capacity := 5 } devices).1
    let state : State :=
      { kind := .normal, discrepancy := 3, familyDiscrepancy := 7, rom := ⟨0xfffffffffffffffe⟩ }
    ∃ after, perform (ε := Empty) ⟨Timing.standard, 12⟩ pass state line =
      (.ok ⟨0x086⟩,
        { kind := .normal, discrepancy := 9, familyDiscrepancy := 5, rom := ⟨0x086⟩ }, after) := by
  intro codes devices line state
  have new : ∀ device ∈ devices, device.IsNew :=
    List.forall_mem_map.mpr fun rom _ => Device.isNew_of_rom rom false
  have taking : state.kind.codes line.devices = codes := by decide +kernel
  have only : remaining codes (steering state.rom state.discrepancy) 64 = [⟨0x086⟩] := by
    decide +kernel
  obtain ⟨path, after, member, left, performed⟩ :=
    @pass_lands Empty codes line ⟨Timing.standard, 12⟩ state (Master.Drives.populated new 5) rfl
      taking (by decide)
  have landed : (⟨0x086⟩ : Rom) = path := by
    have listed : (⟨0x086⟩ : Rom) ∈ codes.filter fun code => decide (code = path) := by
      rw [← left, only]
      exact List.mem_singleton_self _
    exact of_decide_eq_true (List.mem_filter.mp listed).2
  subst landed
  have highest : highestZero codes ⟨0x086⟩ 64 = 9 := by decide +kernel
  have family : highestZero codes ⟨0x086⟩ 8 = 5 := by decide +kernel
  rw [highest, family] at performed
  exact ⟨after, performed⟩

end SingleWire.Search
