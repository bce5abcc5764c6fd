import SingleWire.Proofs.AtWork
import SingleWire.Proofs.Search.Triplets

namespace SingleWire

namespace Search

variable {ε : Type} {kind : Kind} {start state : State} {codes : List Rom} {path : Rom}
  {index count : Nat} {wire after : Wire}

/-- The last zero branch among the family bits walked so far, or the one known before. -/
def familyZero (codes : List Rom) (path : Rom) (count old : Nat) : Nat :=
  if lastZero codes path (min count 8) = 0 then old else lastZero codes path (min count 8)

def State.along (state : State) (codes : List Rom) (path : Rom) (count : Nat) : State :=
  { state with rom := path, familyDiscrepancy := familyZero codes path count state.familyDiscrepancy }

def walk (count : Nat) : SearchTask ε Nat := (List.range count).foldlM visit 0

theorem walk_succ (count : Nat) :
    (walk (count + 1) : SearchTask ε Nat) = walk count >>= fun last => visit last count := by
  simp [walk, List.range_succ, List.foldlM_append]

theorem eval_visit (last : Nat)
    (answered : (wire.triplet (state.direction index)).1.isUnanswered = false) :
    eval (Wire.answer (ε := ε)) (visit last index) state wire =
      (.ok (if (wire.triplet (state.direction index)).1.leavesOne then index + 1 else last),
        state.follow index (wire.triplet (state.direction index)).1,
        (wire.triplet (state.direction index)).2) := by
  have triplet : Task.eval (Wire.answer (ε := ε)) (Bus.triplet (state.direction index)) wire =
      (.ok (wire.triplet (state.direction index)).1, (wire.triplet (state.direction index)).2) := rfl
  simp only [visit, eval_bind, eval_get, eval_onBus, triplet, answered, Bool.false_eq_true, if_false,
    eval_set, eval_pure]

theorem familyZero_succ (old : Nat) :
    familyZero codes path (count + 1) old =
      if leavesOne codes path count && decide (count < 8) then count + 1
      else familyZero codes path count old := by
  unfold familyZero
  by_cases family : count < 8
  · rw [min_eq_left (by omega), min_eq_left (by omega), lastZero]
    cases leavesOne codes path count <;> simp [family]
  · rw [min_eq_right (by omega), min_eq_right (by omega)]
    simp [family]

theorem familyZero_congr {other : Rom} (same : path.agrees other count) (old : Nat) :
    familyZero codes path count old = familyZero codes other count old := by
  unfold familyZero
  rw [lastZero_congr (same.mono (min_le_left count 8))]

theorem familyZero_familyZero (count old : Nat) :
    familyZero codes path 64 (familyZero codes path count old) = familyZero codes path 64 old := by
  by_cases closed : lastZero codes path 8 = 0
  · have none : lastZero codes path (min count 8) = 0 :=
      Nat.eq_zero_of_le_zero (closed ▸ lastZero_mono (min_le_right count 8))
    simp [familyZero, none]
  · simp [familyZero, closed]

structure Walked (ε : Type) (start : State) (kind : Kind) (wire : Wire) (count : Nat) (path : Rom)
    (after : Wire) : Prop where
  result : eval (Wire.answer (ε := ε)) (walk count) start wire =
    (.ok (lastZero (kind.codes wire.devices) path count),
      start.along (kind.codes wire.devices) path count, after)
  led : Led (kind.codes wire.devices) (steering start.rom start.discrepancy) path count
  ahead : ∀ index < 64, count ≤ index → path.bit index = start.rom.bit index
  searching : count < 64 → after.Searching kind path count .bit
  natures : after.natures = wire.natures
  slots : after.slots = wire.slots + 3 * count
  resets : after.resets = wire.resets

theorem Walked.begin (searching : wire.Searching kind start.rom 0 .bit)
    (someone : kind.codes wire.devices ≠ []) : Walked ε start kind wire 0 start.rom wire := by
  obtain ⟨code, member⟩ := List.exists_mem_of_ne_nil _ someone
  refine ⟨rfl, ⟨⟨code, member, ?_⟩, ?_⟩, fun _ _ _ => rfl, fun _ => searching, rfl, rfl, rfl⟩
  · exact fun index inside => absurd inside (Nat.not_lt_zero index)
  · exact fun index inside => absurd inside (Nat.not_lt_zero index)

theorem Walked.direction (walked : Walked ε start kind wire count path after) (more : count < 64) :
    (start.along (kind.codes wire.devices) path count).direction count =
      steering start.rom start.discrepancy count := by
  simp only [State.direction, State.along, steering, walked.ahead count more (Nat.le_refl count)]

theorem along_follow {triplet : Triplet} (inside : count < 64)
    (leaves : triplet.leavesOne = leavesOne codes (path.setBit count triplet.taken) count) :
    (start.along codes path count).follow count triplet =
      start.along codes (path.setBit count triplet.taken) (count + 1) := by
  have same := agrees_setBit path inside triplet.taken
  simp only [State.follow, State.along, leaves, familyZero_succ, familyZero_congr same]

theorem Walked.step (walked : Walked ε start kind wire count path after) (more : count < 64) :
    ∃ path after, Walked ε start kind wire (count + 1) path after := by
  let codes := kind.codes wire.devices
  let triplet := tripletOf codes path count (steering start.rom start.discrepancy count)
  have direction := walked.direction more
  have answer : (after.triplet (steering start.rom start.discrepancy count)).1 = triplet := by
    rw [(walked.searching more).triplet_answer, Wire.codes_of_natures walked.natures]
  have answered : triplet.isUnanswered = false := tripletOf_answered walked.led.reached
  have leaves : triplet.leavesOne = leavesOne codes (path.setBit count triplet.taken) count :=
    tripletOf_leavesOne more walked.led.reached
  have slots := Wire.triplet_answered after _ (answer ▸ answered)
  rw [answer] at slots
  have same := agrees_setBit path more triplet.taken
  refine ⟨path.setBit count triplet.taken, ((after.slot true).slot true).slot triplet.taken,
    ?_, walked.led.step more, ?_, ?_, ?_, ?_, ?_⟩
  · rw [walk_succ, eval_bind, walked.result]
    dsimp only
    rw [eval_visit, direction, answer, slots, along_follow more leaves, leaves,
      lastZero_congr same]
    · rfl
    · rw [direction, answer]
      exact answered
  · intro index inside later
    rw [Rom.bit_setBit path count index _ inside, if_neg (by omega)]
    exact walked.ahead index inside (by omega)
  · intro again
    exact (((walked.searching more).complement true).direction true).next again triplet.taken
  · simp only [Wire.natures_slot, walked.natures]
  · simp only [Wire.slot, walked.slots]
    omega
  · exact walked.resets

theorem exists_walked (searching : wire.Searching kind start.rom 0 .bit)
    (someone : kind.codes wire.devices ≠ []) (within : count ≤ 64) :
    ∃ path after, Walked ε start kind wire count path after := by
  induction count with
  | zero => exact ⟨start.rom, wire, Walked.begin searching someone⟩
  | succ count ih =>
      obtain ⟨path, after, walked⟩ := ih (by omega)
      exact walked.step (by omega)

end Search

namespace Wire

def opened (wire : Wire) (kind : Search.Kind) : Wire :=
  { (bitsOf kind.command).foldl slot wire.reset with powered := false }

variable {ε : Type} (wire : Wire) (kind : Search.Kind)

theorem eval_command :
    Task.eval answer (Bus.writeByte kind.command : Task (Bus.interface ε) ε Unit) wire.reset =
      (.ok (), wire.opened kind) := by
  rw [Bus.writeByte, Task.eval_bind, eval_writeBits]
  rfl

theorem searching_opened (path : Rom) : (wire.opened kind).Searching kind path 0 .bit := by
  have waiting : ∀ device ∈ wire.reset.devices, device.phase = .romCommand 0 0 := by
    intro device member
    obtain ⟨before, _, rfl⟩ := List.mem_map.mp member
    rfl
  exact searching_command waiting kind path

theorem natures_opened : (wire.opened kind).natures = wire.natures :=
  (natures_foldl_slot _ wire.reset).trans (natures_reset wire)

theorem slots_opened : (wire.opened kind).slots = wire.slots + 8 :=
  (foldl_slot (bitsOf kind.command) wire.reset).2.1

theorem resets_opened : (wire.opened kind).resets = wire.resets + 1 :=
  (foldl_slot (bitsOf kind.command) wire.reset).2.2

theorem natures_triplet (direction : Bool) : (wire.triplet direction).2.natures = wire.natures := by
  unfold triplet
  dsimp only
  split <;> simp only [natures_slot]

end Wire

namespace Search

variable {ε : Type} {start state : State} {wire : Wire}

def State.landed (start : State) (codes : List Rom) (path : Rom) : State :=
  (start.along codes path 64).conclude (lastZero codes path 64)

theorem eval_pass (someone : start.kind.codes wire.devices ≠ []) :
    ∃ path after,
      eval (Wire.answer (ε := ε)) pass start wire =
        (.ok path, start.landed (start.kind.codes wire.devices) path, after) ∧
      Led (start.kind.codes wire.devices) (steering start.rom start.discrepancy) path 64 ∧
      after.natures = wire.natures ∧ after.slots = wire.slots + 200 ∧
      after.resets = wire.resets + 1 := by
  have present : wire.devices.isEmpty = false := by
    cases devices : wire.devices with
    | nil => exact absurd (by rw [devices]; rfl) someone
    | cons device rest => rfl
  have same := @Wire.codes_of_natures start.kind wire _ (wire.natures_opened start.kind)
  obtain ⟨path, after, walked⟩ := @exists_walked ε start.kind start 64 (wire.opened start.kind)
    (wire.searching_opened start.kind start.rom) (by rwa [same]) (Nat.le_refl 64)
  have result := walked.result
  have led := walked.led
  rw [same] at result led
  refine ⟨path, after, ?_, led, ?_, ?_, ?_⟩
  · simp only [pass, eval_bind, eval_onBus, Wire.eval_demandPresence, present, Bool.false_eq_true,
      if_false, eval_get, Wire.eval_command]
    rw [← walk, result]
    rfl
  · rw [walked.natures, Wire.natures_opened]
  · rw [walked.slots, Wire.slots_opened]
  · rw [walked.resets, Wire.resets_opened]

theorem eval_visit_unanswered (last index : Nat)
    (unanswered : (wire.triplet (state.direction index)).1.isUnanswered = true) :
    eval (Wire.answer (ε := ε)) (visit last index) state wire =
      (.error .busCollision, state, (wire.triplet (state.direction index)).2) := by
  have triplet : Task.eval (Wire.answer (ε := ε)) (Bus.triplet (state.direction index)) wire =
      (.ok (wire.triplet (state.direction index)).1, (wire.triplet (state.direction index)).2) := rfl
  simp only [visit, eval_bind, eval_get, eval_onBus, triplet, unanswered, if_true, eval_throw]

theorem eval_pass_nobody (nobody : start.kind.codes wire.devices = []) :
    ∃ error after,
      (error = .noDevicePresent ∨ error = .busCollision) ∧
      eval (Wire.answer (ε := ε)) pass start wire = (.error error, start, after) ∧
      after.natures = wire.natures := by
  cases present : wire.devices.isEmpty with
  | true =>
      refine ⟨.noDevicePresent, wire.reset, .inl rfl, ?_, wire.natures_reset⟩
      simp only [pass, eval_bind, eval_onBus, Wire.eval_demandPresence, present, if_true]
  | false =>
      let opened := wire.opened start.kind
      have same := @Wire.codes_of_natures start.kind wire opened (wire.natures_opened start.kind)
      have unanswered : (opened.triplet (start.direction 0)).1.isUnanswered = true := by
        rw [(wire.searching_opened start.kind start.rom).triplet_answer, same, nobody]
        rfl
      refine ⟨.busCollision, (opened.triplet (start.direction 0)).2, .inr rfl, ?_, ?_⟩
      · simp only [pass, eval_bind, eval_onBus, Wire.eval_demandPresence, present,
          Bool.false_eq_true, if_false, eval_get, Wire.eval_command]
        rw [List.range_succ_eq_map, List.foldlM_cons, eval_bind, eval_visit_unanswered 0 0 unanswered]
      · rw [Wire.natures_triplet, Wire.natures_opened]

end Search

end SingleWire
