import SingleWire.Bus.Operation
import SingleWire.Search.Operation
import SingleWire.Proofs.Search.Progress

namespace SingleWire.Search

variable {ε : Type} {kind : Kind} {start line after : SimulatedLine} {master : Master}
  {state : State}

/-- A call for the next device, with the line before and after it. -/
structure Call (ε : Type) where
  outcome : Except (BusError ε) (Option Rom)
  before : SimulatedLine
  after : SimulatedLine

structure Call.Finds (call : Call ε) (code : Rom) : Prop where
  outcome : call.outcome = verdict code
  resets : call.after.resets = call.before.resets + 1
  slots : call.after.slots = call.before.slots + 200

structure Call.Ends (call : Call ε) : Prop where
  outcome : call.outcome = .ok none
  untouched : call.after = call.before

/-- The calls of a search made so far, the search and the line. Between them the bus may be used in
any way, also for other searches wherever they stand. -/
inductive Shared (ε : Type) (master : Master) (kind : Kind) (start : SimulatedLine) :
    List (Call ε) → State → SimulatedLine → Prop
  | begin : Shared ε master kind start [] (State.fresh kind) start
  | call {calls : List (Call ε)} {state : State} {line : SimulatedLine} :
      Shared ε master kind start calls state line →
      Shared ε master kind start
        (calls ++
          [⟨(perform master next state line).1, line, (perform (ε := ε) master next state line).2.2⟩])
        (perform (ε := ε) master next state line).2.1 (perform (ε := ε) master next state line).2.2
  | bus {calls : List (Call ε)} {state : State} {line : SimulatedLine} (operation : Bus.Operation) :
      Shared ε master kind start calls state line →
      Shared ε master kind start calls state
        ((master.onLine (operation.task (ε := ε)).run).run SimulatedLine.answer line).state
  | search {calls : List (Call ε)} {state : State} {line : SimulatedLine} (operation : Operation)
      (other : State) :
      Shared ε master kind start calls state line →
      Shared ε master kind start calls state
        (perform (ε := ε) master operation.task other line).2.2

/-- The call met the code at this place of the order, or the end behind the last one. -/
def Call.Meets (call : Call ε) (order : List Rom) (index : Nat) : Prop :=
  match order[index]? with
  | some code => call.Finds code
  | none => call.Ends

structure Shared.Holds (master : Master) (kind : Kind) (start : SimulatedLine) (codes : List Rom)
    (calls : List (Call ε)) (state : State) (line : SimulatedLine) : Prop where
  keeps : master.Keeps start line
  same : state.kind = kind
  stands : ∃ latest, Stands codes state latest ∧
    ahead codes latest = (Rom.inOrder codes).drop calls.length ∧ (latest = none → calls = [])
  met : ∀ (index : Nat) (call : Call ε), calls[index]? = some call →
    call.Meets (Rom.inOrder codes) index

variable {codes : List Rom} {calls : List (Call ε)}

theorem met_append {last : Call ε} {order : List Rom}
    (met : ∀ (index : Nat) (call : Call ε), calls[index]? = some call → call.Meets order index)
    (meets : last.Meets order calls.length) :
    ∀ (index : Nat) (call : Call ε), (calls ++ [last])[index]? = some call →
      call.Meets order index := by
  intro index call present
  rcases Nat.lt_or_ge index calls.length with earlier | later
  · rw [List.getElem?_append_left earlier] at present
    exact met index call present
  · rw [List.getElem?_append_right later] at present
    obtain ⟨zero, same⟩ := List.getElem?_eq_some_iff.mp present
    obtain rfl : index = calls.length := by
      simp only [List.length_singleton] at zero
      omega
    rw [List.getElem_singleton] at same
    rwa [← same]

section

variable (free : start.stuckLow = false) (taking : kind.codes start.devices = codes)
  (someone : codes ≠ []) (families : ∀ code ∈ codes, code.family ≠ 0)
include free taking someone families

theorem Shared.Holds.call (holds : Shared.Holds master kind start codes calls state line) :
    Shared.Holds master kind start codes
      (calls ++
        [⟨(perform master next state line).1, line, (perform (ε := ε) master next state line).2.2⟩])
      (perform (ε := ε) master next state line).2.1
      (perform (ε := ε) master next state line).2.2 := by
  obtain ⟨keeps, same, ⟨latest, stands, remaining, begun⟩, met⟩ := holds
  cases first : ahead codes latest with
  | nil =>
      rw [first] at remaining
      have beyond : (Rom.inOrder codes)[calls.length]? = none := by
        rw [List.getElem?_eq_none_iff]
        exact List.drop_eq_nil_iff.mp remaining.symm
      cases latest with
      | none =>
          -- Before any call something is ahead, since someone takes part.
          rw [ahead_none] at first
          obtain ⟨code, member⟩ := List.exists_mem_of_ne_nil codes someone
          have listed : code ∈ Rom.inOrder codes := Rom.mem_inOrder.mpr member
          rw [first] at listed
          exact absurd listed List.not_mem_nil
      | some code =>
          rw [perform_next_exhausted (stands.exhausted_iff.mpr first) line]
          refine ⟨keeps, same, ⟨some code, stands, ?_, fun none => nomatch none⟩, ?_⟩
          · rw [first, List.length_append, ← List.drop_drop, ← remaining, List.drop_nil]
          · apply met_append met
            rw [Call.Meets, beyond]
            exact ⟨rfl, rfl⟩
  | cons code rest =>
      rw [first] at remaining
      have here : (Rom.inOrder codes)[calls.length]? = some code := by
        rw [← List.head?_drop, ← remaining, List.head?_cons]
      have there : state.kind.codes line.devices = codes := by
        rw [same, keeps.codes, taking]
      obtain ⟨after, performed, kept, slots, resets⟩ :=
        stands.perform_next (ε := ε) keeps.drives (keeps.stuckLow.trans free) there families first
      rw [performed]
      refine ⟨keeps.trans kept, same, ⟨some code, ?_, ?_, fun none => nomatch none⟩, ?_⟩
      · exact Stands.landed stands.untargeted (first_ahead first).1
      · rw [ahead_tail first, List.length_append, ← List.drop_drop, ← remaining,
          List.length_singleton, List.drop_one, List.tail_cons]
      · apply met_append met
        rw [Call.Meets, here]
        dsimp only
        exact ⟨by dsimp only, resets, slots⟩

theorem Shared.holds (drives : master.Drives start)
    (shared : Shared ε master kind start calls state line) :
    Shared.Holds master kind start codes calls state line := by
  induction shared with
  | begin =>
      refine ⟨⟨drives, rfl, rfl⟩, rfl, ⟨none, .start rfl rfl rfl, ?_, fun _ => rfl⟩, ?_⟩
      · rw [ahead_none, List.length_nil, List.drop_zero]
      · intro index call present
        rw [List.getElem?_nil] at present
        cases present
  | call _ ih => exact ih.call free taking someone families
  | @bus calls state line operation _ ih =>
      exact ⟨ih.keeps.trans (ih.keeps.drives.keeps_onLine _), ih.same, ih.stands, ih.met⟩
  | @search calls state line operation other _ ih =>
      exact ⟨ih.keeps.trans (perform_keeps ih.keeps.drives _ other), ih.same, ih.stands, ih.met⟩

end

/-- However a fresh search shares the bus, its calls find the codes of those that take part one by
one in order, each at the cost of one reset and 200 slots. It is exhausted exactly when all are
found; from then on a call changes neither the search nor the line. -/
theorem shared_search_undisturbed (drives : master.Drives start) (free : start.stuckLow = false)
    (someone : kind.codes start.devices ≠ [])
    (families : ∀ code ∈ kind.codes start.devices, code.family ≠ 0)
    (shared : Shared ε master kind start calls state line) :
    (∀ (index : Nat) (call : Call ε), calls[index]? = some call →
      call.Meets (Rom.inOrder (kind.codes start.devices)) index) ∧
    (state.exhausted = true ↔ (Rom.inOrder (kind.codes start.devices)).length ≤ calls.length) ∧
    (state.exhausted = true → perform (ε := ε) master next state line = (.ok none, state, line)) := by
  obtain ⟨keeps, same, ⟨latest, stands, remaining, begun⟩, met⟩ :=
    shared.holds free rfl someone families drives
  refine ⟨met, ?_, ?_⟩
  · cases latest with
    | none =>
        cases stands with
        | start untargeted more fresh =>
            obtain ⟨code, member⟩ := List.exists_mem_of_ne_nil _ someone
            have listed : 0 < (Rom.inOrder (kind.codes start.devices)).length :=
              List.length_pos_of_mem (Rom.mem_inOrder.mpr member)
            rw [more, begun rfl, List.length_nil]
            exact iff_of_false Bool.false_ne_true (Nat.not_le_of_lt listed)
    | some code => rw [stands.exhausted_iff, remaining, List.drop_eq_nil_iff]
  · intro exhausted
    exact perform_next_exhausted exhausted line

theorem shared_search_undisturbed_by_two :
    let corrupt : Rom := ⟨0x0000000000000110⟩
    let high : Rom := ⟨0x0a00000000000101⟩
    let devices := [high, corrupt].map fun rom => ({ rom, alarm := true } : Device)
    let start := (SimulatedLine.populate { capacity := 2 } devices).1
    ∃ (first second third : Call Empty) (state : State) (line : SimulatedLine),
      Shared Empty ⟨Timing.standard, 12⟩ .alarmed start [first, second, third] state line ∧
      first.outcome = .error .invalidCrc ∧ second.outcome = .ok (some high) ∧
      third.outcome = .ok none ∧ state.exhausted = true := by
  intro corrupt high devices start
  have new : ∀ device ∈ devices, device.IsNew :=
    List.forall_mem_map.mpr fun rom _ => Device.isNew_of_rom rom true
  have order : Rom.inOrder (Kind.alarmed.codes start.devices) = [corrupt, high] :=
    Rom.inOrder_eq (by decide +kernel) fun rom => by
      change rom ∈ [corrupt, high] ↔ rom ∈ [high, corrupt]
      simp only [List.mem_cons, List.not_mem_nil, or_false]
      exact or_comm
  have families : ∀ code ∈ Kind.alarmed.codes start.devices, code.family ≠ 0 := by
    change ∀ code ∈ [high, corrupt], code.family ≠ 0
    decide +kernel
  have rejected : corrupt.isValid = false := by decide +kernel
  have accepted : high.isValid = true := by decide +kernel
  obtain ⟨first, second, third, state, line, shared⟩ :
      ∃ first second third state line,
        Shared Empty ⟨Timing.standard, 12⟩ .alarmed start [first, second, third] state line :=
    ⟨_, _, _, _, _, ((((Shared.begin.call).bus (.writeByte 0x44)).call).search .next
      (State.fresh .normal)).call⟩
  obtain ⟨met, exhausted, -⟩ :=
    shared_search_undisturbed (Master.Drives.populated new 2) rfl (by decide) families shared
  rw [order] at met exhausted
  refine ⟨first, second, third, state, line, shared, ?_, ?_, ?_, exhausted.mpr ?_⟩
  · rw [(met 0 first rfl : first.Finds corrupt).outcome, verdict, rejected]
    rfl
  · rw [(met 1 second rfl : second.Finds high).outcome, verdict, accepted]
    rfl
  · exact (met 2 third rfl : third.Ends).outcome
  · exact Nat.le_succ 2

end SingleWire.Search
