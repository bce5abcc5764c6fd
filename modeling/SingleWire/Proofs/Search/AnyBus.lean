import SingleWire.Proofs.Search.Enumeration
import SingleWire.Search.Operation

/-!
Searches on a bus of which nothing is known: it may answer anything, fail at any request and be
another one at each operation. Every way out of a call for the next device is one case of `Exit`;
what holds of a search after any operations is read off those cases.
-/

namespace SingleWire

namespace Search

/-- A search that came about by operations on it, on any buses. An enumeration may have made any
number of passes. -/
inductive Reached (kind : Kind) : State → Prop
  | fresh : Reached kind (State.fresh kind)
  | ofFamily (family : UInt8) : Reached kind (State.ofFamily kind family)
  | operate {ε σ : Type} {state : State} (handle : Handler (Bus.interface ε) σ) (bus : σ)
      (operation : Operation) :
      Reached kind state → Reached kind (eval handle operation.task state bus).2.1
  | enumerate {ε σ : Type} {state : State} (handle : Handler (Bus.interface ε) σ) (bus : σ)
      (passes capacity : Nat) :
      Reached kind state → Reached kind (eval handle (listing passes capacity) state bus).2.1

structure State.Bounded (state : State) : Prop where
  discrepancy : state.discrepancy ≤ 64
  family : state.familyDiscrepancy ≤ 8

/-- A code that a search for a family, or for all if it is zero, may hand out. -/
structure Admits (family : UInt8) (rom : Rom) : Prop where
  valid : rom.isValid = true
  named : rom.family ≠ 0
  inside : family ≠ 0 → rom.family = family

/-- A search in the middle of a pass, whatever the bus has answered so far. -/
structure Midway (start after : State) : Prop where
  kind : after.kind = start.kind
  family : after.family = start.family
  exhausted : after.exhausted = start.exhausted
  discrepancy : after.discrepancy = start.discrepancy
  familyDiscrepancy : start.familyDiscrepancy ≤ 8 → after.familyDiscrepancy ≤ 8

structure Passed (start after : State) : Prop where
  kind : after.kind = start.kind
  family : after.family = start.family
  exhausted : after.exhausted = (after.discrepancy == 0)
  discrepancy : after.discrepancy ≤ 64
  familyDiscrepancy : start.familyDiscrepancy ≤ 8 → after.familyDiscrepancy ≤ 8

/-- The ways out of a call for the next device. -/
inductive Exit {ε : Type} (start : State) : Except (BusError ε) (Option Rom) → State → Prop
  | exhausted (done : start.exhausted = true) : Exit start (.ok none) start
  | restarted : Exit start (.ok none) start.restart
  | strayed {after : State} (passed : Passed start after) :
      Exit start (.ok none) { after with exhausted := true }
  | found {after : State} (passed : Passed start after) (admits : Admits start.family after.rom) :
      Exit start (.ok (some after.rom)) after
  | corrupt {after : State} (passed : Passed start after) : Exit start (.error .invalidCrc) after
  | failed {after : State} (error : BusError ε) (midway : Midway start after) :
      Exit start (.error error) after

variable {ε σ : Type} {start state after : State} {handle : Handler (Bus.interface ε) σ} {bus : σ}
  {rom : Rom}

theorem Midway.refl (state : State) : Midway state state := ⟨rfl, rfl, rfl, rfl, id⟩

theorem Midway.trans {middle : State} (first : Midway start middle) (second : Midway middle after) :
    Midway start after where
  kind := second.kind.trans first.kind
  family := second.family.trans first.family
  exhausted := second.exhausted.trans first.exhausted
  discrepancy := second.discrepancy.trans first.discrepancy
  familyDiscrepancy := second.familyDiscrepancy ∘ first.familyDiscrepancy

theorem midway_follow (state : State) (index : Nat) (triplet : Triplet) :
    Midway state (state.follow index triplet) := by
  refine ⟨rfl, rfl, rfl, rfl, fun small => ?_⟩
  simp only [State.follow]
  split
  · rename_i both
    have early : index < 8 := of_decide_eq_true (Bool.and_eq_true_iff.mp both).2
    exact early
  · exact small

theorem Midway.conclude (midway : Midway start after) {last : Nat} (inside : last ≤ 64) :
    Passed start (after.conclude last) :=
  ⟨midway.kind, midway.family, rfl, inside, midway.familyDiscrepancy⟩

theorem restart_congr (kind : after.kind = start.kind) (family : after.family = start.family) :
    after.restart = start.restart := by
  simp only [State.restart, State.reset, State.target, kind, family]

theorem midway_visit (last index : Nat) :
    Midway state (eval handle (visit last index) state bus).2.1 ∧
      ∀ latest, (eval handle (visit last index) state bus).1 = .ok latest →
        latest = last ∨ latest = index + 1 := by
  rw [visit, eval_bind, eval_get]
  dsimp only
  rw [eval_bind, eval_onBus]
  rcases (Task.eval handle (Bus.triplet (state.direction index)) bus) with ⟨error | triplet, line⟩
  · exact ⟨Midway.refl state, fun latest same => by cases same⟩
  · dsimp only
    split
    · exact ⟨Midway.refl state, fun latest same => by cases same⟩
    · rw [eval_bind, eval_set]
      refine ⟨midway_follow state index triplet, ?_⟩
      intro latest same
      cases same
      split
      · exact .inr rfl
      · exact .inl rfl

theorem midway_walk (count : Nat) :
    Midway state (eval handle (walk count) state bus).2.1 ∧
      ∀ latest, (eval handle (walk count) state bus).1 = .ok latest → latest ≤ count := by
  induction count with
  | zero =>
      refine ⟨Midway.refl state, fun latest same => ?_⟩
      cases same
      exact Nat.le_refl 0
  | succ count ih =>
      obtain ⟨before, bounded⟩ := ih
      rw [walk_succ, eval_bind]
      rcases walked : eval handle (walk count) state bus with ⟨error | last, middle, line⟩
      · rw [walked] at before
        exact ⟨before, fun latest same => by cases same⟩
      · rw [walked] at before bounded
        obtain ⟨step, taken⟩ := @midway_visit ε σ middle handle line last count
        refine ⟨before.trans step, fun latest same => ?_⟩
        rcases taken latest same with kept | here
        · rw [kept]
          exact Nat.le_succ_of_le (bounded last rfl)
        · exact Nat.le_of_eq here

theorem pass_cases :
    (∃ error after line, eval handle pass state bus = (.error error, after, line) ∧
        Midway state after) ∨
      ∃ after line, eval handle pass state bus = (.ok after.rom, after, line) ∧
        Passed state after := by
  rw [pass, eval_bind, eval_onBus]
  rcases Task.eval handle Bus.demandPresence bus with ⟨error | ⟨⟩, present⟩
  · exact .inl ⟨error, state, present, rfl, Midway.refl state⟩
  dsimp only
  rw [eval_bind, eval_get]
  dsimp only
  rw [eval_bind, eval_onBus]
  rcases Task.eval handle (Bus.writeByte state.kind.command) present with ⟨error | ⟨⟩, opened⟩
  · exact .inl ⟨error, state, opened, rfl, Midway.refl state⟩
  dsimp only
  rw [← walk, eval_bind]
  obtain ⟨midway, bounded⟩ := @midway_walk ε σ state handle opened 64
  rcases walked : eval handle (walk 64) state opened with ⟨error | last, after, line⟩
  · rw [walked] at midway
    exact .inl ⟨error, after, line, rfl, midway⟩
  · rw [walked] at midway bounded
    refine .inr ⟨after.conclude last, line, ?_, midway.conclude (bounded last rfl)⟩
    simp only [eval_bind, eval_modify, eval_get, eval_emit, eval_pure]

theorem exit_judge (passed : Passed start after) :
    Exit start (eval handle (judge after.rom) after bus).1
      (eval handle (judge after.rom) after bus).2.1 := by
  rw [judge, eval_bind, eval_get]
  dsimp only
  split
  · rw [eval_bind, eval_set, restart_congr passed.kind passed.family]
    exact .restarted
  rename_i named
  split
  · rw [eval_bind, eval_emit]
    exact .corrupt passed
  rename_i valid
  split
  · rw [eval_bind, eval_set]
    exact .strayed passed
  · rename_i home
    rw [eval_bind, eval_emit]
    refine .found passed ⟨by simpa using valid, named, fun targeted => ?_⟩
    rw [passed.family] at home
    by_contra stray
    exact home ⟨targeted, stray⟩

theorem exit_next :
    Exit state (eval handle next state bus).1 (eval handle next state bus).2.1 := by
  cases more : state.exhausted with
  | true =>
      rw [eval_next_exhausted more]
      exact .exhausted more
  | false =>
      rcases @pass_cases ε σ state handle bus with
        ⟨error, after, line, ended, midway⟩ | ⟨after, line, ended, passed⟩
      · simp only [next, eval_bind, eval_get, more, Bool.false_eq_true, if_false, eval_attempt, ended]
        split
        · rename_i same
          cases same
        · rw [eval_bind, eval_emit]
          dsimp only
          rw [eval_bind, eval_modify, restart_congr midway.kind midway.family]
          exact .restarted
        · rw [eval_bind, eval_emit]
          dsimp only
          rw [eval_bind, eval_modify, restart_congr midway.kind midway.family]
          exact .restarted
        · rename_i same
          cases same
          exact .failed _ midway
      · rw [eval_next_passed more ended]
        exact exit_judge passed

structure Upkeep (start after : State) : Prop where
  kind : after.kind = start.kind
  family : after.family = start.family
  bounded : start.Bounded → after.Bounded

theorem Upkeep.refl (state : State) : Upkeep state state := ⟨rfl, rfl, id⟩

theorem Upkeep.trans {middle : State} (first : Upkeep start middle) (second : Upkeep middle after) :
    Upkeep start after where
  kind := second.kind.trans first.kind
  family := second.family.trans first.family
  bounded := second.bounded ∘ first.bounded

theorem bounded_fresh (kind : Kind) : (State.fresh kind).Bounded :=
  ⟨Nat.zero_le 64, Nat.zero_le 8⟩

theorem bounded_target (state : State) (family : UInt8) : (state.target family).Bounded :=
  ⟨Nat.le_refl 64, Nat.zero_le 8⟩

theorem upkeep_restart (state : State) : Upkeep state state.restart := by
  refine ⟨kind_restart state, family_restart state, fun _ => ?_⟩
  rw [State.restart]
  split
  · exact bounded_fresh state.kind
  · exact bounded_target state state.family

theorem Midway.upkeep (midway : Midway start after) : Upkeep start after where
  kind := midway.kind
  family := midway.family
  bounded before :=
    ⟨midway.discrepancy.trans_le before.discrepancy, midway.familyDiscrepancy before.family⟩

theorem Passed.upkeep (passed : Passed start after) : Upkeep start after where
  kind := passed.kind
  family := passed.family
  bounded before := ⟨passed.discrepancy, passed.familyDiscrepancy before.family⟩

section

variable {outcome : Except (BusError ε) (Option Rom)} (left : Exit start outcome after)
include left

theorem Exit.upkeep : Upkeep start after := by
  cases left with
  | exhausted _ => exact Upkeep.refl start
  | restarted => exact upkeep_restart start
  | strayed passed =>
      have kept := passed.upkeep
      exact ⟨kept.kind, kept.family, fun before => ⟨passed.discrepancy, (kept.bounded before).family⟩⟩
  | found passed _ | corrupt passed => exact passed.upkeep
  | failed _ midway => exact midway.upkeep

theorem Exit.admits (same : outcome = .ok (some rom)) : Admits start.family rom ∧ after.rom = rom := by
  cases left with
  | found _ admits =>
      cases same
      exact ⟨admits, rfl⟩
  | exhausted _ | restarted | strayed _ | corrupt _ | failed _ _ => cases same

theorem Exit.ends (same : outcome = .ok none) : after.exhausted = true ∨ after = start.restart := by
  cases left with
  | exhausted done => exact .inl done
  | restarted => exact .inr rfl
  | strayed _ => exact .inl rfl
  | found _ _ | corrupt _ | failed _ _ => cases same

end

/-- Some call for the next device of such a search handed the code out. -/
def HandedOut (handle : Handler (Bus.interface ε) σ) (kind : Kind) (family : UInt8) (rom : Rom) :
    Prop :=
  ∃ before bus, before.kind = kind ∧ before.family = family ∧
    (eval handle next before bus).1 = .ok (some rom) ∧ (eval handle next before bus).2.1.rom = rom

theorem HandedOut.admits {kind : Kind} {family : UInt8} (handed : HandedOut handle kind family rom) :
    Admits family rom := by
  obtain ⟨before, bus, _, same, returned, _⟩ := handed
  rw [← same]
  exact (exit_next.admits returned).1

theorem nothing_handed_out {kind : Kind} {family : UInt8} {room : Nat} {found roms : List Rom}
    (same : (.ok (some found.reverse) : Except (BusError ε) (Option (List Rom))) = .ok (some roms)) :
    ∃ listed, roms = found.reverse ++ listed ∧ listed.length ≤ room ∧
      ∀ rom ∈ listed, HandedOut handle kind family rom := by
  cases same
  exact ⟨[], (List.append_nil _).symm, Nat.zero_le room, List.forall_mem_nil _⟩

theorem collect_handed_out (passes room : Nat) (found : List Rom) :
    Upkeep state (eval handle (collect passes room found) state bus).2.1 ∧
      ∀ roms, (eval handle (collect passes room found) state bus).1 = .ok (some roms) →
        ∃ listed, roms = found.reverse ++ listed ∧ listed.length ≤ room ∧
          ∀ rom ∈ listed, HandedOut handle state.kind state.family rom := by
  induction passes generalizing room found state bus with
  | zero =>
      cases room with
      | zero => exact ⟨Upkeep.refl state, fun roms same => nothing_handed_out same⟩
      | succ room => exact ⟨Upkeep.refl state, fun roms same => by cases same⟩
  | succ passes ih =>
      cases room with
      | zero => exact ⟨Upkeep.refl state, fun roms same => nothing_handed_out same⟩
      | succ room =>
          have left := @exit_next ε σ state handle bus
          rw [collect, eval_bind, eval_attempt]
          rcases called : eval handle next state bus with ⟨outcome, after, line⟩
          rw [called] at left
          have kept : Upkeep state after := left.upkeep
          dsimp only
          split
          · rename_i rom
            have here : HandedOut handle state.kind state.family rom :=
              ⟨state, bus, rfl, rfl, by rw [called], by rw [called]; exact (left.admits rfl).2⟩
            obtain ⟨later, rest⟩ := @ih after line room (rom :: found)
            refine ⟨kept.trans later, fun roms same => ?_⟩
            obtain ⟨listed, whole, fits, handed⟩ := rest roms same
            rw [kept.kind, kept.family] at handed
            refine ⟨rom :: listed, by simp [whole], Nat.succ_le_succ fits, ?_⟩
            exact List.forall_mem_cons.mpr ⟨here, handed⟩
          · exact ⟨kept, fun roms same => nothing_handed_out same⟩
          · obtain ⟨later, rest⟩ := @ih after line (room + 1) found
            rw [kept.kind, kept.family] at rest
            exact ⟨kept.trans later, rest⟩
          · exact ⟨kept, fun roms same => by cases same⟩

theorem listing_handed_out (passes capacity : Nat) :
    Upkeep state (eval handle (listing passes capacity) state bus).2.1 ∧
      ∀ roms, (eval handle (listing passes capacity) state bus).1 = .ok (some roms) →
        roms.length ≤ capacity ∧ ∀ rom ∈ roms, HandedOut handle state.kind state.family rom := by
  have begun := upkeep_restart state
  obtain ⟨kept, collected⟩ := @collect_handed_out ε σ state.restart handle bus passes capacity []
  rw [listing, eval_bind, eval_modify]
  refine ⟨begun.trans kept, fun roms same => ?_⟩
  obtain ⟨listed, rfl, fits, handed⟩ := collected roms same
  rw [begun.kind, begun.family] at handed
  exact ⟨fits, handed⟩

theorem eval_verify_state :
    (eval handle (verify rom) state bus).2.1 = State.fresh state.kind := by
  have kept : Upkeep (state.toward rom) (eval handle next (state.toward rom) bus).2.1 :=
    exit_next.upkeep
  have fresh : (eval handle next (state.toward rom) bus).2.1.reset = State.fresh state.kind := by
    rw [State.reset, kept.kind]
    rfl
  simp only [verify, eval_bind, eval_modify, eval_attempt, fresh]
  cases (eval handle next (state.toward rom) bus).1 <;> rfl

theorem Reached.invariant {kind : Kind} (reached : Reached kind state) :
    state.kind = kind ∧ state.Bounded := by
  induction reached with
  | fresh => exact ⟨rfl, bounded_fresh kind⟩
  | ofFamily family => exact ⟨rfl, bounded_target (State.fresh kind) family⟩
  | @enumerate ε σ state handle bus passes capacity _ ih =>
      have kept := (@listing_handed_out ε σ state handle bus passes capacity).1
      exact ⟨kept.kind.trans ih.1, kept.bounded ih.2⟩
  | @operate ε σ state handle bus operation _ ih =>
      cases operation with
      | next =>
          rw [Operation.task, eval_map]
          have kept := (@exit_next ε σ state handle bus).upkeep
          exact ⟨kept.kind.trans ih.1, kept.bounded ih.2⟩
      | verify rom =>
          rw [Operation.task, eval_map, eval_verify_state, ih.1]
          exact ⟨rfl, bounded_fresh kind⟩
      | enumerate capacity =>
          rw [Operation.task, eval_map]
          have kept := (@listing_handed_out ε σ state handle bus passLimit capacity).1
          exact ⟨kept.kind.trans ih.1, kept.bounded ih.2⟩
      | target family =>
          rw [Operation.task, eval_map, eval_modify]
          exact ⟨ih.1, bounded_target state family⟩
      | skipFamily =>
          rw [Operation.task, eval_map, eval_modify]
          exact ⟨ih.1, ih.2.family.trans (by decide), Nat.zero_le 8⟩
      | reset =>
          rw [Operation.task, eval_map, eval_modify]
          exact ⟨ih.1, bounded_fresh state.kind⟩

theorem run_next_exhausted (exhausted : state.exhausted = true) :
    (next : SearchTask ε (Option Rom)).run.run state = .done (.ok none, state) := by
  change (if state.exhausted then _ else _ : SearchTask ε (Option Rom)).run.run state = _
  rw [exhausted]
  rfl

/-- A search that came about in any way, on a bus that may do anything: it keeps its kind and its
bounds, hands out only valid codes that it was asked for and that stand in its buffer, leaves the bus
alone when it is exhausted, ends exhausted or as it began, and is fresh after a verification. -/
theorem search_safe_on_any_bus {kind : Kind} (reached : Reached kind state)
    (handle : Handler (Bus.interface ε) σ) (bus : σ) :
    (state.kind = kind ∧ state.discrepancy ≤ 64 ∧ state.familyDiscrepancy ≤ 8) ∧
    (∀ rom, (eval handle next state bus).1 = .ok (some rom) →
      Admits state.family rom ∧ (eval handle next state bus).2.1.rom = rom) ∧
    (state.exhausted = true →
      (next : SearchTask ε (Option Rom)).run.run state = .done (.ok none, state)) ∧
    ((eval handle next state bus).1 = .ok none →
      (eval handle next state bus).2.1.exhausted = true ∨
        (eval handle next state bus).2.1 =
          if state.family = 0 then State.fresh kind else State.ofFamily kind state.family) ∧
    (∀ passes capacity roms, (eval handle (listing passes capacity) state bus).1 = .ok (some roms) →
      roms.length ≤ capacity ∧
        ∀ rom ∈ roms, Admits state.family rom ∧ HandedOut handle kind state.family rom) ∧
    (∀ rom, (eval handle (verify rom) state bus).2.1 = State.fresh kind) := by
  obtain ⟨same, bounded⟩ := reached.invariant
  refine ⟨⟨same, bounded.discrepancy, bounded.family⟩, ?_, run_next_exhausted, ?_, ?_, ?_⟩
  · intro rom returned
    exact exit_next.admits returned
  · intro returned
    rw [← same]
    exact exit_next.ends returned
  · intro passes capacity roms returned
    obtain ⟨fits, handed⟩ := (listing_handed_out passes capacity).2 roms returned
    rw [same] at handed
    exact ⟨fits, fun rom listed => ⟨(handed rom listed).admits, handed rom listed⟩⟩
  · intro rom
    rw [eval_verify_state, same]

def spelling (rom : Rom) : Handler (Bus.interface Empty) Nat
  | .reset, _ => (.ok true, 0)
  | .readBit, place => (.ok true, place)
  | .writeBit _, place | .power, place | .depower, place => (.ok (), place)
  | .triplet _, place => (.ok ⟨rom.bit place, !rom.bit place, rom.bit place⟩, place + 1)

theorem search_safe_on_any_bus_spelling :
    let stray : Rom := ⟨0xcc00000000000110⟩
    let own : Rom := ⟨0x2900000000000128⟩
    let left := (eval (spelling stray) Operation.next.task (State.ofFamily .alarmed 0x28) 0).2.1
    let state := (eval (spelling stray) (Operation.target 0x28).task left 0).2.1
    left.exhausted = true ∧ state.kind = .alarmed ∧ Admits 0x28 own ∧
      (eval (spelling own) next state 0).1 = .ok (some own) ∧
      (eval (spelling own) next state 0).2.1.rom = own ∧
      (eval (spelling own) (verify own) state 0).2.1 = State.fresh .alarmed := by
  intro stray own left state
  have reached : Reached .alarmed state :=
    ((Reached.ofFamily 0x28).operate (spelling stray) 0 .next).operate (spelling stray) 0
      (.target 0x28)
  have ended : left.exhausted = true := by decide +kernel
  have returned : (eval (spelling own) next state 0).1 = .ok (some own) := by decide +kernel
  obtain ⟨⟨kind, -⟩, admitted, -, -, -, verified⟩ := search_safe_on_any_bus reached (spelling own) 0
  obtain ⟨admits, kept⟩ := admitted own returned
  exact ⟨ended, kind, admits, returned, kept, verified own⟩

end Search

end SingleWire
