import SingleWire.Proofs.Search.Progress

namespace SingleWire

namespace Search

variable {ε σ : Type} {line after : SimulatedLine} {master : Master}
variable {codes : List Rom} {latest : Option Rom} {state : State} {wire : Wire}

def listing (passes capacity : Nat) : SearchTask ε (Option (List Rom)) := do
  modify State.restart
  collect passes capacity []

def nexts : (count : Nat) → SearchTask ε (List (Except (BusError ε) (Option Rom)))
  | 0 => pure []
  | count + 1 => do
      let outcome ← attempt next
      let rest ← nexts count
      pure (outcome :: rest)

def outcomes : List Rom → (count : Nat) → List (Except (BusError ε) (Option Rom))
  | _, 0 => []
  | [], count + 1 => .ok none :: outcomes [] count
  | code :: rest, count + 1 => verdict code :: outcomes rest count

theorem beginsWithReset_listing (passes capacity : Nat) :
    BeginsWithReset (listing passes capacity : SearchTask ε (Option (List Rom))) :=
  (beginsWithReset_modify _).bind fun _ => beginsWithReset_collect passes capacity []

theorem beginsWithReset_nexts (count : Nat) :
    BeginsWithReset
      (nexts count : SearchTask ε (List (Except (BusError ε) (Option Rom)))) := by
  induction count with
  | zero => exact beginsWithReset_pure []
  | succ count ih =>
      exact beginsWithReset_next.attempt.bind fun _ => ih.bind fun _ => beginsWithReset_pure _

theorem eval_collect_more {handle : Handler (Bus.interface ε) σ} {bus line : σ} {after : State}
    {passes more room : Nat} {found roms : List Rom} (within : passes ≤ more)
    (listed : eval handle (collect passes room found) state bus = (.ok (some roms), after, line)) :
    eval handle (collect more room found) state bus = (.ok (some roms), after, line) := by
  induction passes generalizing more room found state bus with
  | zero =>
      cases room with
      | zero =>
          rw [collect] at listed ⊢
          exact listed
      | succ room => cases listed
  | succ passes ih =>
      obtain ⟨more, rfl⟩ : ∃ fewer, more = fewer + 1 := ⟨more - 1, by omega⟩
      cases room with
      | zero =>
          rw [collect] at listed ⊢
          exact listed
      | succ room =>
          have fewer : passes ≤ more := by omega
          simp only [collect, eval_bind, eval_attempt] at listed ⊢
          split at listed
          · exact ih fewer listed
          · exact listed
          · exact ih fewer listed
          · exact listed

theorem length_inOrder_lt (families : ∀ code ∈ codes, code.family ≠ 0) :
    (Rom.inOrder codes).length < passLimit := by
  have distinct : ((Rom.inOrder codes).map Rom.order).Nodup := by
    rw [List.nodup_iff_pairwise_ne, List.pairwise_map]
    exact (Rom.inOrder_pairwise codes).imp ne_of_lt
  have bounded : (Rom.inOrder codes).map Rom.order ⊆ List.range' 1 (passLimit - 1) := by
    intro place member
    obtain ⟨code, listed, rfl⟩ := List.mem_map.mp member
    have positive : code.order ≠ 0 := by
      intro zero
      have same : code = Rom.zero := Rom.order_injective (zero.trans (by decide +kernel))
      exact families code (Rom.mem_inOrder.mp listed) (by rw [same]; decide)
    have below : code.order < passLimit := code.code.reverse.isLt
    rw [List.mem_range'_1]
    omega
  calc
    (Rom.inOrder codes).length = ((Rom.inOrder codes).map Rom.order).length :=
      (List.length_map Rom.order).symm
    _ ≤ (List.range' 1 (passLimit - 1)).length := (List.subperm_of_subset distinct bounded).length_le
    _ = passLimit - 1 := List.length_range'
    _ < passLimit := Nat.sub_one_lt (by decide)

/-- The first valid codes ahead, as many as there is room for. -/
def collected (codes : List Rom) (latest : Option Rom) (room : Nat) : List Rom :=
  ((ahead codes latest).filter Rom.isValid).take room

section

variable {code : Rom} {rest : List Rom} {room : Nat} (first : ahead codes latest = code :: rest)
include first

theorem collected_valid (valid : code.isValid = true) :
    collected codes latest (room + 1) = code :: collected codes (some code) room := by
  rw [collected, collected, first, ahead_tail first, List.filter_cons_of_pos valid,
    List.take_succ_cons]

theorem collected_corrupt (corrupt : code.isValid = false) :
    collected codes latest room = collected codes (some code) room := by
  have invalid : ¬ code.isValid = true := Bool.eq_false_iff.mp corrupt
  rw [collected, collected, first, ahead_tail first, List.filter_cons_of_neg invalid]

end

theorem getLast?_cons_or (code : Rom) (listed : List Rom) (latest : Option Rom) :
    (code :: listed).getLast?.or latest = listed.getLast?.or (some code) := by
  rw [List.getLast?_cons]
  cases listed.getLast? <;> rfl

theorem getLast?_or_of_ne_nil {listed : List Rom} (some_listed : listed ≠ [])
    (latest other : Option Rom) : listed.getLast?.or latest = listed.getLast?.or other := by
  rw [List.getLast?_eq_some_getLast some_listed]
  rfl

/-- The first valid codes ahead are collected. Where they fill the room, the search stands at the
last of them. -/
theorem Stands.eval_collect {passes room : Nat} {found : List Rom}
    (stands : Stands codes state latest) (taking : state.kind.codes wire.devices = codes)
    (families : ∀ code ∈ codes, code.family ≠ 0)
    (enough : (ahead codes latest).length < passes) :
    ∃ after bus, eval (Wire.answer (ε := ε)) (collect passes room found) state wire =
        (.ok (some (found.reverse ++ collected codes latest room)), after, bus) ∧
      after.kind = state.kind ∧ after.family = 0 ∧
      ((collected codes latest room).length = room →
        Stands codes after ((collected codes latest room).getLast?.or latest)) := by
  -- Each pass takes one code off those ahead, also where the code is corrupt and fills no room.
  induction passes generalizing room found state latest wire with
  | zero => exact absurd enough (Nat.not_lt_zero _)
  | succ passes ih =>
      cases room with
      | zero =>
          refine ⟨state, wire, ?_, rfl, stands.untargeted, fun _ => stands⟩
          rw [collect, eval_pure, collected, List.take_zero, List.append_nil]
      | succ room =>
          simp only [collect, eval_bind, eval_attempt]
          cases first : ahead codes latest with
          | nil =>
              obtain ⟨after, bus, ended, -, kind, stands⟩ :=
                stands.eval_next_none (ε := ε) taking first
              have none : collected codes latest (room + 1) = [] := by rw [collected, first]; rfl
              rw [ended, none, List.append_nil]
              exact ⟨after, bus, rfl, kind, stands.untargeted, fun full => nomatch full⟩
          | cons code rest =>
              obtain ⟨bus, passed, natures, -⟩ := stands.eval_next (ε := ε) taking families first
              have there : Stands codes (state.landed codes code) (some code) :=
                Stands.landed stands.untargeted (first_ahead first).1
              have again : (state.landed codes code).kind.codes bus.devices = codes :=
                (Wire.codes_of_natures natures).trans taking
              have fewer : (ahead codes (some code)).length < passes := by
                rw [first] at enough
                rw [ahead_tail first]
                exact Nat.lt_of_succ_lt_succ enough
              rw [passed]
              cases valid : code.isValid with
              | true =>
                  obtain ⟨after, last, listed, kind, untargeted, full⟩ :=
                    @ih (some code) (state.landed codes code) bus room (code :: found) there again fewer
                  rw [collected_valid first valid, getLast?_cons_or]
                  refine ⟨after, last, ?_, kind, untargeted, ?_⟩
                  · simp only [verdict, valid, if_true, listed, List.reverse_cons,
                      List.append_assoc, List.singleton_append]
                  · intro filled
                    exact full (Nat.succ.inj filled)
              | false =>
                  obtain ⟨after, last, listed, kind, untargeted, full⟩ :=
                    @ih (some code) (state.landed codes code) bus (room + 1) found there again fewer
                  rw [collected_corrupt first valid]
                  refine ⟨after, last, ?_, kind, untargeted, ?_⟩
                  · simp only [verdict, valid, Bool.false_eq_true, if_false, listed]
                  · intro filled
                    have some_listed : collected codes (some code) (room + 1) ≠ [] :=
                      List.ne_nil_of_length_eq_add_one filled
                    rw [getLast?_or_of_ne_nil some_listed latest (some code)]
                    exact full filled

theorem eval_nexts_succ {handle : Handler (Bus.interface ε) σ} {count : Nat} {after : State}
    {bus line : σ} {outcome : Except (BusError ε) (Option Rom)}
    {rest : List (Except (BusError ε) (Option Rom))}
    (passed : eval handle next state bus = (outcome, after, line))
    (others : (eval handle (nexts count) after line).1 = .ok rest) :
    (eval handle (nexts (count + 1)) state bus).1 = .ok (outcome :: rest) := by
  simp only [nexts, eval_bind, eval_attempt, passed]
  rcases made : eval handle (nexts count) after line with ⟨value, final⟩
  rw [made] at others
  cases others
  rfl

theorem Stands.eval_nexts {count : Nat} (stands : Stands codes state latest)
    (taking : state.kind.codes wire.devices = codes)
    (families : ∀ code ∈ codes, code.family ≠ 0) :
    (eval (Wire.answer (ε := ε)) (nexts count) state wire).1 =
      .ok (outcomes (ahead codes latest) count) := by
  induction count generalizing state latest wire with
  | zero => rw [nexts, eval_pure, outcomes]
  | succ count ih =>
      cases first : ahead codes latest with
      | nil =>
          obtain ⟨after, bus, ended, natures, kind, there⟩ :=
            stands.eval_next_none (ε := ε) taking first
          have again : after.kind.codes bus.devices = codes := by
            rw [kind, Wire.codes_of_natures natures, taking]
          have rest := ih there again
          rw [first] at rest
          exact eval_nexts_succ ended rest
      | cons code rest =>
          obtain ⟨bus, passed, natures, -⟩ := stands.eval_next (ε := ε) taking families first
          have there : Stands codes (state.landed codes code) (some code) :=
            Stands.landed stands.untargeted (first_ahead first).1
          have again : (state.landed codes code).kind.codes bus.devices = codes :=
            (Wire.codes_of_natures natures).trans taking
          have others := ih there again
          rw [ahead_tail first] at others
          exact eval_nexts_succ passed others

theorem perform_listing (drives : master.Drives line) (free : line.stuckLow = false)
    (untargeted : state.family = 0)
    (families : ∀ code ∈ state.kind.codes line.devices, code.family ≠ 0) {passes : Nat}
    (enough : (Rom.inOrder (state.kind.codes line.devices)).length < passes) (capacity : Nat) :
    ∃ once first,
      perform (ε := ε) master (listing passes capacity) state line =
        (.ok (some (collected (state.kind.codes line.devices) none capacity)), once, first) ∧
      master.Keeps line first ∧ once.kind = state.kind ∧ once.family = 0 ∧
      ((collected (state.kind.codes line.devices) none capacity).length = capacity →
        Stands (state.kind.codes line.devices) once
          (collected (state.kind.codes line.devices) none capacity).getLast?) := by
  obtain ⟨first, performed, -, keeps⟩ :=
    perform_wire drives free (beginsWithReset_listing (ε := ε) passes capacity) state
  have kind : state.restart.kind = state.kind := by
    rw [State.restart, if_pos untargeted]
    rfl
  have taking : state.restart.kind.codes line.wire.devices = state.kind.codes line.devices := by
    rw [kind, line.codes_wire]
  rw [← ahead_none] at enough
  obtain ⟨once, bus, listed, same, stays, full⟩ :=
    @Stands.eval_collect ε _ none state.restart line.wire passes capacity []
      (Stands.restart untargeted) taking families enough
  refine ⟨once, first, ?_, keeps, same.trans kind, stays, ?_⟩
  · rw [performed]
    simp only [listing, eval_bind, eval_modify, listed, List.reverse_nil, List.nil_append]
  · intro filled
    have stands := full filled
    rwa [Option.or_none] at stands

theorem perform_listing_more {passes more capacity : Nat} {roms : List Rom} {once : State}
    (within : passes ≤ more)
    (listed : perform (ε := ε) master (listing passes capacity) state line =
      (.ok (some roms), once, after)) :
    perform (ε := ε) master (listing more capacity) state line = (.ok (some roms), once, after) := by
  simp only [perform_eq_eval, listing, eval_bind, eval_modify] at listed ⊢
  exact eval_collect_more within listed

/-- An enumeration that is not for one family lists exactly the valid codes of those that take part,
each once and in order, up to its capacity; so does the next one. No pass too many is made: with
any number of passes above that of the codes it is the same. Where the capacity is filled, calls for
the next device go on behind the last code listed. -/
theorem enumerate_complete (drives : master.Drives line) (free : line.stuckLow = false)
    (untargeted : state.family = 0)
    (families : ∀ code ∈ state.kind.codes line.devices, code.family ≠ 0) (capacity : Nat) :
    let codes := state.kind.codes line.devices
    let listed := ((Rom.inOrder codes).filter Rom.isValid).take capacity
    ∃ once first twice second,
      perform (ε := ε) master (enumerate capacity) state line = (.ok (some listed), once, first) ∧
      (∀ passes, (Rom.inOrder codes).length < passes →
        perform (ε := ε) master (listing passes capacity) state line =
          (.ok (some listed), once, first)) ∧
      perform (ε := ε) master (enumerate capacity) once first =
        (.ok (some listed), twice, second) ∧
      (listed.length = capacity → ∀ count,
        (perform (ε := ε) master (nexts count) once first).1 =
          .ok (outcomes (ahead codes listed.getLast?) count)) := by
  intro codes listed
  have listed_eq : collected codes none capacity = listed := by rw [collected, ahead_none]
  have limit : (Rom.inOrder codes).length < passLimit := length_inOrder_lt families
  obtain ⟨once, first, listed_once, keeps, kind, stays, full⟩ :=
    perform_listing (ε := ε) drives free untargeted families (Nat.lt_succ_self _) capacity
  rw [listed_eq] at listed_once full
  have same : once.kind.codes first.devices = codes := by rw [kind, keeps.codes]
  have still_free : first.stuckLow = false := keeps.stuckLow.trans free
  obtain ⟨twice, second, listed_twice, -⟩ :=
    perform_listing (ε := ε) keeps.drives still_free stays (by rwa [same]) (by rwa [same]) capacity
  rw [same, listed_eq] at listed_twice
  refine ⟨once, first, twice, second, perform_listing_more limit listed_once, ?_, listed_twice, ?_⟩
  · intro passes enough
    exact perform_listing_more enough listed_once
  · intro filled count
    obtain ⟨last, performed, -⟩ :=
      perform_wire keeps.drives still_free (beginsWithReset_nexts (ε := ε) count) once
    have taking : once.kind.codes first.wire.devices = codes := by rw [first.codes_wire, same]
    rw [performed]
    exact (full filled).eval_nexts taking families

theorem enumerate_complete_three :
    let low : Rom := ⟨0xcc00000000000110⟩
    let corrupt : Rom := ⟨0x0000000000000201⟩
    let high : Rom := ⟨0x0a00000000000101⟩
    let devices := [high, low, corrupt, high].map fun rom => ({ rom } : Device)
    let line := (SimulatedLine.populate { capacity := 4 } devices).1
    ∃ once first twice second,
      perform (ε := Empty) ⟨Timing.standard, 12⟩ (enumerate 1) (State.fresh .normal) line =
        (.ok (some [low]), once, first) ∧
      perform (ε := Empty) ⟨Timing.standard, 12⟩ (enumerate 1) once first =
        (.ok (some [low]), twice, second) ∧
      (perform (ε := Empty) ⟨Timing.standard, 12⟩ (nexts 3) once first).1 =
        .ok [.error .invalidCrc, .ok (some high), .ok none] := by
  intro low corrupt high devices line
  have new : ∀ device ∈ devices, device.IsNew :=
    List.forall_mem_map.mpr fun rom _ => Device.isNew_of_rom rom false
  have codes : (State.fresh .normal).kind.codes line.devices = [high, low, corrupt, high] := rfl
  have order : Rom.inOrder [high, low, corrupt, high] = [low, corrupt, high] :=
    Rom.inOrder_eq (by decide +kernel) fun rom => by simp; tauto
  have families : ∀ code ∈ (State.fresh .normal).kind.codes line.devices, code.family ≠ 0 := by
    rw [codes]
    decide +kernel
  have valid : [low, corrupt, high].filter Rom.isValid = [low, high] := by decide +kernel
  have later : ahead [high, low, corrupt, high] (some low) = [corrupt, high] := by
    rw [ahead, order]
    decide +kernel
  have said : outcomes [corrupt, high] 3 =
      [.error (.invalidCrc : BusError Empty), .ok (some high), .ok none] := by
    have rejected : corrupt.isValid = false := by decide +kernel
    have accepted : high.isValid = true := by decide +kernel
    simp [outcomes, verdict, rejected, accepted]
  obtain ⟨once, first, twice, second, listed, -, again, others⟩ :=
    enumerate_complete (ε := Empty) (Master.Drives.populated new 4) rfl rfl families 1
  rw [codes, order, valid] at listed again others
  refine ⟨once, first, twice, second, listed, again, ?_⟩
  have following := others rfl 3
  rwa [List.take_succ_cons, List.take_zero, List.getLast?_singleton, later, said] at following

end Search

end SingleWire
