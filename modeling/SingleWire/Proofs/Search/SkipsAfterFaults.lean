import SingleWire.Proofs.Search.Interruptions
import SingleWire.Proofs.Search.Tours

namespace SingleWire.Search

variable {ε : Type} {codes rest : List Rom} {code path other found : Rom} {state left : State}
  {walked : Bool} {count position : Nat} {start line after : SimulatedLine} {master : Master}

theorem perform_next_timely (timely : line.Timely) (free : line.stuckLow = false)
    (standard : master.IsStandard) (taking : state.kind.codes line.devices = codes)
    (untargeted : state.family = 0) (more : state.exhausted = false) (someone : codes ≠ [])
    (families : ∀ code ∈ codes, code.family ≠ 0) :
    ∃ path, (perform (ε := ε) master next state line).1 = verdict path ∧
      Led codes (steering state.rom state.discrepancy) path 64 := by
  obtain ⟨after, performed⟩ :=
    perform_timely timely free standard (beginsWithReset_next (ε := ε)) state
  obtain ⟨path, bus, passed, led, -⟩ :=
    eval_next_led (ε := ε) ((line.codes_wire_letGo state.kind).trans taking) untargeted more someone
      fun path led => families path led.mem
  refine ⟨path, ?_, led⟩
  rw [performed, passed]

theorem Noted.note_le (noted : Noted codes state code walked) (more : state.exhausted = false) :
    state.familyDiscrepancy ≤ state.discrepancy := by
  have last : state.discrepancy = lastZero codes code 64 ∧ state.discrepancy ≠ 0 := by
    cases noted.stands with
    | behind _ _ left spent =>
        rw [more] at spent
        exact ⟨left, ne_of_beq_false spent.symm⟩
  obtain ⟨left, some_branch⟩ := last
  by_cases closed : lastZero codes code 8 = 0
  · cases into : walked with
    | false =>
        rw [noted.blank closed into]
        exact Nat.zero_le _
    | true =>
        -- The pass takes a branch behind the family bits, so an old note is before it.
        obtain ⟨branch, found⟩ := Nat.exists_eq_succ_of_ne_zero (left ▸ some_branch)
        have behind : 8 ≤ branch := by
          by_contra early
          have bound := lastZero_bounds (Nat.lt_of_not_le early) (leavesOne_of_lastZero found).2
          omega
        have small := (noted.stale closed into).2.1
        omega
  · rw [noted.left closed, left]
    exact lastZero_mono (by decide)

theorem Noted.agrees_next (noted : Noted codes state code walked)
    (led : Led codes (steering state.rom state.discrepancy) path 64) :
    code.agrees path (state.discrepancy - 1) := by
  obtain ⟨same, member⟩ := noted.stands.rom_mem
  have within : state.discrepancy ≤ 64 := by
    cases noted.stands with
    | behind _ _ left _ =>
        rw [left]
        exact lastZero_le codes state.rom 64
  apply led.follows member (by omega)
  intro index early _
  rw [steering_before (by omega), same]

theorem Noted.steering_kept (noted : Noted codes state code walked) (more : state.exhausted = false)
    (led : Led codes (steering state.rom state.discrepancy) path 64)
    (stopped : StoppedAt codes path count state left) :
    ∀ index < 64, steering left.rom state.familyDiscrepancy index =
      steering state.rom state.familyDiscrepancy index := by
  intro index inside
  by_cases early : index + 1 < state.familyDiscrepancy
  · have before : index < state.discrepancy - 1 := by
      have bound := noted.note_le more
      omega
    apply steering_congr
    rw [stopped.bits index inside, ← noted.agrees_next led index before, noted.stands.rom_mem.1,
      ite_self]
  · simp only [steering, early, if_false]

theorem StoppedAt.steering_renoted (stopped : StoppedAt codes path count state left) :
    ∀ index < 64, steering left.rom (lastZero codes path (min count 8)) index =
      steering path (lastZero codes path (min count 8)) index := by
  intro index inside
  by_cases early : index + 1 < lastZero codes path (min count 8)
  · have walked : index < count := by
      have bound := lastZero_le codes path (min count 8)
      omega
    apply steering_congr
    rw [stopped.bits index inside, if_pos walked]
  · simp only [steering, early, if_false]

theorem left_of_noted (first : ahead codes (some code) = path :: rest)
    (some_branch : lastZero codes path (min count 8) ≠ 0) : lastZero codes code 8 ≠ 0 := by
  intro closed
  obtain ⟨member, later, -⟩ := first_ahead first
  by_cases family : code.family = path.family
  · have same := Rom.family_eq_iff.mp family
    rw [← lastZero_congr (same.mono (min_le_right count 8))] at some_branch
    exact some_branch (Nat.eq_zero_of_le_zero (closed ▸ lastZero_mono (min_le_right count 8)))
  · exact lastZero_eq_zero_iff.mp closed path member
      (Rom.precedes_of_family_ne (later code rfl) family)

theorem nextFamily_of_crossing (first : ahead codes (some code) = path :: rest)
    (family : code.family ≠ path.family) : nextFamily codes code = some path := by
  obtain ⟨member, later, least⟩ := first_ahead first
  have crossing := Rom.precedes_of_family_ne (later code rfl) family
  apply Rom.lowest_eq_of_least member (decide_eq_true (Rom.familyOrder_lt_iff.mpr crossing))
  intro candidate present beyond
  have further := Rom.familyOrder_lt_iff.mp (of_decide_eq_true beyond)
  have order : code.order < candidate.order := Rom.order_lt_iff.mpr (further.mono (by decide))
  exact (least candidate present fun _ same => by cases same; exact order).imp_left Eq.symm

theorem familyOrder_lt_of_renoted (first : ahead codes (some code) = path :: rest)
    (member : code ∈ codes) (forward : nextFamily codes code = some other)
    (led_other : Led codes (steering code (lastZero codes code 8)) other 64)
    (some_branch : lastZero codes path (min count 8) ≠ 0)
    (changed : lastZero codes path (min count 8) ≠ lastZero codes code 8)
    (led_found : Led codes (steering path (lastZero codes path (min count 8))) found 64) :
    other.familyOrder < found.familyOrder := by
  obtain ⟨crossed, -⟩ := led_found.next (first_ahead first).1 (by omega) some_branch
  -- Inside the family of the last code the new note is an earlier branch than the old one.
  by_cases family : code.family = path.family
  · obtain ⟨index, inside, shared, low, high⟩ := crossed
    have same := Rom.family_eq_iff.mp family
    have noted_before : lastZero codes path (min count 8) ≤ lastZero codes code 8 := by
      rw [← lastZero_congr (same.mono (min_le_right count 8))]
      exact lastZero_mono (min_le_right count 8)
    have branch : index < lastZero codes path (min count 8) :=
      lastZero_bounds inside (leavesOne_iff.mpr ⟨low, found, led_found.mem, shared.symm, high⟩)
    have along : code.agrees other (lastZero codes code 8 - 1) := by
      have bound := lastZero_le codes code 8
      apply led_other.follows member (by omega)
      intro index early _
      rw [steering_before (by omega)]
    have along_path : path.agrees other (index + 1) := fun before early =>
      (same before (by omega)).symm.trans (along before (by omega))
    apply Rom.familyOrder_lt_iff.mpr
    refine ⟨index, by omega, (along_path.mono (by omega)).symm.trans shared, ?_, high⟩
    rw [← along_path index (by omega), low]
  · rw [nextFamily_of_crossing first family] at forward
    cases forward
    exact Rom.familyOrder_lt_iff.mpr (crossed.mono (min_le_right count 8))

theorem Led.congr {steer others : Nat → Bool} (led : Led codes steer path count)
    (same : ∀ index < count, steer index = others index) : Led codes others path count :=
  ⟨led.reached, fun index inside fork => (led.steered index inside fork).trans (same index inside)⟩

theorem StoppedAt.exhausted_skipFamily (stopped : StoppedAt codes path count state left)
    (more : state.exhausted = false) :
    left.skipFamily.exhausted = (left.familyDiscrepancy == 0) := by
  change (left.exhausted || left.familyDiscrepancy == 0) = _
  rw [stopped.exhausted, more, Bool.false_or]

section

variable (timely : line.Timely) (intact : line.Intact after) (free : line.stuckLow = false)
  (standard : master.IsStandard) (taking : state.kind.codes line.devices = codes)
  (families : ∀ code ∈ codes, code.family ≠ 0) (noted : Noted codes state code walked)
  (more : state.exhausted = false) (stopped : StoppedAt codes path count state left)
include timely intact free standard taking families noted more stopped

theorem skip_kept (led : Led codes (steering state.rom state.discrepancy) path 64)
    (kept : left.familyDiscrepancy = state.familyDiscrepancy) :
    (perform (ε := ε) master next left.skipFamily after).1 =
      (perform (ε := ε) master next state.skipFamily line).1 := by
  have same : left.skipFamily.exhausted = state.skipFamily.exhausted := by
    rw [stopped.exhausted_skipFamily more, exhausted_skipFamily, more, kept, Bool.false_or]
  cases ends : state.skipFamily.exhausted with
  | true => rw [perform_next_exhausted ends, perform_next_exhausted (same.trans ends)]
  | false =>
      have someone : codes ≠ [] := List.ne_nil_of_mem noted.stands.rom_mem.2
      have still_taking : left.skipFamily.kind.codes after.devices = codes := by
        rw [SimulatedLine.codes_of_natures intact.natures]
        exact stopped.kind ▸ taking
      obtain ⟨one, direct, led_one⟩ := perform_next_timely (ε := ε) timely free standard
        (show state.skipFamily.kind.codes line.devices = codes from taking) rfl ends someone families
      obtain ⟨two, resumed, led_two⟩ := perform_next_timely (ε := ε) intact.timely
        (intact.stuckLow.trans free) standard still_taking rfl (same.trans ends) someone families
      have steered : Led codes (steering state.rom state.familyDiscrepancy) two 64 := by
        apply led_two.congr
        intro index inside
        rw [← noted.steering_kept more led stopped index inside, ← kept]
        rfl
      rw [direct, resumed, Rom.eq_of_agrees (steered.unique led_one (le_refl 64))]

/-- Once it noted another branch, the skip leaves out the family that it would have come to. -/
theorem skip_renoted (first : ahead codes (some code) = path :: rest)
    (changed : left.familyDiscrepancy ≠ state.familyDiscrepancy) :
    ∃ other found, nextFamily codes code = some other ∧
      (perform (ε := ε) master next state.skipFamily line).1 = verdict other ∧
      (perform (ε := ε) master next left.skipFamily after).1 = verdict found ∧
      found ∈ codes ∧ other.familyOrder < found.familyOrder := by
  obtain ⟨same, member⟩ := noted.stands.rom_mem
  have some_branch : lastZero codes path (min count 8) ≠ 0 := by
    intro none
    rw [stopped.note, familyZero, if_pos none] at changed
    exact changed rfl
  have left_branch : lastZero codes code 8 ≠ 0 := left_of_noted first some_branch
  obtain ⟨other, forward⟩ : ∃ other, nextFamily codes code = some other :=
    Option.ne_none_iff_exists'.mp fun none => left_branch (lastZero_family_eq_zero_iff.mpr none)
  obtain ⟨goes_on, leads⟩ := noted.skip_forward forward
  have renoted : left.familyDiscrepancy = lastZero codes path (min count 8) := by
    rw [stopped.note, familyZero, if_neg some_branch]
  have also_goes_on : left.skipFamily.exhausted = false := by
    rw [stopped.exhausted_skipFamily more, renoted]
    exact beq_false_of_ne some_branch
  have still_taking : left.skipFamily.kind.codes after.devices = codes := by
    rw [SimulatedLine.codes_of_natures intact.natures]
    exact stopped.kind ▸ taking
  obtain ⟨one, direct, led_one⟩ := perform_next_timely (ε := ε) timely free standard
    (show state.skipFamily.kind.codes line.devices = codes from taking) rfl goes_on
    (List.ne_nil_of_mem member) families
  obtain ⟨found, resumed, led_found⟩ := perform_next_timely (ε := ε) intact.timely
    (intact.stuckLow.trans free) standard still_taking rfl also_goes_on
    (List.ne_nil_of_mem member) families
  obtain rfl := leads one led_one
  have led_other : Led codes (steering code (lastZero codes code 8)) one 64 := by
    rw [← noted.left left_branch, ← same]
    exact led_one
  have led_behind : Led codes (steering path (lastZero codes path (min count 8))) found 64 := by
    apply led_found.congr
    intro index inside
    rw [← stopped.steering_renoted index inside, ← renoted]
    rfl
  rw [renoted, noted.left left_branch] at changed
  exact ⟨one, found, forward, direct, resumed, led_found.mem,
    familyOrder_lt_of_renoted first member forward led_other some_branch changed led_behind⟩

end

/-- After a call for the next device that failed on the line, a skip and a call come to what they
would have come to without the failed call, as long as the failed call left the family discrepancy as
it was. Otherwise the next family is left out: what is found is of a family behind it. The failed pass
changes it to the last branch that it left among the family bits that it followed, if there is one. -/
theorem skip_after_failed_next {earlier : List (Entry ε)} (drives : master.Drives start)
    (free : start.stuckLow = false)
    (families : ∀ code ∈ Kind.normal.codes start.devices, code.family ≠ 0)
    (valid : ∀ code ∈ Kind.normal.codes start.devices, code.isValid = true)
    (tour : Tour ε master start (.returned (.ok (some code)) :: earlier) state line)
    (more : state.exhausted = false)
    (inside : position < chances (ε := ε) master next state line) (fault : ε) :
    let codes := Kind.normal.codes start.devices
    let failed := performFaulty master [(position, fault)] next state line
    let direct := (perform (ε := ε) master next state.skipFamily line).1
    let resumed := (perform (ε := ε) master next failed.2.1.skipFamily failed.2.2).1
    (∃ path rest count, ahead codes (some code) = path :: rest ∧ count < 64 ∧
      (∀ index < 64, failed.2.1.rom.bit index =
        if index < count then path.bit index else code.bit index) ∧
      let noted := lastZero codes path (min count 8)
      failed.2.1.familyDiscrepancy = if noted = 0 then state.familyDiscrepancy else noted) ∧
    (failed.2.1.familyDiscrepancy = state.familyDiscrepancy → resumed = direct) ∧
    (failed.2.1.familyDiscrepancy ≠ state.familyDiscrepancy →
      ∃ other found, nextFamily codes code = some other ∧ direct = .ok (some other) ∧
        resumed = .ok (some found) ∧ other.familyOrder < found.familyOrder) := by
  intro codes failed direct resumed
  have holds := tour.holds drives free families valid
  have noted : Noted codes state code (walkedInto code.family earlier) := holds.standing
  have still_free : line.stuckLow = false := holds.keeps.stuckLow.trans free
  have timely : line.Timely := holds.keeps.drives.released.toTimely
  have taking : state.kind.codes line.devices = codes := holds.attached rfl
  have standard : master.IsStandard := drives.standard
  obtain ⟨path, bus, -, led, -⟩ := perform_next_led (ε := ε) holds.keeps.drives still_free taking
    noted.stands.untargeted more (List.ne_nil_of_mem noted.stands.rom_mem.2)
    fun path led => families path led.mem
  obtain ⟨-, -, cut, intact⟩ := performFaulty_next timely still_free standard inside fault
  rw [taking] at cut
  obtain ⟨count, within, stopped⟩ := cut.stoppedAt led
  have open_end : ahead codes (some code) ≠ [] := by
    rw [ne_eq, ← noted.stands.exhausted_iff, more]
    exact Bool.false_ne_true
  obtain ⟨head, rest, first⟩ := List.exists_cons_of_ne_nil open_end
  obtain rfl : path = head := noted.stands.led led first
  refine ⟨⟨path, rest, count, first, within, ?_, stopped.note⟩, ?_, ?_⟩
  · rw [← noted.stands.rom_mem.1]
    exact stopped.bits
  · exact skip_kept timely intact still_free standard taking families noted more stopped led
  · intro changed
    obtain ⟨other, found, forward, goes_on, left_out, member, behind⟩ :=
      skip_renoted (ε := ε) timely intact still_free standard taking families noted more stopped
        first changed
    have other_valid := valid other (Rom.lowest_eq_some forward).1
    refine ⟨other, found, forward, ?_, ?_, behind⟩
    · rw [verdict, if_pos other_valid] at goes_on
      exact goes_on
    · rw [verdict, if_pos (valid found member)] at left_out
      exact left_out

theorem skip_after_failed_next_of_three :
    let one : Rom := ⟨0xc300000000000104⟩
    let two : Rom := ⟨0x4d00000000000102⟩
    let three : Rom := ⟨0x0a00000000000101⟩
    let devices := [one, two, three].map fun rom => ({ rom } : Device)
    let start := (SimulatedLine.populate { capacity := 3 } devices).1
    let master : Master := ⟨Timing.standard, 12⟩
    let first := perform (ε := Unit) master next (State.fresh .normal) start
    let failed := performFaulty master [(100, ())] next first.2.1 first.2.2
    ∃ found, (perform (ε := Unit) master next first.2.1.skipFamily first.2.2).1 = .ok (some two) ∧
      (perform (ε := Unit) master next failed.2.1.skipFamily failed.2.2).1 = .ok (some found) ∧
      two.familyOrder < found.familyOrder := by
  intro one two three devices start master first failed
  have new : ∀ device ∈ devices, device.IsNew :=
    List.forall_mem_map.mpr fun rom _ => Device.isNew_of_rom rom false
  have codes : Kind.normal.codes start.devices = [one, two, three] := rfl
  have families : ∀ code ∈ Kind.normal.codes start.devices, code.family ≠ 0 := by
    rw [codes]
    decide +kernel
  have valid : ∀ code ∈ Kind.normal.codes start.devices, code.isValid = true := by
    rw [codes]
    decide +kernel
  obtain ⟨called, more, inside, direct, differs⟩ :
      first.1 = .ok (some one) ∧ first.2.1.exhausted = false ∧
        100 < chances (ε := Unit) master next first.2.1 first.2.2 ∧
        (perform (ε := Unit) master next first.2.1.skipFamily first.2.2).1 = .ok (some two) ∧
        (perform (ε := Unit) master next failed.2.1.skipFamily failed.2.2).1 ≠ .ok (some two) := by
    decide +kernel
  have tour : Tour Unit master start [.returned (.ok (some one))] first.2.1 first.2.2 := by
    rw [← called]
    exact .call .begin
  have drives : master.Drives start := Master.Drives.populated new 3
  obtain ⟨-, kept, renoted⟩ :=
    skip_after_failed_next drives rfl families valid tour more inside ()
  rw [direct] at kept renoted
  obtain ⟨other, found, -, goes_on, left_out, behind⟩ := renoted (mt kept differs)
  cases goes_on
  exact ⟨found, direct, left_out, behind⟩

end SingleWire.Search
