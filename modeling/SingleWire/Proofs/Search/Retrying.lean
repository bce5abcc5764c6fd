import SingleWire.Proofs.Search.Interruptions

namespace SingleWire.Search

variable {ε : Type} {line after : SimulatedLine} {master : Master} {codes : List Rom}
  {start state left : State} {path : Rom} {wire : Wire}

/-- A search that a later pass finishes as one that stands at the start would. -/
structure Resumes (codes : List Rom) (start left : State) : Prop where
  kind : left.kind = start.kind
  family : left.family = start.family
  exhausted : left.exhausted = start.exhausted
  discrepancy : left.discrepancy = start.discrepancy
  still : start.exhausted = true → left = start
  along : ∀ path, Led codes (steering start.rom start.discrepancy) path 64 → ∀ index < 64,
    left.rom.bit index = path.bit index ∨ left.rom.bit index = start.rom.bit index
  noted : ∀ path, Led codes (steering start.rom start.discrepancy) path 64 →
    familyZero codes path 64 left.familyDiscrepancy =
      familyZero codes path 64 start.familyDiscrepancy

theorem Resumes.refl (codes : List Rom) (start : State) : Resumes codes start start :=
  ⟨rfl, rfl, rfl, rfl, fun _ => rfl, fun _ _ _ _ => .inr rfl, fun _ _ => rfl⟩

theorem Resumes.led (resumes : Resumes codes start left)
    (led : Led codes (steering start.rom start.discrepancy) path 64) :
    Led codes (steering left.rom left.discrepancy) path 64 := by
  refine ⟨led.reached, ?_⟩
  intro index inside fork
  have steered := led.steered index inside fork
  rw [steered, resumes.discrepancy]
  rcases resumes.along path led index inside with followed | kept
  · by_cases early : index + 1 < start.discrepancy
    · rw [steering_before early, steering_before early, followed, steered, steering_before early]
    · simp only [steering, early, if_false]
  · exact (steering_congr kept).symm

theorem Resumes.landed (resumes : Resumes codes start left)
    (led : Led codes (steering start.rom start.discrepancy) path 64) :
    left.landed codes path = start.landed codes path := by
  simp only [State.landed, State.along, State.conclude, resumes.noted path led, resumes.kind,
    resumes.family]

theorem Resumes.restart (resumes : Resumes codes start left) : left.restart = start.restart := by
  simp only [State.restart, State.reset, State.target, resumes.kind, resumes.family]

theorem Resumes.cutShort (resumes : Resumes codes start state) (more : start.exhausted = false)
    (cut : CutShort codes state left) : Resumes codes start left := by
  obtain ⟨kind, family, exhausted, discrepancy⟩ := cut.same
  refine ⟨kind.trans resumes.kind, family.trans resumes.family, exhausted.trans resumes.exhausted,
    discrepancy.trans resumes.discrepancy, ?_, ?_, ?_⟩
  · intro ended
    rw [more] at ended
    cases ended
  · intro path led index inside
    obtain ⟨count, -, stopped⟩ := cut.stoppedAt (resumes.led led)
    rw [stopped.bits index inside]
    split
    · exact .inl rfl
    · exact resumes.along path led index inside
  · intro path led
    obtain ⟨count, -, stopped⟩ := cut.stoppedAt (resumes.led led)
    rw [stopped.note, familyZero_familyZero, resumes.noted path led]

theorem Resumes.eval_next {later : Wire} (resumes : Resumes codes start left)
    (taking : start.kind.codes wire.devices = codes)
    (still_taking : start.kind.codes later.devices = codes) :
    ∃ bus, eval (Wire.answer (ε := ε)) next left later =
      ((eval (Wire.answer (ε := ε)) next start wire).1,
        (eval (Wire.answer (ε := ε)) next start wire).2.1, bus) := by
  rw [← resumes.kind] at still_taking
  cases more : start.exhausted with
  | true =>
      rw [resumes.still more, eval_next_exhausted more, eval_next_exhausted more]
      exact ⟨later, rfl⟩
  | false =>
      have still_more : left.exhausted = false := resumes.exhausted.trans more
      by_cases nobody : codes = []
      · obtain ⟨_, ended, -⟩ := eval_next_nobody (ε := ε) more (taking.trans nobody)
        obtain ⟨bus, again, -⟩ := eval_next_nobody (ε := ε) still_more (still_taking.trans nobody)
        rw [ended, again, resumes.restart]
        exact ⟨bus, rfl⟩
      · obtain ⟨path, _, passed, led, -⟩ :=
          @eval_pass ε start wire (by rwa [taking])
        obtain ⟨other, bus, again, led_again, -⟩ :=
          @eval_pass ε left later (by rwa [still_taking])
        rw [taking] at passed led
        rw [still_taking] at again led_again
        obtain rfl : path = other :=
          Rom.eq_of_agrees ((resumes.led led).unique led_again (le_refl 64))
        rw [resumes.landed led] at again
        obtain ⟨outcome, after, -, judged⟩ := exists_eval_judge (ε := ε) path (start.landed codes path)
        rw [eval_next_passed more passed, eval_next_passed still_more again, judged, judged]
        exact ⟨bus, rfl⟩

/-- Calls for the next device one after the other, each with a fault at one of its calls. -/
inductive Failing (ε : Type) (master : Master) (start : State) (line : SimulatedLine) :
    State → SimulatedLine → Prop
  | begin : Failing ε master start line start line
  | fail {left : State} {after : SimulatedLine} (position : Nat) (fault : ε)
      (inside : position < chances (ε := ε) master next left after) :
      Failing ε master start line left after →
      Failing ε master start line (performFaulty master [(position, fault)] next left after).2.1
        (performFaulty master [(position, fault)] next left after).2.2

theorem Failing.resumes (drives : master.Drives line) (free : line.stuckLow = false)
    (failing : Failing ε master start line left after) :
    Resumes (start.kind.codes line.devices) start left ∧ line.Intact after := by
  induction failing with
  | begin => exact ⟨.refl _ start, drives.released.toTimely.intact⟩
  | @fail left after position fault inside _ ih =>
      obtain ⟨resumes, intact⟩ := ih
      obtain ⟨-, more, cut, still_intact⟩ := performFaulty_next intact.timely
        (intact.stuckLow.trans free) drives.standard inside fault
      rw [resumes.kind, SimulatedLine.codes_of_natures intact.natures] at cut
      exact ⟨resumes.cutShort (resumes.exhausted.symm.trans more) cut, intact.trans still_intact⟩

/-- A call for the next device that fails on the line ends with the fault and keeps the search where
it is; however often that happens, the call that does not fail comes to what the first call would
have come to without a fault. -/
theorem failed_next_retried (drives : master.Drives line) (free : line.stuckLow = false)
    (failing : Failing ε master start line left after) :
    (∀ position, position < chances (ε := ε) master next left after → ∀ fault : ε,
      ∃ failed bus, performFaulty master [(position, fault)] next left after =
          (.error (.line fault), failed, bus) ∧
        failed.kind = left.kind ∧ failed.family = left.family ∧
        failed.exhausted = left.exhausted ∧ failed.discrepancy = left.discrepancy) ∧
    ∃ bus, perform (ε := ε) master next left after =
      ((perform (ε := ε) master next start line).1,
        (perform (ε := ε) master next start line).2.1, bus) := by
  obtain ⟨resumes, intact⟩ := failing.resumes drives free
  have still_free : after.stuckLow = false := intact.stuckLow.trans free
  constructor
  · intro position inside fault
    obtain ⟨told, -, cut, -⟩ :=
      performFaulty_next intact.timely still_free drives.standard inside fault
    exact ⟨_, _, Prod.ext told rfl, cut.same⟩
  · obtain ⟨_, first⟩ := perform_timely drives.released.toTimely free drives.standard
      (beginsWithReset_next (ε := ε)) start
    obtain ⟨last, again⟩ := perform_timely intact.timely still_free drives.standard
      (beginsWithReset_next (ε := ε)) left
    have still_taking : start.kind.codes after.letGo.wire.devices = start.kind.codes line.devices :=
      (after.codes_wire_letGo start.kind).trans
        (SimulatedLine.codes_of_natures intact.natures start.kind)
    obtain ⟨bus, same⟩ :=
      resumes.eval_next (ε := ε) (line.codes_wire_letGo start.kind) still_taking
    rw [first, again, same]
    exact ⟨last, rfl⟩

theorem failed_next_retried_by_two :
    let one : Rom := ⟨0xcc00000000000110⟩
    let two : Rom := ⟨0x0a00000000000101⟩
    let devices := [one, two].map fun rom => ({ rom } : Device)
    let line := (SimulatedLine.populate { capacity := 2 } devices).1
    let master : Master := ⟨Timing.standard, 12⟩
    let fresh := State.fresh .normal
    let once := performFaulty master [(200, ())] next fresh line
    let twice := performFaulty master [(300, ())] next once.2.1 once.2.2
    once.2.1 ≠ fresh ∧ twice.1 = .error (.line ()) ∧
      ∃ bus, perform (ε := Unit) master next twice.2.1 twice.2.2 =
        (.ok (some one), (perform (ε := Unit) master next fresh line).2.1, bus) := by
  intro one two devices line master fresh once twice
  have new : ∀ device ∈ devices, device.IsNew :=
    List.forall_mem_map.mpr fun rom _ => Device.isNew_of_rom rom false
  have drives : master.Drives line := Master.Drives.populated new 2
  obtain ⟨inside_once, moved, inside, found⟩ :
      200 < chances (ε := Unit) master next fresh line ∧ once.2.1 ≠ fresh ∧
        300 < chances (ε := Unit) master next once.2.1 once.2.2 ∧
        (perform (ε := Unit) master next fresh line).1 = .ok (some one) := by decide +kernel
  have failed_once : Failing Unit master fresh line once.2.1 once.2.2 :=
    .fail 200 () inside_once .begin
  have failed_twice : Failing Unit master fresh line twice.2.1 twice.2.2 :=
    failed_once.fail 300 () inside
  refine ⟨moved, ?_, ?_⟩
  · obtain ⟨failed, bus, told, -⟩ :=
      (failed_next_retried drives rfl failed_once).1 300 inside ()
    exact congrArg Prod.fst told
  · obtain ⟨bus, again⟩ := (failed_next_retried drives rfl failed_twice).2
    rw [found] at again
    exact ⟨bus, again⟩

end SingleWire.Search
