import SingleWire.Proofs.Faults
import SingleWire.Proofs.Search.Progress

/-!
Calls for the next device that a fault of the line cuts short. Such a call leaves the first bits of
the path that it would have taken in the buffer, and the zero branches of its family bits noted.
-/

namespace SingleWire.Search

variable {ε σ α : Type} {line : SimulatedLine} {master : Master} {codes : List Rom} {kind : Kind}
  {start state left : State} {path : Rom} {count position : Nat} {error : BusError ε}
  {handle : Handler (Bus.interface ε) σ} {bus : σ} {wire : Wire}

/-- A search task on a line that fails at the calls of the plan, the first call being number zero. -/
def performFaulty (master : Master) (plan : List (Nat × ε)) (task : SearchTask ε α) (state : State)
    (line : SimulatedLine) : Except (BusError ε) α × State × SimulatedLine :=
  let outcome := (master.onLine (task.run.run state)).run
    (Handler.faulty Line.failure SimulatedLine.answer) { layer := line, plan }
  (outcome.value.1, outcome.value.2, outcome.state.layer)

def chances (master : Master) (task : SearchTask ε α) (state : State) (line : SimulatedLine) : Nat :=
  (master.onLine (task.run.run state)).fallible Line.failure SimulatedLine.answer line

theorem performFaulty_eq_eval (master : Master) (plan : List (Nat × ε)) (task : SearchTask ε α)
    (state : State) (line : SimulatedLine) :
    let after := eval master.serveFaulty task state { layer := line, plan }
    performFaulty master plan task state line = (after.1, after.2.1, after.2.2.layer) := by
  have same := Program.eval_through master.carry (Handler.faulty Line.failure SimulatedLine.answer)
    (task.run.run state) { layer := line, plan }
  simp only [performFaulty, eval, Master.serveFaulty, ← same]
  rfl

theorem StopsAtFaults.performFaulty {task : SearchTask ε α} (stops : StopsAtFaults task)
    (inside : position < chances master task state line) (fault : ε) :
    (Search.performFaulty master [(position, fault)] task state line).1 = .error (.line fault) := by
  have whole := (stops state).through (master.stopsAtFaults_carry)
  refine whole.eval_struck (Nat.zero_le position) ?_ fault
  rw [Nat.zero_add]
  exact inside

theorem eval_visit_error {last index : Nat}
    (failed : (eval handle (visit last index) state bus).1 = .error error) :
    (eval handle (visit last index) state bus).2.1 = state := by
  simp only [visit, eval_bind, eval_get, eval_onBus] at failed ⊢
  rcases asked : Task.eval handle (Bus.triplet (state.direction index)) bus with
    ⟨error | triplet, after⟩
  · rfl
  · rw [asked] at failed
    dsimp only at failed ⊢
    cases unanswered : triplet.isUnanswered with
    | true => rfl
    | false =>
        rw [unanswered] at failed
        cases failed

theorem eval_walk_error (failed : (eval handle (walk count) state bus).1 = .error error) :
    ∃ fewer < count, ∃ last, (eval handle (walk fewer) state bus).1 = .ok last ∧
      (eval handle (walk count) state bus).2.1 = (eval handle (walk fewer) state bus).2.1 := by
  induction count with
  | zero => cases failed
  | succ count ih =>
      rw [walk_succ, eval_bind] at failed ⊢
      rcases walked : eval handle (walk count) state bus with ⟨earlier | last, middle, after⟩
      · rw [walked] at failed ih
        obtain ⟨fewer, less, last, reached, same⟩ := ih failed
        exact ⟨fewer, Nat.lt_succ_of_lt less, last, reached, same⟩
      · rw [walked] at failed
        refine ⟨count, Nat.lt_succ_self count, last, ?_⟩
        rw [walked]
        exact ⟨rfl, eval_visit_error failed⟩

def opening (kind : Kind) : Task (Bus.interface ε) ε Unit := do
  Bus.demandPresence
  Bus.writeByte kind.command

def closing (lastZero : Nat) : SearchTask ε Rom := do
  modify (·.conclude lastZero)
  let state ← get
  emit (.passDone state.discrepancy state.familyDiscrepancy)
  pure state.rom

theorem eval_closing (lastZero : Nat) :
    eval handle (closing lastZero) state bus = (.ok state.rom, state.conclude lastZero, bus) := rfl

theorem eval_pass_split :
    eval handle (pass : SearchTask ε Rom) state bus =
      match Task.eval handle (opening state.kind) bus with
      | (.ok _, opened) => eval handle (walk 64 >>= closing) state opened
      | (.error error, opened) => (.error error, state, opened) := by
  simp only [pass, opening, eval_bind, eval_get, eval_onBus, Task.eval_bind]
  rcases Task.eval handle Bus.demandPresence bus with ⟨error | ⟨⟩, present⟩
  · rfl
  · dsimp only
    rcases Task.eval handle (Bus.writeByte state.kind.command) present with ⟨error | ⟨⟩, opened⟩
    · rfl
    · simp only [closing, walk, eval_bind, eval_get]

theorem eval_pass_error (failed : (eval handle pass state bus).1 = .error error) :
    (eval handle pass state bus).2.1 = state ∨
      ∃ opened, Task.eval handle (opening state.kind) bus = (.ok (), opened) ∧
        ∃ count < 64, ∃ last, (eval handle (walk count) state opened).1 = .ok last ∧
          (eval handle pass state bus).2.1 = (eval handle (walk count) state opened).2.1 := by
  rw [eval_pass_split] at failed ⊢
  rcases begun : Task.eval handle (opening state.kind) bus with ⟨early | ⟨⟩, opened⟩
  · exact .inl rfl
  · rw [begun] at failed
    dsimp only at failed ⊢
    rw [eval_bind] at failed ⊢
    rcases walked : eval handle (walk 64) state opened with ⟨late | last, after, line⟩
    · obtain ⟨count, less, last, reached, same⟩ :=
        eval_walk_error (congrArg Prod.fst walked)
      rw [walked] at same
      exact .inr ⟨opened, rfl, count, less, last, reached, same⟩
    · rw [walked] at failed
      dsimp only at failed
      rw [eval_closing] at failed
      cases failed

/-- Where a call that a fault cut short leaves a search: where it stood, or in the middle of a
pass. -/
inductive CutShort (codes : List Rom) (start : State) : State → Prop
  | early : CutShort codes start start
  | midway {path : Rom} {count : Nat} (within : count < 64)
      (led : Led codes (steering start.rom start.discrepancy) path count)
      (ahead : ∀ index < 64, count ≤ index → path.bit index = start.rom.bit index) :
      CutShort codes start (start.along codes path count)

theorem CutShort.same (cut : CutShort codes start left) :
    left.kind = start.kind ∧ left.family = start.family ∧ left.exhausted = start.exhausted ∧
      left.discrepancy = start.discrepancy := by
  cases cut <;> exact ⟨rfl, rfl, rfl, rfl⟩

theorem eval_opening
    (begun : (Task.eval (Wire.answer (ε := ε)) (opening kind) wire).1 = .ok ()) :
    (Task.eval (Wire.answer (ε := ε)) (opening kind) wire).2 = wire.opened kind := by
  rw [opening, Task.eval_bind, Wire.eval_demandPresence] at begun ⊢
  cases absent : wire.devices.isEmpty with
  | true =>
      rw [absent] at begun
      cases begun
  | false => exact congrArg Prod.snd (wire.eval_command (ε := ε) kind)

theorem eval_walk_nobody (nobody : kind.codes wire.devices = [])
    (searching : wire.Searching kind path 0 .bit) (count : Nat) :
    (eval (Wire.answer (ε := ε)) (walk (count + 1)) state wire).1 = .error .busCollision := by
  have unanswered : (wire.triplet (state.direction 0)).1.isUnanswered = true := by
    rw [searching.triplet_answer, nobody]
    rfl
  rw [walk, List.range_succ_eq_map, List.foldlM_cons, eval_bind, eval_visit_unanswered 0 0 unanswered]

theorem cutShort_walk {last : Nat} (within : count < 64)
    (searching : wire.Searching start.kind start.rom 0 .bit)
    (reached : (eval (Wire.answer (ε := ε)) (walk count) start wire).1 = .ok last) :
    CutShort (start.kind.codes wire.devices) start
      (eval (Wire.answer (ε := ε)) (walk count) start wire).2.1 := by
  by_cases someone : start.kind.codes wire.devices = []
  · cases count with
    | zero => exact .early
    | succ count =>
        rw [eval_walk_nobody someone searching count] at reached
        cases reached
  · obtain ⟨path, after, walked⟩ := exists_walked (ε := ε) searching someone within.le
    rw [walked.result]
    exact .midway within walked.led walked.ahead

theorem exists_eval_judge (path : Rom) (state : State) :
    ∃ outcome after, (∀ fault : ε, outcome ≠ .error (.line fault)) ∧
      ∀ {σ : Type} (handle : Handler (Bus.interface ε) σ) (bus : σ),
        eval handle (judge path) state bus = (outcome, after, bus) := by
  by_cases absent : path.family = 0
  · refine ⟨.ok none, state.restart, by simp, ?_⟩
    intro σ handle bus
    simp only [judge, eval_bind, eval_get, absent, if_true, eval_set, eval_pure]
  by_cases valid : path.isValid = true
  · by_cases outside : state.family ≠ 0 ∧ path.family ≠ state.family
    · refine ⟨.ok none, { state with exhausted := true }, by simp, ?_⟩
      intro σ handle bus
      simp only [judge, eval_bind, eval_get, absent, valid, Bool.not_true, Bool.false_eq_true,
        if_false, if_pos outside, eval_set, eval_pure]
    · refine ⟨.ok (some path), state, by simp, ?_⟩
      intro σ handle bus
      simp only [judge, eval_bind, eval_get, absent, valid, Bool.not_true, Bool.false_eq_true,
        if_false, if_neg outside, eval_emit, eval_pure]
  · refine ⟨.error .invalidCrc, state, by simp, ?_⟩
    intro σ handle bus
    simp only [judge, eval_bind, eval_get, absent, if_false, Bool.eq_false_of_not_eq_true valid,
      Bool.not_false, if_true, eval_emit, eval_throw]

theorem eval_next_error {fault : ε}
    (failed : (eval handle next state bus).1 = .error (.line fault)) :
    state.exhausted = false ∧ (eval handle pass state bus).1 = .error (.line fault) ∧
      (eval handle next state bus).2.1 = (eval handle pass state bus).2.1 := by
  cases more : state.exhausted with
  | true =>
      rw [eval_next_exhausted more] at failed
      cases failed
  | false =>
      refine ⟨rfl, ?_⟩
      simp only [next, eval_bind, eval_get, more, Bool.false_eq_true, if_false, eval_attempt]
        at failed ⊢
      rcases passed : eval handle pass state bus with ⟨error | path, after, line⟩
      · rw [passed] at failed
        cases error with
        | line other =>
            cases failed
            exact ⟨rfl, rfl⟩
        | noDevicePresent | busCollision | invalidCrc | invalidTiming | calibration _ _ => cases failed
      · obtain ⟨outcome, last, harmless, judged⟩ := exists_eval_judge (ε := ε) path after
        rw [passed] at failed
        dsimp only at failed
        rw [judged] at failed
        exact absurd failed (harmless fault)

theorem stopsAtFaults_opening (kind : Kind) :
    (opening kind : Task (Bus.interface ε) ε Unit).StopsAtFaults Bus.failure :=
  Bus.stopsAtFaults_demandPresence.bind fun _ => Bus.stopsAtFaults_writeByte kind.command

theorem stopsAtFaults_walk (count : Nat) : StopsAtFaults (walk count : SearchTask ε Nat) :=
  stopsAtFaults_foldlM_visit (List.range count) 0

theorem run_opening (kind : Kind) :
    ∃ next, (opening kind : Task (Bus.interface ε) ε Unit).run = .ask .reset next :=
  ⟨_, rfl⟩

theorem cutShort_served {opened : SimulatedLine} {last : Nat} (timely : line.Timely)
    (free : line.letGo.stuckLow = false) (standard : master.IsStandard)
    (begun : Task.eval (master.serve (ε := ε)) (opening start.kind) line = (.ok (), opened))
    (within : count < 64)
    (reached : (eval (master.serve (ε := ε)) (walk count) start opened).1 = .ok last) :
    CutShort (start.kind.codes line.devices) start
      (eval (master.serve (ε := ε)) (walk count) start opened).2.1 := by
  obtain ⟨next, asks⟩ := run_opening (ε := ε) start.kind
  have settled := timely.eval_ask_reset (ε := ε) free standard next
  rw [← asks] at settled
  have begun_wire : (Task.eval (Wire.answer (ε := ε)) (opening start.kind) line.letGo.wire).1 =
      .ok () := settled.1.symm.trans (congrArg Prod.fst begun)
  have there : (Program.eval master.serve (opening (ε := ε) start.kind).run line).2 = opened :=
    congrArg Prod.snd begun
  have mirrors : opened.Mirrors (line.letGo.wire.opened start.kind) := by
    rw [← there, ← eval_opening begun_wire]
    exact settled.2
  have same : start.kind.codes (line.letGo.wire.opened start.kind).devices =
      start.kind.codes line.devices := by
    rw [Wire.codes_of_natures (Wire.natures_opened _ _), SimulatedLine.codes_wire_letGo]
  have walked := (mirrors.eval (ε := ε) standard ((walk count).run.run start)).1
  have left_wire : (eval (master.serve (ε := ε)) (walk count) start opened).2.1 =
      (eval (Wire.answer (ε := ε)) (walk count) start (line.letGo.wire.opened start.kind)).2.1 :=
    congrArg Prod.snd walked
  rw [← same, left_wire]
  exact cutShort_walk within (Wire.searching_opened _ _ _)
    ((congrArg Prod.fst walked).symm.trans reached)

theorem cutShort_faulty {faulty : Faulty ε SimulatedLine} {fault : ε} (timely : faulty.layer.Timely)
    (free : faulty.layer.letGo.stuckLow = false) (standard : master.IsStandard)
    (failed : (eval master.serveFaulty next start faulty).1 = .error (.line fault)) :
    CutShort (start.kind.codes faulty.layer.devices) start
      (eval master.serveFaulty next start faulty).2.1 := by
  obtain ⟨-, failed, same⟩ := eval_next_error failed
  rw [same]
  rcases eval_pass_error failed with unchanged | ⟨opened, begun, count, within, last, reached, same⟩
  · rw [unchanged]
    exact .early
  rw [same]
  -- Up to where the pass stands no call failed.
  obtain ⟨made, clear⟩ :=
    ((stopsAtFaults_opening start.kind).eval_serveFaulty master faulty).resolve_right <| by
      rintro ⟨fault, told⟩
      cases told.symm.trans (congrArg Prod.fst begun)
  obtain ⟨made_walking, clear_walk⟩ :=
    ((stopsAtFaults_walk count start).eval_serveFaulty master opened).resolve_right <| by
      rintro ⟨fault, told⟩
      cases told.symm.trans reached
  have begun_clear : Task.eval (master.serve (ε := ε)) (opening start.kind) faulty.layer =
      (.ok (), opened.layer) := by
    have same := clear.symm.trans begun
    exact Prod.ext (congrArg (·.1) same) (congrArg (·.2.layer) same)
  have value := congrArg (·.1) clear_walk
  have left_clear : (eval master.serveFaulty (walk count) start opened).2.1 =
      (eval (master.serve (ε := ε)) (walk count) start opened.layer).2.1 := congrArg Prod.snd value
  rw [left_clear]
  exact cutShort_served timely free standard begun_clear within
    ((congrArg Prod.fst value).symm.trans reached)

/-- A search that stopped after the first bits of a path: up to there the buffer holds the path, and
the last zero branch among the family bits walked is noted. -/
structure StoppedAt (codes : List Rom) (path : Rom) (count : Nat) (start left : State) : Prop where
  kind : left.kind = start.kind
  family : left.family = start.family
  exhausted : left.exhausted = start.exhausted
  discrepancy : left.discrepancy = start.discrepancy
  bits : ∀ index < 64, left.rom.bit index =
    if index < count then path.bit index else start.rom.bit index
  note : left.familyDiscrepancy = familyZero codes path count start.familyDiscrepancy

theorem CutShort.stoppedAt (cut : CutShort codes start left)
    (led : Led codes (steering start.rom start.discrepancy) path 64) :
    ∃ count < 64, StoppedAt codes path count start left := by
  cases cut with
  | early =>
      refine ⟨0, by decide, rfl, rfl, rfl, rfl, ?_, rfl⟩
      intro index _
      rw [if_neg (Nat.not_lt_zero index)]
  | @midway begun count within led_begun ahead =>
      have same := led.unique led_begun within.le
      refine ⟨count, within, rfl, rfl, rfl, rfl, ?_, (familyZero_congr same _).symm⟩
      intro index inside
      split
      · rename_i early
        exact (same index early).symm
      · rename_i late
        exact ahead index inside (Nat.le_of_not_lt late)

theorem performFaulty_next (timely : line.Timely) (free : line.stuckLow = false)
    (standard : master.IsStandard) (inside : position < chances (ε := ε) master next start line)
    (fault : ε) :
    let failed := performFaulty master [(position, fault)] next start line
    failed.1 = .error (.line fault) ∧ start.exhausted = false ∧
      CutShort (start.kind.codes line.devices) start failed.2.1 ∧ line.Intact failed.2.2 := by
  intro failed
  have told : failed.1 = .error (.line fault) := stopsAtFaults_next.performFaulty inside fault
  have intact : line.Intact failed.2.2 :=
    @SimulatedLine.Timely.intact_faulty ε _ ⟨line, [(position, fault)], 0⟩ timely
      (master.onLine (next.run.run start))
  have same : failed = _ := performFaulty_eq_eval master [(position, fault)] next start line
  have still_free : line.letGo.stuckLow = false := timely.intact.letGo.stuckLow.trans free
  refine ⟨told, ?_, ?_, intact⟩
  · rw [same] at told
    exact (eval_next_error told).1
  · rw [same] at told ⊢
    exact @cutShort_faulty ε master start ⟨line, [(position, fault)], 0⟩ fault timely still_free
      standard told

end SingleWire.Search
