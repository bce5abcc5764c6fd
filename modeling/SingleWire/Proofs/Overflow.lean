import SingleWire.Program.Recorded
import SingleWire.Proofs.AtWork
import SingleWire.Proofs.Line.FixedWidth

/-!
Programs on a line whose clock and counters are words. A number that has no room in its word ends a
run; a run that is not ended so comes to what it comes to with unbounded numbers, and none is ended
while the line behind it is in range.
-/

namespace SingleWire

variable {I : Interface} {σ ε α : Type}

abbrev PartialHandler (interface : Interface) (σ : Type) :=
  (request : interface.Request) → σ → Option (interface.Reply request × σ)

def PartialHandler.recorded (handle? : PartialHandler I σ) : PartialHandler I (Recorded I σ) :=
  fun request record => (handle? request record.layer).map fun answered =>
    (answered.1, ⟨answered.2, ⟨request, answered.1⟩ :: record.calls⟩)

namespace Program

/-- The value of a run and the state that it leaves, unless an answer stops it. -/
def eval? (handle? : PartialHandler I σ) : Program I α → σ → Option (α × σ)
  | done value, state => some (value, state)
  | ask request next, state =>
      (handle? request state).bind fun answered => (next answered.1).eval? handle? answered.2
  | note _ rest, state => rest.eval? handle? state

/-- What a run comes to: the outcome with every answer, the only one with answers that may stop it,
and one that nothing stops if the state behind it fits. -/
structure ComesTo (handle : Handler I σ) (handle? : PartialHandler I σ) (fits : σ → Prop)
    (program : Program I α) (state : σ) (outcome : α × σ) : Prop where
  answered : program.eval handle state = outcome
  only : Only (program.eval? handle? state) outcome
  room : fits outcome.2 → program.eval? handle? state = some outcome

end Program

/-- Answers that may stop are otherwise those of the handler, and in a state that is kept in order
nothing stops them while the state behind fits. -/
structure PartialHandler.Narrows (handle? : PartialHandler I σ) (handle : Handler I σ)
    (keeps fits : σ → Prop) : Prop where
  only : ∀ request state, Only (handle? request state) (handle request state)
  kept : ∀ request state, keeps state → keeps (handle request state).2
  before : ∀ request state, fits (handle request state).2 → fits state
  room : ∀ request state, keeps state → fits (handle request state).2 →
    handle? request state = some (handle request state)

namespace PartialHandler.Narrows

variable {handle? : PartialHandler I σ} {handle : Handler I σ} {keeps fits : σ → Prop}
  (narrows : handle?.Narrows handle keeps fits)
include narrows

theorem recorded : handle?.recorded.Narrows (Handler.recorded handle)
    (fun record => keeps record.layer) (fun record => fits record.layer) where
  only request record := (narrows.only request record.layer).map _
  kept request record := narrows.kept request record.layer
  before request record := narrows.before request record.layer
  room request record ordered fit := by
    rw [PartialHandler.recorded, narrows.room request record.layer ordered fit]
    rfl

theorem only_eval (program : Program I α) (state : σ) :
    Only (program.eval? handle? state) (program.eval handle state) := by
  induction program generalizing state with
  | done value => exact .of_eq rfl
  | ask request next ih => exact (narrows.only request state).bind (ih _ _)
  | note event rest ih => exact ih state

theorem before_eval (program : Program I α) {state : σ}
    (fit : fits (program.eval handle state).2) : fits state := by
  induction program generalizing state with
  | done value => exact fit
  | ask request next ih => exact narrows.before request state (ih _ fit)
  | note event rest ih => exact ih fit

theorem eval?_eq (program : Program I α) {state : σ} (ordered : keeps state)
    (fit : fits (program.eval handle state).2) :
    program.eval? handle? state = some (program.eval handle state) := by
  induction program generalizing state with
  | done value => rfl
  | ask request next ih =>
      -- What fits behind the whole run fits behind its first answer.
      have here := narrows.room request state ordered (narrows.before_eval _ fit)
      rw [Program.eval?, here, Option.bind_some]
      exact ih _ (narrows.kept request state ordered) fit
  | note event rest ih => exact ih ordered fit

theorem comesTo (program : Program I α) {state : σ} (ordered : keeps state) :
    program.ComesTo handle handle? fits state (program.eval handle state) :=
  ⟨rfl, narrows.only_eval program state, narrows.eval?_eq program ordered⟩

end PartialHandler.Narrows

theorem SimulatedLine.narrows :
    PartialHandler.Narrows (answer? (ε := ε)) answer WellFormed InRange where
  only := answer?_only
  kept request _ formed := formed.answer request
  before request _ after := InRange.before request after
  room request _ formed after := formed.answer?_eq request after

theorem Master.Drives.wellFormed {master : Master} {line : SimulatedLine}
    (drives : master.Drives line) : line.WellFormed := by
  induction drives with
  | @built ε line after master samplePoint reachable late success =>
      rw [SimulatedLine.eval_build] at success
      split at success
      · cases success
      · cases success
        exact reachable.wellFormed.answer (ε := ε) .release
  | @request ε line master request _ ih =>
      exact Program.eval_keeps SimulatedLine.answer SimulatedLine.WellFormed
        (fun call _ formed => formed.answer (ε := ε) call) (master.carry request) line ih
  | attach new room _ ih => exact ih.attach new room
  | stick low _ ih => exact ⟨⟨ih.fell, ih.presence, ih.pulls⟩, ih.room, ih.fits, ih.sound⟩

namespace SimulatedLine

variable {line middle after : SimulatedLine} {master : Master}

def rollOver (line : SimulatedLine) : SimulatedLine :=
  { line with resets := line.resets % 2 ^ 32, slots := line.slots % 2 ^ 32 }

/-- The line with counters that start over behind the last value of their words. -/
def answerRolling : Handler (Line.interface ε) SimulatedLine := fun request line =>
  ((answer request line).1, (answer request line).2.rollOver)

theorem rollOver_rollOver (line : SimulatedLine) : line.rollOver.rollOver = line.rollOver := by
  simp [rollOver]

theorem letGo_rollOver (line : SimulatedLine) : line.rollOver.letGo.rollOver = line.letGo.rollOver := by
  cases fallen : line.fellAt with
  | none =>
      have rolled_up : line.rollOver.fellAt = none := fallen
      rw [letGo_up fallen, letGo_up rolled_up]
      simp [rollOver]
  | some fell =>
      have rolled_down : line.rollOver.fellAt = some fell := fallen
      have same_time : line.rollOver.now = line.now := rfl
      simp only [letGo, fallen, rolled_down, same_time]
      split <;> simp [rollOver, endReset, endSlot]

theorem pull_rollOver (line : SimulatedLine) : line.rollOver.pull.rollOver = line.pull.rollOver := by
  have same : line.rollOver.fellAt = line.fellAt := rfl
  unfold pull
  rw [same]
  cases line.fellAt <;> simp [rollOver]

/-- No answer depends on the counters. -/
theorem answerRolling_rollOver (request : Line.Request) (line : SimulatedLine) :
    answerRolling request line.rollOver =
      ((answer (ε := ε) request line).1, (answer (ε := ε) request line).2.rollOver) := by
  cases request with
  | driveLow => exact congrArg (Prod.mk _) line.pull_rollOver
  | release => exact congrArg (Prod.mk _) line.letGo_rollOver
  | driveHigh =>
      have driven : line.rollOver.drive.rollOver = line.drive.rollOver :=
        congrArg (fun after : SimulatedLine => { after with powered := true }) line.letGo_rollOver
      exact congrArg (Prod.mk _) driven
  | sample | latency => exact congrArg (Prod.mk _) line.rollOver_rollOver
  | delay time =>
      have waited : (line.rollOver.wait time).rollOver = (line.wait time).rollOver :=
        congrArg (fun after : SimulatedLine => { after with now := line.now + time })
          line.rollOver_rollOver
      exact congrArg (Prod.mk _) waited

theorem eval_answerRolling (program : Program (Line.interface ε) α) (line : SimulatedLine) :
    program.eval answerRolling line.rollOver =
      ((program.eval answer line).1, (program.eval answer line).2.rollOver) := by
  induction program generalizing line with
  | done value => rfl
  | ask request next ih =>
      rw [Program.eval_ask, answerRolling_rollOver]
      exact ih _ _
  | note event rest ih => exact ih line

/-- The clock moved on by at most the longest reset and the longest slot of the standard timing for
each that was counted. -/
def Paced (line after : SimulatedLine) : Prop :=
  after.now + 1260 * line.resets + 85 * line.slots ≤
    line.now + 1260 * after.resets + 85 * after.slots

theorem Paced.trans (first : line.Paced middle) (second : middle.Paced after) : line.Paced after := by
  unfold Paced at first second ⊢
  omega

theorem paced_slot (line : SimulatedLine) (bit : Bool) {length : Nat} (short : length ≤ 85) :
    line.Paced (line.slot bit length) := by
  simp only [Paced, slot]
  omega

theorem paced_readBit (standard : master.IsStandard) (up : line.fellAt = none) :
    ∃ bit, ∃ length ≤ 85,
      Task.eval answer (master.readBit : Task (Line.interface ε) ε Bool) line =
        (.ok bit, line.slot true length) := by
  obtain ⟨samplePoint, timing⟩ := standard.timing
  have early : master.sampleDelay < 30 := standard.early
  refine ⟨_, master.sampleDelay + master.timing.readRecovery, ?_, eval_readBit_up master up⟩
  rw [timing]
  simp only [Timing.set, Timing.standard]
  omega

theorem Released.paced_serve (released : line.Released) (free : line.stuckLow = false)
    (standard : master.IsStandard) (request : Bus.Request) :
    line.Paced (master.serve (ε := ε) request line).2 := by
  cases request with
  | reset =>
      obtain ⟨time, short, reset⟩ := released.eval_reset (ε := ε) free standard
      rw [serve_reset, reset]
      simp only [Paced, wait, endReset]
      omega
  | writeBit bit =>
      rw [serve_writeBit, eval_writeBit standard released.up]
      exact line.paced_slot bit (by decide)
  | readBit =>
      obtain ⟨bit, length, short, read⟩ := paced_readBit (ε := ε) standard released.up
      rw [serve_readBit, read]
      exact line.paced_slot true short
  | power =>
      have driven : (master.serve (ε := ε) .power line).2 = line.drive := rfl
      rw [driven, drive, letGo_up released.up]
      exact Nat.le_refl _
  | depower =>
      have let_go : (master.serve (ε := ε) .depower line).2 = line.letGo := rfl
      rw [let_go, letGo_up released.up]
      exact Nat.le_refl _
  | triplet direction =>
      obtain ⟨bit, first, first_short, read⟩ := paced_readBit (ε := ε) standard released.up
      obtain ⟨complement, second, second_short, read_again⟩ :=
        @paced_readBit ε (line.slot true first) master standard released.up
      have both := (line.paced_slot true first_short).trans
        ((line.slot true first).paced_slot true second_short)
      rw [serve_triplet, Bus.tripletBy, Task.eval_bind, read]
      dsimp only
      rw [Task.eval_bind, read_again]
      dsimp only
      split
      · exact both
      · rw [Task.eval_bind, eval_writeBit standard (by exact released.up)]
        exact both.trans (paced_slot _ _ (by decide))

end SimulatedLine

theorem Master.Drives.paced {master : Master} {line : SimulatedLine} (drives : master.Drives line)
    (free : line.stuckLow = false) (program : Program (Bus.interface ε) α) :
    line.Paced (Program.eval master.serve program line).2 := by
  have kept := Program.eval_keeps (master.serve (ε := ε))
    (fun after => master.Drives after ∧ after.stuckLow = false ∧ line.Paced after)
    (fun request before ⟨drives, free, paced⟩ =>
      ⟨drives.request request, (SimulatedLine.stuckLow_serve master request before).trans free,
        paced.trans (drives.released.paced_serve free drives.standard request)⟩)
    program line ⟨drives, free, Nat.le_refl _⟩
  exact kept.2.2

namespace Bus

variable {master : Master} {task : Task (interface ε) ε α} {line : SimulatedLine}
  {outcome : Except (BusError ε) α × SimulatedLine}

def perform? (master : Master) (task : Task (interface ε) ε α) (line : SimulatedLine) :
    Option (Except (BusError ε) α × SimulatedLine) :=
  (master.onLine task.run).eval? SimulatedLine.answer? line

def performRolling (master : Master) (task : Task (interface ε) ε α) (line : SimulatedLine) :
    Except (BusError ε) α × SimulatedLine :=
  (master.onLine task.run).eval SimulatedLine.answerRolling line

theorem paced_perform (drives : master.Drives line) (free : line.stuckLow = false)
    (task : Task (interface ε) ε α) : line.Paced (perform master task line).2 := by
  rw [perform_eq_eval]
  exact drives.paced free task.run

/-- What a bus task comes to on a simulated line. On words it comes to nothing else, and it does come
to it while clock and counters are in range behind it. Counters that start over change nothing but
themselves. -/
structure Yields (master : Master) (task : Task (interface ε) ε α) (line : SimulatedLine)
    (outcome : Except (BusError ε) α × SimulatedLine) : Prop where
  counted : perform master task line = outcome
  only : Only (perform? master task line) outcome
  room : outcome.2.InRange → perform? master task line = some outcome
  rolling : performRolling master task line.rollOver = (outcome.1, outcome.2.rollOver)

theorem yields_of_perform (formed : line.WellFormed) (performed : perform master task line = outcome) :
    Yields master task line outcome := by
  subst performed
  have comes := SimulatedLine.narrows.comesTo (master.onLine task.run) formed
  exact ⟨rfl, comes.only, comes.room, SimulatedLine.eval_answerRolling _ line⟩

end Bus

end SingleWire
