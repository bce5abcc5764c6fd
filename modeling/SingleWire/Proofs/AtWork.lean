import SingleWire.Proofs.Carrying
import SingleWire.Proofs.Search.Composition

/-!
A master at work on a simulated line, and searches on it. Whatever ran before, a search operation
begins with a reset, so what it finds and leaves is what it finds and leaves on the untimed bus.
-/

namespace SingleWire

variable {ε α β : Type} {line : SimulatedLine} {master : Master}

/-- A master that was built on a line with the standard timing, but for a sample point that comes
while devices still answer. Since then it has been used, the line shorted or freed, and new devices
attached, in any order. -/
inductive Master.Drives : Master → SimulatedLine → Prop
  | built {ε : Type} {line after : SimulatedLine} {master : Master} {samplePoint : Nat}
      (reachable : line.Reachable) (late : samplePoint < line.latency + Device.zeroLow)
      (success : Task.eval SimulatedLine.answer
        (Master.build (ε := ε) (Timing.standard.set (.samplePoint samplePoint))) line =
          (.ok master, after)) : Drives master after
  | request {ε : Type} {line : SimulatedLine} {master : Master} (request : Bus.Request) :
      Drives master line → Drives master (master.serve (ε := ε) request line).2
  | attach {line grown : SimulatedLine} {master : Master} {device : Device} (new : device.IsNew)
      (room : line.attach? device = some grown) : Drives master line → Drives master grown
  | stick {line : SimulatedLine} {master : Master} (low : Bool) :
      Drives master line → Drives master { line with stuckLow := low }

theorem Master.of_built {σ : Type} {handle : Handler (Line.interface ε) σ} {timing : Timing}
    {start after : σ}
    (built : Task.eval handle (Master.build timing) start = (.ok master, after)) :
    ∃ latency : Nat, (handle .latency start).1 = .ok latency ∧
      Master.shortestReset ≤ timing.resetLow ∧ latency < timing.samplePoint ∧
      master = ⟨timing, timing.samplePoint - latency⟩ := by
  rw [Master.build] at built
  split at built
  · cases built
  · rename_i long
    have asked : Task.eval handle (Line.latency : Task (Line.interface ε) ε Nat) start =
        (Except.mapError .line ((handle .latency start).1 : Except ε Nat),
          (handle .latency start).2) := rfl
    rw [Task.eval_bind, asked] at built
    cases reply : ((handle .latency start).1 : Except ε Nat) with
    | error fault =>
        rw [reply] at built
        cases built
    | ok latency =>
        rw [reply] at built
        dsimp only [Except.mapError] at built
        split at built
        · cases built
        · rename_i early
          have ready : Task.eval handle (Line.release : Task (Line.interface ε) ε Unit)
              (handle .latency start).2 =
              (Except.mapError .line ((handle .release (handle .latency start).2).1 : Except ε Unit),
                (handle .release (handle .latency start).2).2) := rfl
          rw [Task.eval_bind, ready] at built
          cases let_go : ((handle .release (handle .latency start).2).1 : Except ε Unit) with
          | error fault =>
              rw [let_go] at built
              cases built
          | ok done =>
              rw [let_go] at built
              cases built
              exact ⟨latency, rfl, Nat.le_of_not_lt long, Nat.lt_of_not_le early, rfl⟩

namespace SimulatedLine

theorem eval_build (samplePoint : Nat) (line : SimulatedLine) :
    Task.eval answer (Master.build (ε := ε) (Timing.standard.set (.samplePoint samplePoint))) line =
      if samplePoint ≤ line.latency then
        (.error (.calibration line.latency samplePoint), line)
      else
        (.ok ⟨Timing.standard.set (.samplePoint samplePoint), samplePoint - line.latency⟩,
          line.letGo) := by
  have long : ¬ (Timing.standard.set (.samplePoint samplePoint)).resetLow < Master.shortestReset :=
    Nat.not_lt_of_le (by decide : Master.shortestReset ≤ 500)
  rw [Master.build, if_neg long, Task.eval_bind, eval_latency]
  change Task.eval answer (if samplePoint ≤ line.latency then _ else _) line = _
  split
  · rfl
  · rfl

end SimulatedLine

namespace Master.Drives

theorem populated {devices : List Device} (new : ∀ device ∈ devices, device.IsNew)
    (capacity : Nat) :
    (Master.mk Timing.standard 12).Drives (SimulatedLine.populate { capacity } devices).1 := by
  have reachable := (SimulatedLine.Reachable.empty capacity).populate new
  obtain ⟨joined, -, same⟩ := SimulatedLine.populate_frame { capacity } devices
  rw [same] at reachable ⊢
  exact @built Empty _ _ _ 13 reachable (by decide : 13 < 1 + Device.zeroLow)
    (SimulatedLine.eval_build 13 _)

theorem populate {devices : List Device} (drives : master.Drives line)
    (new : ∀ device ∈ devices, device.IsNew) : master.Drives (line.populate devices).1 := by
  induction devices generalizing line with
  | nil => exact drives
  | cons device rest ih =>
      have later : ∀ device ∈ rest, device.IsNew :=
        fun other member => new other (List.mem_cons_of_mem device member)
      rw [SimulatedLine.populate]
      cases room : line.attach? device with
      | some grown => exact ih (drives.attach (new device List.mem_cons_self) room) later
      | none => exact ih drives later

theorem standard (drives : master.Drives line) : master.IsStandard := by
  induction drives with
  | @built ε line after master samplePoint reachable late success =>
      rw [SimulatedLine.eval_build] at success
      split at success
      · cases success
      · cases success
        exact ⟨⟨samplePoint, rfl⟩, by dsimp only; omega⟩
  | request _ _ ih | attach _ _ _ ih | stick _ _ ih => exact ih

theorem released (drives : master.Drives line) : line.Released := by
  induction drives with
  | @built ε line after master samplePoint reachable late success =>
      rw [SimulatedLine.eval_build] at success
      split at success
      · cases success
      · cases success
        exact ⟨reachable.timely.letGo, SimulatedLine.fellAt_letGo line⟩
  | @request ε line master request _ ih => exact ih.toTimely.released_serve master request
  | @attach line grown master device new room _ ih =>
      refine ⟨ih.toTimely.attach new.calm room, ?_⟩
      simp only [SimulatedLine.attach?] at room
      split at room
      · cases room
        exact ih.up
      · cases room
  | stick _ _ ih => exact ⟨⟨ih.fell, ih.presence, ih.pulls⟩, ih.up⟩

theorem eval (drives : master.Drives line) (program : Program (Bus.interface ε) α) :
    master.Drives (Program.eval master.serve program line).2 :=
  Program.eval_keeps master.serve master.Drives (fun request _ before => before.request request)
    program line drives

end Master.Drives

/-- What using the bus leaves as it was: who drives the line, whether it is shorted, and what is
attached to it. -/
structure Master.Keeps (master : Master) (line after : SimulatedLine) : Prop where
  drives : master.Drives after
  stuckLow : after.stuckLow = line.stuckLow
  natures : after.natures = line.natures

theorem Master.Keeps.trans {after last : SimulatedLine} (first : master.Keeps line after)
    (second : master.Keeps after last) : master.Keeps line last where
  drives := second.drives
  stuckLow := second.stuckLow.trans first.stuckLow
  natures := second.natures.trans first.natures

theorem Master.Drives.keeps (drives : master.Drives line)
    (program : Program (Bus.interface ε) α) :
    master.Keeps line (Program.eval master.serve program line).2 where
  drives := drives.eval program
  stuckLow :=
    Program.eval_keeps master.serve (fun after => after.stuckLow = line.stuckLow)
      (fun request before same => (SimulatedLine.stuckLow_serve master request before).trans same)
      program line rfl
  natures :=
    Program.eval_keeps master.serve (fun after => after.natures = line.natures)
      (fun request before same => (SimulatedLine.natures_serve master request before).trans same)
      program line rfl

theorem Master.Drives.keeps_onLine (drives : master.Drives line)
    (program : Program (Bus.interface ε) α) :
    master.Keeps line ((master.onLine program).run SimulatedLine.answer line).state := by
  have same : ((master.onLine program).run SimulatedLine.answer line).state =
      (Program.eval master.serve program line).2 := by
    rw [Master.serve, ← Program.eval_through]
    rfl
  rw [same]
  exact drives.keeps program

namespace Bus

/-- Nothing is asked of the bus before a reset. -/
def BeginsWithReset : Program (interface ε) α → Prop
  | .done _ => True
  | .ask request _ => request = .reset
  | .note _ rest => BeginsWithReset rest

theorem BeginsWithReset.bind {program : Program (interface ε) α}
    {next : α → Program (interface ε) β} (first : BeginsWithReset program)
    (rest : ∀ value, BeginsWithReset (next value)) : BeginsWithReset (program.bind next) := by
  induction program with
  | done value => exact rest value
  | ask request proceed ih => exact first
  | note event program ih => exact ih first

end Bus

theorem SimulatedLine.Released.eval_wire (released : line.Released)
    (free : line.stuckLow = false) (standard : master.IsStandard)
    (program : Program (Bus.interface ε) α) (begins : Bus.BeginsWithReset program) :
    (Program.eval master.serve program line).1 = (Program.eval Wire.answer program line.wire).1 ∧
      (Program.eval master.serve program line).2.wire =
        (Program.eval Wire.answer program line.wire).2 := by
  induction program with
  | done value => exact ⟨rfl, rfl⟩
  | note event rest ih => exact ih begins
  | ask request next ih =>
      cases begins
      obtain ⟨after, reset, mirrors⟩ := released.mirrors_reset (ε := ε) free standard
      obtain ⟨value, settled⟩ := mirrors.eval (ε := ε) standard (next (.ok !line.wire.devices.isEmpty))
      rw [Program.eval_ask, serve_reset, reset]
      exact ⟨value, settled.same⟩

theorem SimulatedLine.eval_reset_letGo (master : Master) (line : SimulatedLine) :
    Task.eval answer (master.reset : Task (Line.interface ε) ε Bool) line.letGo =
      Task.eval answer (master.reset : Task (Line.interface ε) ε Bool) line := by
  have idle : Task.eval answer (master.awaitIdle : Task (Line.interface ε) ε Bool) line.letGo =
      Task.eval answer (master.awaitIdle : Task (Line.interface ε) ε Bool) line := by
    simp only [Master.awaitIdle, Task.eval_bind, eval_release, letGo_letGo]
  rw [Master.reset, Task.eval_bind, Task.eval_bind, idle]

section

variable (timely : line.Timely) (free : line.letGo.stuckLow = false) (standard : master.IsStandard)
include timely free standard

theorem SimulatedLine.Timely.eval_ask_reset
    (next : (Bus.interface ε).Reply .reset → Program (Bus.interface ε) α) :
    (Program.eval master.serve (.ask .reset next) line).1 =
        (Program.eval Wire.answer (.ask .reset next) line.letGo.wire).1 ∧
      (Program.eval master.serve (.ask .reset next) line).2.Mirrors
        (Program.eval Wire.answer (.ask .reset next) line.letGo.wire).2 := by
  have released : line.letGo.Released := ⟨timely.letGo, fellAt_letGo line⟩
  obtain ⟨after, reset, mirrors⟩ := released.mirrors_reset (ε := ε) free standard
  rw [Program.eval_ask, serve_reset, ← eval_reset_letGo, reset]
  exact mirrors.eval standard (next (.ok !line.letGo.wire.devices.isEmpty))

theorem SimulatedLine.Timely.eval_wire (program : Program (Bus.interface ε) α)
    (begins : Bus.BeginsWithReset program) :
    (Program.eval master.serve program line).1 =
      (Program.eval Wire.answer program line.letGo.wire).1 := by
  induction program with
  | done value => rfl
  | note event rest ih => exact ih begins
  | ask request next ih =>
      cases begins
      exact (timely.eval_ask_reset free standard next).1

end

namespace Bus

/-- A bus task on the bus that a master makes on a simulated line. -/
def perform (master : Master) (task : Task (interface ε) ε α) (line : SimulatedLine) :
    Except (BusError ε) α × SimulatedLine :=
  let outcome := (master.onLine task.run).run SimulatedLine.answer line
  (outcome.value, outcome.state)

theorem perform_eq_eval (master : Master) (task : Task (interface ε) ε α) (line : SimulatedLine) :
    perform master task line = Task.eval master.serve task line := by
  have same := Program.eval_through master.carry SimulatedLine.answer task.run line
  simp only [perform, Task.eval, Master.serve, ← same]
  rfl

/-- A task that begins with a reset does on the line what it does on the untimed bus. -/
theorem perform_wire (drives : master.Drives line) (free : line.stuckLow = false)
    {task : Task (interface ε) ε α} (begins : BeginsWithReset task.run) :
    ∃ after, perform master task line = ((Task.eval Wire.answer task line.wire).1, after) ∧
      after.wire = (Task.eval Wire.answer task line.wire).2 ∧ master.Keeps line after := by
  have same := drives.released.eval_wire free drives.standard task.run begins
  have performed := perform_eq_eval master task line
  refine ⟨(perform master task line).2, Prod.ext ?_ rfl, ?_, ?_⟩
  · rw [performed]
    exact same.1
  · rw [performed]
    exact same.2
  · rw [performed]
    exact drives.keeps task.run

end Bus

namespace Search

variable {state : State}

def perform (master : Master) (task : SearchTask ε α) (state : State) (line : SimulatedLine) :
    Except (BusError ε) α × State × SimulatedLine :=
  let outcome := (master.onLine (task.run.run state)).run SimulatedLine.answer line
  (outcome.value.1, outcome.value.2, outcome.state)

theorem perform_eq_eval (master : Master) (task : SearchTask ε α) (state : State)
    (line : SimulatedLine) : perform master task state line = eval master.serve task state line := by
  have same := Program.eval_through master.carry SimulatedLine.answer (task.run.run state) line
  simp only [perform, eval, Master.serve, ← same]
  rfl

theorem perform_keeps (drives : master.Drives line) (task : SearchTask ε α) (state : State) :
    master.Keeps line (perform master task state line).2.2 := by
  rw [perform_eq_eval]
  exact drives.keeps (task.run.run state)

def BeginsWithReset (task : SearchTask ε α) : Prop :=
  ∀ state : State, Bus.BeginsWithReset (task.run.run state)

theorem perform_wire (drives : master.Drives line) (free : line.stuckLow = false)
    {task : SearchTask ε α} (begins : BeginsWithReset task) (state : State) :
    ∃ after, perform master task state line =
        ((eval Wire.answer task state line.wire).1, (eval Wire.answer task state line.wire).2.1, after) ∧
      after.wire = (eval Wire.answer task state line.wire).2.2 ∧ master.Keeps line after := by
  have same := drives.released.eval_wire free drives.standard (task.run.run state) (begins state)
  refine ⟨(perform master task state line).2.2, ?_, ?_, perform_keeps drives task state⟩
  · rw [perform_eq_eval]
    simp only [eval, same.1]
  · rw [perform_eq_eval]
    exact same.2

theorem perform_timely (timely : line.Timely) (free : line.stuckLow = false)
    (standard : master.IsStandard) {task : SearchTask ε α} (begins : BeginsWithReset task)
    (state : State) :
    ∃ after, perform master task state line =
      ((eval Wire.answer task state line.letGo.wire).1,
        (eval Wire.answer task state line.letGo.wire).2.1, after) := by
  have still_free : line.letGo.stuckLow = false :=
    (SimulatedLine.stuckLow_answer (ε := ε) .release line).trans free
  have same := timely.eval_wire still_free standard (task.run.run state) (begins state)
  refine ⟨(perform master task state line).2.2, ?_⟩
  rw [perform_eq_eval]
  simp only [eval, same]

theorem beginsWithReset_pure (value : α) : BeginsWithReset (pure value : SearchTask ε α) :=
  fun _ => trivial

theorem beginsWithReset_modify (change : State → State) :
    BeginsWithReset (modify change : SearchTask ε PUnit) := fun _ => trivial

theorem BeginsWithReset.bind {task : SearchTask ε α} {next : α → SearchTask ε β}
    (first : BeginsWithReset task) (rest : ∀ value, BeginsWithReset (next value)) :
    BeginsWithReset (task >>= next) := by
  intro state
  rw [ExceptT.run_bind, StateT.run_bind]
  apply (first state).bind
  rintro ⟨outcome, after⟩
  cases outcome with
  | ok value => exact rest value after
  | error error => trivial

theorem BeginsWithReset.attempt {task : SearchTask ε α} (begins : BeginsWithReset task) :
    BeginsWithReset (Search.attempt task) := by
  intro state
  rw [Search.attempt, ExceptT.run_lift, StateT.run_map, map_eq_pure_bind]
  exact (begins state).bind fun _ => trivial

theorem beginsWithReset_pass : BeginsWithReset (pass : SearchTask ε Rom) := fun _ => rfl

theorem composes_beginsWithReset :
    Composes fun _ (task : SearchTask ε _) => BeginsWithReset task where
  pure := beginsWithReset_pure
  throw _ := fun _ => trivial
  emit _ := fun _ => trivial
  get := fun _ => trivial
  set _ := fun _ => trivial
  modify := beginsWithReset_modify
  bind first rest := BeginsWithReset.bind first rest
  attempt begins := BeginsWithReset.attempt begins

theorem beginsWithReset_next : BeginsWithReset (next : SearchTask ε (Option Rom)) :=
  composes_beginsWithReset.next beginsWithReset_pass

theorem beginsWithReset_verify (rom : Rom) : BeginsWithReset (verify rom : SearchTask ε Bool) :=
  composes_beginsWithReset.verify beginsWithReset_pass rom

theorem beginsWithReset_collect (passes room : Nat) (found : List Rom) :
    BeginsWithReset (collect passes room found : SearchTask ε (Option (List Rom))) :=
  composes_beginsWithReset.collect beginsWithReset_pass passes room found

end Search

end SingleWire
