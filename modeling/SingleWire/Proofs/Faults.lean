import SingleWire.Program.Faulty
import SingleWire.Proofs.AtWork

/-!
Faults of a layer. A program that stops at faults asks nothing more once a call has failed, and what
comes out of it tells of that fault; a run without a fault among its calls is the run on the layer
itself. All that a master does on a line stops at faults, and so does a call for the next device.
-/

namespace SingleWire

variable {I J : Interface} {σ ε α β : Type}

namespace Program

def Closes (property : α → Prop) : Program I α → Prop
  | done value => property value
  | ask _ _ => False
  | note _ rest => rest.Closes property

/-- After a call that failed nothing more is asked, and the value tells of the fault. -/
def StopsAtFaults (failure : (request : I.Request) → Option (ε → I.Reply request))
    (tells : ε → α → Prop) : Program I α → Prop
  | done _ => True
  | ask request next =>
      (∀ reply, (next reply).StopsAtFaults failure tells) ∧
        ∀ fail, failure request = some fail → ∀ fault, (next (fail fault)).Closes (tells fault)
  | note _ rest => rest.StopsAtFaults failure tells

def fallible (failure : (request : I.Request) → Option (ε → I.Reply request))
    (handle : Handler I σ) : Program I α → σ → Nat
  | done _, _ => 0
  | ask request next, state =>
      (if (failure request).isSome then 1 else 0) +
        (next (handle request state).1).fallible failure handle (handle request state).2
  | note _ rest, state => rest.fallible failure handle state

variable {failure : (request : I.Request) → Option (ε → I.Reply request)} {tells : ε → α → Prop}
  {handle : Handler I σ} {program : Program I α}

theorem Closes.eval {property : α → Prop} (closes : program.Closes property) (handle : Handler I σ)
    (state : σ) : property (program.eval handle state).1 := by
  induction program with
  | done value => exact closes
  | ask request next ih => exact closes.elim
  | note event rest ih => exact ih closes

theorem Closes.bind {property : α → Prop} {result : β → Prop} {next : α → Program I β}
    (closes : program.Closes property)
    (rest : ∀ value, property value → (next value).Closes result) :
    (program.bind next).Closes result := by
  induction program with
  | done value => exact rest value closes
  | ask request proceed ih => exact closes.elim
  | note event program ih => exact ih closes

theorem Closes.through {property : α → Prop} (closes : program.Closes property)
    (carry : (request : I.Request) → Program J (I.Reply request)) :
    (program.through carry).Closes property := by
  induction program with
  | done value => exact closes
  | ask request next ih => exact closes.elim
  | note event rest ih => exact ih closes

theorem Closes.mono {property other : α → Prop} (closes : program.Closes property)
    (implies : ∀ value, property value → other value) : program.Closes other := by
  induction program with
  | done value => exact implies value closes
  | ask request next ih => exact closes.elim
  | note event rest ih => exact ih closes

theorem StopsAtFaults.mono {others : ε → α → Prop} (stops : program.StopsAtFaults failure tells)
    (implies : ∀ fault value, tells fault value → others fault value) :
    program.StopsAtFaults failure others := by
  induction program with
  | done value => trivial
  | ask request next ih =>
      refine ⟨fun reply => ih reply (stops.1 reply), ?_⟩
      intro fail fails fault
      exact (stops.2 fail fails fault).mono (implies fault)
  | note event rest ih => exact ih stops

theorem StopsAtFaults.bind {next : α → Program I β} {result : ε → β → Prop}
    (stops : program.StopsAtFaults failure tells)
    (rest : ∀ value, (next value).StopsAtFaults failure result)
    (closes : ∀ fault value, tells fault value → (next value).Closes (result fault)) :
    (program.bind next).StopsAtFaults failure result := by
  induction program with
  | done value => exact rest value
  | ask request proceed ih =>
      refine ⟨fun reply => ih reply (stops.1 reply), ?_⟩
      intro fail fails fault
      exact (stops.2 fail fails fault).bind (closes fault)
  | note event program ih => exact ih stops

theorem StopsAtFaults.through {below : (request : J.Request) → Option (ε → J.Reply request)}
    (stops : program.StopsAtFaults failure tells)
    {carry : (request : I.Request) → Program J (I.Reply request)}
    (carried : ∀ request, (carry request).StopsAtFaults below fun fault reply =>
      ∃ fail, failure request = some fail ∧ reply = fail fault) :
    (program.through carry).StopsAtFaults below tells := by
  induction program with
  | done value => trivial
  | ask request next ih =>
      refine (carried request).bind (fun reply => ih reply (stops.1 reply)) ?_
      rintro fault _ ⟨fail, fails, rfl⟩
      exact (stops.2 fail fails fault).through carry
  | note event rest ih => exact ih stops

theorem eval_faulty_keeps (handle : Handler I σ) (keeps : σ → Prop)
    (step : ∀ request state, keeps state → keeps (handle request state).2)
    (program : Program I α) (faulty : Faulty ε σ) (start : keeps faulty.layer) :
    keeps (program.eval (handle.faulty failure) faulty).2.layer := by
  refine eval_keeps _ (fun after => keeps after.layer) ?_ program faulty start
  intro request before kept
  rw [Handler.faulty]
  cases failure request with
  | none => exact step request before.layer kept
  | some fail =>
      dsimp only
      cases before.plan.lookup before.made with
      | none => exact step request before.layer kept
      | some fault => exact kept

theorem StopsAtFaults.eval_cases (stops : program.StopsAtFaults failure tells) (handle : Handler I σ)
    (faulty : Faulty ε σ) :
    (∃ made, program.eval (handle.faulty failure) faulty =
      ((program.eval handle faulty.layer).1,
        { faulty with layer := (program.eval handle faulty.layer).2, made })) ∨
    ∃ fault, tells fault (program.eval (handle.faulty failure) faulty).1 := by
  induction program generalizing faulty with
  | done value => exact .inl ⟨faulty.made, rfl⟩
  | note event rest ih => exact ih stops faulty
  | ask request next ih =>
      rw [eval_ask, eval_ask, Handler.faulty]
      cases fails : failure request with
      | none => exact ih _ (stops.1 _) _
      | some fail =>
          dsimp only
          cases faulty.plan.lookup faulty.made with
          | none => exact ih _ (stops.1 _) _
          | some fault => exact .inr ⟨fault, (stops.2 fail fails fault).eval _ _⟩

/-- A fault at one of the calls of a run comes out of it. -/
theorem StopsAtFaults.eval_struck (stops : program.StopsAtFaults failure tells) {layer : σ}
    {made position : Nat} (later : made ≤ position)
    (inside : position < made + program.fallible failure handle layer) (fault : ε) :
    tells fault (program.eval (handle.faulty failure) ⟨layer, [(position, fault)], made⟩).1 := by
  induction program generalizing layer made with
  | done value => exact absurd inside (Nat.not_lt_of_le later)
  | note event rest ih => exact ih stops later inside
  | ask request next ih =>
      rw [fallible] at inside
      rw [eval_ask, Handler.faulty]
      cases fails : failure request with
      | none =>
          rw [fails] at inside
          exact ih _ (stops.1 _) later (by simpa using inside)
      | some fail =>
          rw [fails] at inside
          simp only [List.lookup_cons, List.lookup_nil]
          by_cases here : made = position
          · rw [here, beq_self_eq_true]
            exact (stops.2 fail fails fault).eval _ _
          · rw [beq_false_of_ne here]
            refine ih _ (stops.1 _) (by omega) ?_
            simp only [Option.isSome_some, if_true] at inside
            dsimp only
            omega

end Program

namespace Task

def StopsAtFaults (failure : (request : I.Request) → Option (ε → I.Reply request))
    (task : Task I ε α) : Prop :=
  Program.StopsAtFaults failure (fun fault outcome => outcome = .error (.line fault)) task.run

variable {failure : (request : I.Request) → Option (ε → I.Reply request)}

theorem stopsAtFaults_pure (value : α) : (pure value : Task I ε α).StopsAtFaults failure := trivial

theorem stopsAtFaults_throw (error : BusError ε) :
    (throw error : Task I ε α).StopsAtFaults failure := trivial

theorem stopsAtFaults_emit (event : Event) : (emit event : Task I ε Unit).StopsAtFaults failure :=
  trivial

theorem StopsAtFaults.bind {task : Task I ε α} {next : α → Task I ε β}
    (stops : task.StopsAtFaults failure) (rest : ∀ value, (next value).StopsAtFaults failure) :
    (task >>= next).StopsAtFaults failure := by
  rw [StopsAtFaults, ExceptT.run_bind]
  refine Program.StopsAtFaults.bind stops ?_ ?_
  · rintro (error | value)
    · trivial
    · exact rest value
  · rintro fault _ rfl
    rfl

theorem StopsAtFaults.forEach {step : α → Task I ε Unit}
    (each : ∀ element, (step element).StopsAtFaults failure) (elements : List α) :
    (Task.forEach elements step).StopsAtFaults failure := by
  induction elements with
  | nil => exact stopsAtFaults_pure ()
  | cons element rest ih => exact (each element).bind fun _ => ih

end Task

namespace Line

theorem stopsAtFaults_driveLow : (driveLow : Task (interface ε) ε Unit).StopsAtFaults failure :=
  ⟨fun _ => trivial, fun _ same _ => by cases same; rfl⟩

theorem stopsAtFaults_release : (release : Task (interface ε) ε Unit).StopsAtFaults failure :=
  ⟨fun _ => trivial, fun _ same _ => by cases same; rfl⟩

theorem stopsAtFaults_driveHigh : (driveHigh : Task (interface ε) ε Unit).StopsAtFaults failure :=
  ⟨fun _ => trivial, fun _ same _ => by cases same; rfl⟩

theorem stopsAtFaults_sample : (sample : Task (interface ε) ε Bool).StopsAtFaults failure :=
  ⟨fun _ => trivial, fun _ same _ => by cases same; rfl⟩

theorem stopsAtFaults_delay (time : Nat) :
    (delay time : Task (interface ε) ε Unit).StopsAtFaults failure :=
  ⟨fun _ => trivial, fun _ same _ => by cases same⟩

end Line

namespace Master

variable (master : Master)

theorem stopsAtFaults_pollIdle (pause polls : Nat) :
    (pollIdle pause polls : Task (Line.interface ε) ε Bool).StopsAtFaults Line.failure := by
  induction polls with
  | zero => exact Task.stopsAtFaults_pure false
  | succ polls ih =>
      apply Line.stopsAtFaults_sample.bind
      intro high
      split
      · exact Task.stopsAtFaults_pure true
      · exact (Line.stopsAtFaults_delay pause).bind fun _ => ih

theorem stopsAtFaults_resetSlot :
    (master.resetSlot : Task (Line.interface ε) ε Bool).StopsAtFaults Line.failure :=
  Line.stopsAtFaults_driveLow.bind fun _ =>
    (Line.stopsAtFaults_delay _).bind fun _ =>
      Line.stopsAtFaults_release.bind fun _ =>
        (Line.stopsAtFaults_delay _).bind fun _ =>
          Line.stopsAtFaults_sample.bind fun _ =>
            (Line.stopsAtFaults_delay _).bind fun _ =>
              (Task.stopsAtFaults_emit _).bind fun _ => Task.stopsAtFaults_pure _

theorem stopsAtFaults_reset :
    (master.reset : Task (Line.interface ε) ε Bool).StopsAtFaults Line.failure := by
  have idle : (master.awaitIdle : Task (Line.interface ε) ε Bool).StopsAtFaults Line.failure :=
    Line.stopsAtFaults_release.bind fun _ => stopsAtFaults_pollIdle _ _
  apply idle.bind
  intro high
  split
  · exact master.stopsAtFaults_resetSlot
  · exact (Task.stopsAtFaults_emit _).bind fun _ => Task.stopsAtFaults_pure false

theorem stopsAtFaults_writeBit (bit : Bool) :
    (master.writeBit bit : Task (Line.interface ε) ε Unit).StopsAtFaults Line.failure := by
  have slot : ∀ low high : Nat,
      (writeSlot low high : Task (Line.interface ε) ε Unit).StopsAtFaults Line.failure :=
    fun low high => Line.stopsAtFaults_driveLow.bind fun _ =>
      (Line.stopsAtFaults_delay low).bind fun _ =>
        Line.stopsAtFaults_release.bind fun _ => Line.stopsAtFaults_delay high
  cases bit <;> exact slot _ _

theorem stopsAtFaults_readBit :
    (master.readBit : Task (Line.interface ε) ε Bool).StopsAtFaults Line.failure :=
  Line.stopsAtFaults_driveLow.bind fun _ =>
    Line.stopsAtFaults_release.bind fun _ =>
      (Line.stopsAtFaults_delay _).bind fun _ =>
        Line.stopsAtFaults_sample.bind fun _ =>
          (Line.stopsAtFaults_delay _).bind fun _ => Task.stopsAtFaults_pure _

theorem stopsAtFaults_triplet (direction : Bool) :
    (Bus.tripletBy master.readBit master.writeBit direction :
      Task (Line.interface ε) ε Triplet).StopsAtFaults Line.failure := by
  apply master.stopsAtFaults_readBit.bind
  intro bit
  apply master.stopsAtFaults_readBit.bind
  intro complement
  split
  · exact Task.stopsAtFaults_pure _
  · exact (master.stopsAtFaults_writeBit _).bind fun _ => Task.stopsAtFaults_pure _

theorem stopsAtFaults_carry (request : Bus.Request) :
    (master.carry (ε := ε) request).StopsAtFaults Line.failure fun fault reply =>
      ∃ fail, Bus.failure request = some fail ∧ reply = fail fault := by
  cases request with
  | reset => exact master.stopsAtFaults_reset.mono fun _ _ same => ⟨_, rfl, same⟩
  | writeBit bit => exact (master.stopsAtFaults_writeBit bit).mono fun _ _ same => ⟨_, rfl, same⟩
  | readBit => exact master.stopsAtFaults_readBit.mono fun _ _ same => ⟨_, rfl, same⟩
  | power => exact Line.stopsAtFaults_driveHigh.mono fun _ _ same => ⟨_, rfl, same⟩
  | depower => exact Line.stopsAtFaults_release.mono fun _ _ same => ⟨_, rfl, same⟩
  | triplet direction =>
      exact (master.stopsAtFaults_triplet direction).mono fun _ _ same => ⟨_, rfl, same⟩

end Master

def Master.serveFaulty (master : Master) : Handler (Bus.interface ε) (Faulty ε SimulatedLine) :=
  Program.carried master.carry (Handler.faulty Line.failure SimulatedLine.answer)

theorem Program.StopsAtFaults.eval_serveFaulty {program : Program (Bus.interface ε) α}
    {tells : ε → α → Prop} (stops : program.StopsAtFaults Bus.failure tells) (master : Master)
    (faulty : Faulty ε SimulatedLine) :
    (∃ made, program.eval master.serveFaulty faulty =
      ((program.eval master.serve faulty.layer).1,
        { faulty with layer := (program.eval master.serve faulty.layer).2, made })) ∨
    ∃ fault, tells fault (program.eval master.serveFaulty faulty).1 := by
  have whole := (stops.through master.stopsAtFaults_carry).eval_cases SimulatedLine.answer faulty
  rw [Program.eval_through, Program.eval_through] at whole
  exact whole

section

variable {line : SimulatedLine}

/-- What stays of a line whichever calls fail on it. -/
structure SimulatedLine.Intact (line after : SimulatedLine) : Prop where
  timely : after.Timely
  stuckLow : after.stuckLow = line.stuckLow
  natures : after.natures = line.natures

theorem SimulatedLine.Timely.intact (timely : line.Timely) : line.Intact line := ⟨timely, rfl, rfl⟩

theorem SimulatedLine.Intact.trans {after last : SimulatedLine} (first : line.Intact after)
    (second : after.Intact last) : line.Intact last where
  timely := second.timely
  stuckLow := second.stuckLow.trans first.stuckLow
  natures := second.natures.trans first.natures

theorem SimulatedLine.Intact.answer {after : SimulatedLine} (intact : line.Intact after)
    (request : Line.Request) : line.Intact (SimulatedLine.answer (ε := ε) request after).2 where
  timely := intact.timely.answer request
  stuckLow := (stuckLow_answer request after).trans intact.stuckLow
  natures := (natures_answer request after).trans intact.natures

theorem SimulatedLine.Intact.letGo (intact : line.Intact line) : line.Intact line.letGo :=
  intact.answer (ε := Empty) .release

theorem SimulatedLine.Timely.intact_faulty {faulty : Faulty ε SimulatedLine}
    (timely : faulty.layer.Timely) (program : Program (Line.interface ε) α) :
    faulty.layer.Intact
      (program.eval (Handler.faulty Line.failure SimulatedLine.answer) faulty).2.layer :=
  Program.eval_faulty_keeps SimulatedLine.answer faulty.layer.Intact
    (fun request _ intact => intact.answer request) program faulty timely.intact

end

namespace Bus

theorem stopsAtFaults_reset : (reset : Task (interface ε) ε Bool).StopsAtFaults failure :=
  ⟨fun _ => trivial, fun _ same _ => by cases same; rfl⟩

theorem stopsAtFaults_writeBit (bit : Bool) :
    (writeBit bit : Task (interface ε) ε Unit).StopsAtFaults failure :=
  ⟨fun _ => trivial, fun _ same _ => by cases same; rfl⟩

theorem stopsAtFaults_depower : (depower : Task (interface ε) ε Unit).StopsAtFaults failure :=
  ⟨fun _ => trivial, fun _ same _ => by cases same; rfl⟩

theorem stopsAtFaults_triplet (direction : Bool) :
    (triplet direction : Task (interface ε) ε Triplet).StopsAtFaults failure :=
  ⟨fun _ => trivial, fun _ same _ => by cases same; rfl⟩

theorem stopsAtFaults_writeByte (byte : UInt8) :
    (writeByte byte : Task (interface ε) ε Unit).StopsAtFaults failure :=
  (Task.StopsAtFaults.forEach stopsAtFaults_writeBit (bitsOf byte)).bind fun _ =>
    stopsAtFaults_depower

theorem stopsAtFaults_demandPresence :
    (demandPresence : Task (interface ε) ε Unit).StopsAtFaults failure := by
  apply stopsAtFaults_reset.bind
  intro present
  split
  · exact Task.stopsAtFaults_pure ()
  · exact Task.stopsAtFaults_throw _

end Bus

namespace Search

def StopsAtFaults (task : SearchTask ε α) : Prop :=
  ∀ state : State, Program.StopsAtFaults Bus.failure
    (fun fault outcome => outcome.1 = .error (.line fault)) (task.run.run state)

theorem stopsAtFaults_pure (value : α) : StopsAtFaults (pure value : SearchTask ε α) :=
  fun _ => trivial

theorem stopsAtFaults_throw (error : BusError ε) :
    StopsAtFaults (throw error : SearchTask ε α) := fun _ => trivial

theorem stopsAtFaults_emit (event : Event) : StopsAtFaults (emit event : SearchTask ε Unit) :=
  fun _ => trivial

theorem stopsAtFaults_get : StopsAtFaults (get : SearchTask ε State) := fun _ => trivial

theorem stopsAtFaults_set (after : State) : StopsAtFaults (set after : SearchTask ε PUnit) :=
  fun _ => trivial

theorem stopsAtFaults_modify (change : State → State) :
    StopsAtFaults (modify change : SearchTask ε PUnit) := fun _ => trivial

theorem stopsAtFaults_onBus {task : Task (Bus.interface ε) ε α}
    (stops : task.StopsAtFaults Bus.failure) : StopsAtFaults (onBus task) := by
  intro state
  refine Program.StopsAtFaults.bind stops (fun _ => trivial) ?_
  rintro fault _ rfl
  rfl

theorem StopsAtFaults.bind {task : SearchTask ε α} {next : α → SearchTask ε β}
    (stops : StopsAtFaults task) (rest : ∀ value, StopsAtFaults (next value)) :
    StopsAtFaults (task >>= next) := by
  intro state
  rw [ExceptT.run_bind, StateT.run_bind]
  refine (stops state).bind ?_ ?_
  · rintro ⟨error | value, after⟩
    · trivial
    · exact rest value after
  · rintro fault ⟨_, after⟩ rfl
    rfl

theorem StopsAtFaults.bind_attempt {task : SearchTask ε α}
    {next : Except (BusError ε) α → SearchTask ε β} (stops : StopsAtFaults task)
    (rest : ∀ outcome, StopsAtFaults (next outcome))
    (rethrown : ∀ fault state, ((next (.error (.line fault))).run.run state).Closes fun outcome =>
      outcome.1 = .error (.line fault)) :
    StopsAtFaults (attempt task >>= next) := by
  intro state
  rw [ExceptT.run_bind, StateT.run_bind, attempt, ExceptT.run_lift, StateT.run_map,
    map_eq_pure_bind]
  have kept : Program.StopsAtFaults Bus.failure
      (fun fault outcome => outcome.1 = .ok (.error (.line fault)))
      (task.run.run state >>= fun outcome =>
        pure ((.ok outcome.1 : Except (BusError ε) (Except (BusError ε) α)), outcome.2)) := by
    refine (stops state).bind (fun _ => trivial) ?_
    rintro fault ⟨_, after⟩ rfl
    rfl
  refine kept.bind ?_ ?_
  · rintro ⟨error | outcome, after⟩
    · trivial
    · exact rest outcome after
  -- Here the fault is a value, and what follows has to throw it again.
  · rintro fault ⟨_, after⟩ rfl
    exact rethrown fault after

theorem stopsAtFaults_visit (last index : Nat) :
    StopsAtFaults (visit last index : SearchTask ε Nat) := by
  apply stopsAtFaults_get.bind
  intro state
  apply (stopsAtFaults_onBus (Bus.stopsAtFaults_triplet _)).bind
  intro triplet
  split
  · exact stopsAtFaults_throw _
  · exact (stopsAtFaults_set _).bind fun _ => stopsAtFaults_pure _

theorem stopsAtFaults_foldlM_visit (indices : List Nat) (last : Nat) :
    StopsAtFaults (indices.foldlM visit last : SearchTask ε Nat) := by
  induction indices generalizing last with
  | nil => exact stopsAtFaults_pure last
  | cons index rest ih => exact (stopsAtFaults_visit last index).bind fun later => ih later

theorem stopsAtFaults_pass : StopsAtFaults (pass : SearchTask ε Rom) := by
  apply (stopsAtFaults_onBus Bus.stopsAtFaults_demandPresence).bind
  intro _
  apply stopsAtFaults_get.bind
  intro start
  apply (stopsAtFaults_onBus (Bus.stopsAtFaults_writeByte _)).bind
  intro _
  apply (stopsAtFaults_foldlM_visit (List.range 64) 0).bind
  intro lastZero
  apply (stopsAtFaults_modify _).bind
  intro _
  apply stopsAtFaults_get.bind
  intro state
  exact (stopsAtFaults_emit _).bind fun _ => stopsAtFaults_pure _

theorem stopsAtFaults_judge (rom : Rom) :
    StopsAtFaults (judge rom : SearchTask ε (Option Rom)) := by
  apply stopsAtFaults_get.bind
  intro state
  split
  · exact (stopsAtFaults_set _).bind fun _ => stopsAtFaults_pure _
  split
  · exact (stopsAtFaults_emit _).bind fun _ => stopsAtFaults_throw _
  split
  · exact (stopsAtFaults_set _).bind fun _ => stopsAtFaults_pure _
  · exact (stopsAtFaults_emit _).bind fun _ => stopsAtFaults_pure _

theorem stopsAtFaults_next : StopsAtFaults (next : SearchTask ε (Option Rom)) := by
  apply stopsAtFaults_get.bind
  intro state
  split
  · exact stopsAtFaults_pure none
  refine stopsAtFaults_pass.bind_attempt ?_ fun _ _ => rfl
  intro outcome
  split
  · exact stopsAtFaults_judge _
  · exact (stopsAtFaults_emit _).bind fun _ =>
      (stopsAtFaults_modify _).bind fun _ => stopsAtFaults_pure _
  · exact (stopsAtFaults_emit _).bind fun _ =>
      (stopsAtFaults_modify _).bind fun _ => stopsAtFaults_pure _
  · exact stopsAtFaults_throw _

end Search

end SingleWire
