import SingleWire.Program.Recorded
import SingleWire.Proofs.Operations

/-!
What any line hears of a master. Each bus request is one slot, or three of a triplet; a call that
fails cuts its slot short and is the last one. So the calls of every operation are whole slots one
after another, and behind them at most the beginning of one.
-/

namespace SingleWire

variable {ε σ α β : Type}

namespace Program

variable {I J : Interface} {handle : Handler I σ} {program : Program I α}

def calls (handle : Handler I σ) : Program I α → σ → List (Call I)
  | done _, _ => []
  | ask request next, state =>
      ⟨request, (handle request state).1⟩ ::
        (next (handle request state).1).calls handle (handle request state).2
  | note _ rest, state => rest.calls handle state

theorem eval_recorded (handle : Handler I σ) (program : Program I α) (state : σ)
    (earlier : List (Call I)) :
    program.eval handle.recorded ⟨state, earlier⟩ =
      ((program.eval handle state).1,
        ⟨(program.eval handle state).2, (program.calls handle state).reverse ++ earlier⟩) := by
  induction program generalizing state earlier with
  | done value => rfl
  | note event rest ih => exact ih state earlier
  | ask request next ih =>
      rw [eval_ask, eval_ask, calls, List.reverse_cons, List.append_assoc, List.singleton_append]
      exact ih _ _ _

theorem calls_bind (program : Program I α) (next : α → Program I β) (state : σ) :
    (program.bind next).calls handle state =
      program.calls handle state ++
        (next (program.eval handle state).1).calls handle (program.eval handle state).2 := by
  induction program generalizing state with
  | done value => rfl
  | note event rest ih => exact ih state
  | ask request proceed ih =>
      simp only [bind, calls, eval_ask, List.cons_append, ih]

theorem Closes.calls_eq_nil {property : α → Prop} (closes : program.Closes property) (state : σ) :
    program.calls handle state = [] := by
  induction program with
  | done value => rfl
  | ask request next ih => exact closes.elim
  | note event rest ih => exact ih closes

end Program

namespace Task

variable {I : Interface} {handle : Handler I σ} {task : Task I ε α} {next : α → Task I ε β}
  {state after last : σ} {made more : List (Call I)}

structure Runs (handle : Handler I σ) (task : Task I ε α) (state : σ) (made : List (Call I))
    (outcome : Except (BusError ε) α) (after : σ) : Prop where
  eval : Task.eval handle task state = (outcome, after)
  calls : task.run.calls handle state = made

theorem runs_pure (value : α) (state : σ) :
    Runs handle (pure value : Task I ε α) state [] (.ok value) state :=
  ⟨rfl, rfl⟩

theorem runs_emit (event : Event) (state : σ) :
    Runs handle (emit event : Task I ε Unit) state [] (.ok ()) state :=
  ⟨rfl, rfl⟩

theorem runs_call {γ : Type} {request : I.Request} (view : I.Reply request → Except ε γ)
    (reply : Except ε γ → I.Reply request) (same : ∀ told, reply (view told) = told) (state : σ) :
    let task : Task I ε γ :=
      ExceptT.mk (.ask request fun told => .done ((view told).mapError .line))
    ∃ after, (∃ value, Runs handle task state [⟨request, reply (.ok value)⟩] (.ok value) after) ∨
      ∃ fault, Runs handle task state [⟨request, reply (.error fault)⟩] (.error (.line fault)) after := by
  intro task
  have ran : Runs handle task state [⟨request, reply (view (handle request state).1)⟩]
      ((view (handle request state).1).mapError .line) (handle request state).2 := by
    rw [same]
    exact ⟨rfl, rfl⟩
  refine ⟨(handle request state).2, ?_⟩
  cases told : view (handle request state).1 with
  | ok value =>
      rw [told] at ran
      exact .inl ⟨value, ran⟩
  | error fault =>
      rw [told] at ran
      exact .inr ⟨fault, ran⟩

theorem runs_signal {request : I.Request} (view : I.Reply request → Except ε Unit)
    (reply : Except ε Unit → I.Reply request) (same : ∀ told, reply (view told) = told) (state : σ) :
    let task : Task I ε Unit :=
      ExceptT.mk (.ask request fun told => .done ((view told).mapError .line))
    ∃ after, Runs handle task state [⟨request, reply (.ok ())⟩] (.ok ()) after ∨
      ∃ fault, Runs handle task state [⟨request, reply (.error fault)⟩] (.error (.line fault)) after := by
  obtain ⟨after, ⟨_, ran⟩ | failed⟩ := @runs_call ε σ I handle Unit request view reply same state
  · exact ⟨after, .inl ran⟩
  · exact ⟨after, .inr failed⟩

theorem Runs.bind {value : α} {outcome : Except (BusError ε) β}
    (first : Runs handle task state made (.ok value) after)
    (second : Runs handle (next value) after more outcome last) :
    Runs handle (task >>= next) state (made ++ more) outcome last where
  eval := by rw [eval_bind, first.eval]; exact second.eval
  calls := by
    have value_eq : (Program.eval handle task.run state).1 = .ok value := congrArg Prod.fst first.eval
    have after_eq : (Program.eval handle task.run state).2 = after := congrArg Prod.snd first.eval
    rw [ExceptT.run_bind, Program.bind_eq_bind, Program.calls_bind, first.calls, value_eq, after_eq,
      ← second.calls]

theorem Runs.bind_error {error : BusError ε}
    (failed : Runs handle task state made (.error error) after) :
    Runs handle (task >>= next) state made (.error error) after where
  eval := by rw [eval_bind, failed.eval]
  calls := by
    have value_eq : (Program.eval handle task.run state).1 = .error error :=
      congrArg Prod.fst failed.eval
    rw [ExceptT.run_bind, Program.bind_eq_bind, Program.calls_bind, failed.calls, value_eq]
    exact List.append_nil made

end Task

namespace Line

def lowered : Call (interface ε) := ⟨.driveLow, (.ok () : Except ε Unit)⟩

def released : Call (interface ε) := ⟨.release, (.ok () : Except ε Unit)⟩

def raised : Call (interface ε) := ⟨.driveHigh, (.ok () : Except ε Unit)⟩

def sampled (level : Bool) : Call (interface ε) := ⟨.sample, (.ok level : Except ε Bool)⟩

def waited (time : Nat) : Call (interface ε) := ⟨.delay time, ()⟩

variable {handle : Handler (interface ε) σ}

theorem runs_driveLow (state : σ) :
    ∃ after, Task.Runs handle driveLow state [lowered] (.ok ()) after ∨
      ∃ fault : ε, Task.Runs handle driveLow state
        [⟨.driveLow, (.error fault : Except ε Unit)⟩] (.error (.line fault)) after :=
  @Task.runs_signal ε σ (interface ε) handle .driveLow id id (fun _ => rfl) state

theorem runs_release (state : σ) :
    ∃ after, Task.Runs handle release state [released] (.ok ()) after ∨
      ∃ fault : ε, Task.Runs handle release state
        [⟨.release, (.error fault : Except ε Unit)⟩] (.error (.line fault)) after :=
  @Task.runs_signal ε σ (interface ε) handle .release id id (fun _ => rfl) state

theorem runs_driveHigh (state : σ) :
    ∃ after, Task.Runs handle driveHigh state [raised] (.ok ()) after ∨
      ∃ fault : ε, Task.Runs handle driveHigh state
        [⟨.driveHigh, (.error fault : Except ε Unit)⟩] (.error (.line fault)) after :=
  @Task.runs_signal ε σ (interface ε) handle .driveHigh id id (fun _ => rfl) state

theorem runs_sample (state : σ) :
    ∃ after, (∃ level, Task.Runs handle sample state [sampled level] (.ok level) after) ∨
      ∃ fault : ε, Task.Runs handle sample state
        [⟨.sample, (.error fault : Except ε Bool)⟩] (.error (.line fault)) after :=
  @Task.runs_call ε σ (interface ε) handle Bool .sample id id (fun _ => rfl) state

theorem runs_delay (time : Nat) (state : σ) :
    Task.Runs handle (delay time : Task (interface ε) ε Unit) state [waited time] (.ok ())
      (handle (.delay time) state).2 :=
  ⟨rfl, rfl⟩

def hold (held : Bool) : Request → Option Bool
  | .driveLow => some true
  | .release | .driveHigh => some false
  | .sample => if held then none else some false
  | .delay _ | .latency => some held

end Line

namespace Master

open Line

variable {master : Master} {unit rest : List (Call (Line.interface ε))} {cut : Option ε}

def lowPolls (pause count : Nat) : List (Call (Line.interface ε)) :=
  (List.replicate count [sampled false, waited pause]).flatten

/-- The calls of one whole slot, or of one change of power, none of which failed. -/
inductive Slot (master : Master) : List (Call (Line.interface ε)) → Prop
  | write (bit : Bool) : Slot master
      [lowered, waited (if bit then master.timing.writeOneLow else master.timing.writeZeroLow),
        released, waited (if bit then master.timing.writeOneHigh else master.timing.writeZeroHigh)]
  | read (level : Bool) : Slot master
      [lowered, released, waited master.sampleDelay, sampled level,
        waited master.timing.readRecovery]
  | reset (low : Nat) (level : Bool) (patient : low < max master.timing.idlePolls 1) :
      Slot master (released :: lowPolls master.timing.idlePoll low ++
        [sampled true, lowered, waited master.timing.resetLow, released,
          waited master.timing.presenceSample, sampled level, waited master.timing.resetSettle])
  | refused : Slot master
      (released :: lowPolls master.timing.idlePoll (max master.timing.idlePolls 1))
  | power : Slot master [raised]
  | depower : Slot master [released]

def CutShort (whole : List (Call (Line.interface ε))) (fault : ε)
    (made : List (Call (Line.interface ε))) : Prop :=
  ∃ before after, ∃ call : Call (Line.interface ε), ∃ fail, whole = before ++ call :: after ∧
    Line.failure call.request = some fail ∧ made = before ++ [⟨call.request, fail fault⟩]

/-- Whole slots one after another; or, with the fault of the call that failed, whole slots and then
one more up to that call, which is the last. -/
inductive Speech (master : Master) : List (Call (Line.interface ε)) → Option ε → Prop
  | silence : Speech master [] none
  | slot {unit rest : List (Call (Line.interface ε))} {cut : Option ε} (whole : master.Slot unit)
      (more : Speech master rest cut) : Speech master (unit ++ rest) cut
  | cut {unit made : List (Call (Line.interface ε))} {fault : ε} (whole : master.Slot unit)
      (short : CutShort unit fault made) : Speech master made (some fault)

theorem CutShort.prepend {fault : ε} (short : CutShort unit fault rest)
    (first : List (Call (Line.interface ε))) : CutShort (first ++ unit) fault (first ++ rest) := by
  obtain ⟨before, after, call, fail, rfl, fails, rfl⟩ := short
  refine ⟨first ++ before, after, call, fail, ?_, fails, ?_⟩
  · rw [List.append_assoc]
  · rw [List.append_assoc]

theorem Speech.append (first : master.Speech unit none) (second : master.Speech rest cut) :
    master.Speech (unit ++ rest) cut := by
  generalize ended : (none : Option ε) = none_cut at first
  induction first with
  | silence => exact second
  | slot whole _ ih =>
      rw [List.append_assoc]
      exact .slot whole (ih ended)
  | cut whole short => cases ended

theorem Slot.speech (whole : master.Slot unit) : master.Speech unit none := by
  have alone := Speech.slot whole .silence
  rwa [List.append_nil] at alone

/-- Whatever the line replies, a task makes whole slots; if a call fails, it is the last one, and the
task ends with its fault. -/
def Utters (master : Master) (task : Task (Line.interface ε) ε α) : Prop :=
  ∀ {σ : Type} (handle : Handler (Line.interface ε) σ) (state : σ),
    ∃ made outcome after cut, Task.Runs handle task state made outcome after ∧
      master.Speech made cut ∧ ∀ fault ∈ cut, outcome = .error (.line fault)

theorem utters_pure (value : α) : master.Utters (pure value : Task (Line.interface ε) ε α) :=
  fun _ state => ⟨[], .ok value, state, none, Task.runs_pure value state, .silence, by simp⟩

theorem Utters.bind {task : Task (Line.interface ε) ε α} {next : α → Task (Line.interface ε) ε β}
    (first : master.Utters task) (second : ∀ value, master.Utters (next value)) :
    master.Utters (task >>= next) := by
  intro σ handle state
  obtain ⟨made, outcome, after, cut, ran, speech, tells⟩ := first handle state
  cases outcome with
  | error error =>
      exact ⟨made, .error error, after, cut, ran.bind_error, speech, fun fault struck => by
        cases tells fault struck
        rfl⟩
  | ok value =>
      cases cut with
      | some fault => cases tells fault rfl
      | none =>
          obtain ⟨more, outcome, last, cut, ran_on, speech_on, tells_on⟩ := second value handle after
          exact ⟨made ++ more, outcome, last, cut, ran.bind ran_on, speech.append speech_on, tells_on⟩

theorem utters_writeSlot {low high : Nat}
    (whole : master.Slot (ε := ε) [lowered, waited low, released, waited high]) :
    master.Utters (writeSlot low high : Task (Line.interface ε) ε Unit) := by
  intro σ handle state
  obtain ⟨fell, drove | ⟨fault, failed⟩⟩ := @runs_driveLow ε σ handle state
  · have rested := @runs_delay ε σ handle low fell
    obtain ⟨up, let_go | ⟨fault, failed⟩⟩ := @runs_release ε σ handle (handle (.delay low) fell).2
    · exact ⟨_, _, _, none, drove.bind (rested.bind (let_go.bind (runs_delay high up))),
        whole.speech, by simp⟩
    · exact ⟨_, _, _, some fault, drove.bind (rested.bind failed.bind_error),
        .cut whole ⟨[lowered, waited low], _, released, _, rfl, rfl, rfl⟩, by simp⟩
  · exact ⟨_, _, _, some fault, failed.bind_error,
      .cut whole ⟨[], _, lowered, _, rfl, rfl, rfl⟩, by simp⟩

theorem utters_writeBit (bit : Bool) :
    master.Utters (master.writeBit bit : Task (Line.interface ε) ε Unit) := by
  cases bit with
  | false => exact utters_writeSlot (Slot.write false)
  | true => exact utters_writeSlot (Slot.write true)

theorem utters_readBit : master.Utters (master.readBit : Task (Line.interface ε) ε Bool) := by
  intro σ handle state
  obtain ⟨fell, drove | ⟨fault, failed⟩⟩ := @runs_driveLow ε σ handle state
  · obtain ⟨up, let_go | ⟨fault, failed⟩⟩ := @runs_release ε σ handle fell
    · have rested := @runs_delay ε σ handle master.sampleDelay up
      obtain ⟨seen, ⟨level, read⟩ | ⟨fault, failed⟩⟩ :=
        @runs_sample ε σ handle (handle (.delay master.sampleDelay) up).2
      · have recovered := @runs_delay ε σ handle master.timing.readRecovery seen
        exact ⟨_, _, _, none, drove.bind (let_go.bind (rested.bind (read.bind
          (recovered.bind (Task.runs_pure level _))))), (Slot.read level).speech, by simp⟩
      · exact ⟨_, _, _, some fault, drove.bind (let_go.bind (rested.bind failed.bind_error)),
          .cut (Slot.read true) ⟨[lowered, released, waited master.sampleDelay], _, sampled true, _,
            rfl, rfl, rfl⟩, by simp⟩
    · exact ⟨_, _, _, some fault, drove.bind failed.bind_error,
        .cut (Slot.read true) ⟨[lowered], _, released, _, rfl, rfl, rfl⟩, by simp⟩
  · exact ⟨_, _, _, some fault, failed.bind_error,
      .cut (Slot.read true) ⟨[], _, lowered, _, rfl, rfl, rfl⟩, by simp⟩

theorem lowPolls_succ (pause count : Nat) :
    (lowPolls pause (count + 1) : List (Call (Line.interface ε))) =
      [sampled false, waited pause] ++ lowPolls pause count := by
  rw [lowPolls, List.replicate_succ, List.flatten_cons, lowPolls]

theorem runs_pollIdle {σ : Type} (handle : Handler (Line.interface ε) σ) (pause polls : Nat)
    (state : σ) :
    ∃ after,
      (∃ low < polls, Task.Runs handle (pollIdle pause polls) state
        (lowPolls pause low ++ [sampled true]) (.ok true) after) ∨
      Task.Runs handle (pollIdle pause polls) state (lowPolls pause polls) (.ok false) after ∨
      ∃ low < polls, ∃ fault : ε, Task.Runs handle (pollIdle pause polls) state
        (lowPolls pause low ++ [⟨.sample, (.error fault : Except ε Bool)⟩])
        (.error (.line fault)) after := by
  induction polls generalizing state with
  | zero => exact ⟨state, .inr (.inl (Task.runs_pure false state))⟩
  | succ polls ih =>
      rw [pollIdle]
      obtain ⟨seen, ⟨level, read⟩ | ⟨fault, failed⟩⟩ := @runs_sample ε σ handle state
      · cases level with
        | true =>
            exact ⟨seen, .inl ⟨0, Nat.succ_pos polls, read.bind (Task.runs_pure true seen)⟩⟩
        | false =>
            have rested := @runs_delay ε σ handle pause seen
            obtain ⟨after, ⟨low, inside, ran⟩ | ran | ⟨low, inside, fault, ran⟩⟩ :=
              ih (handle (.delay pause) seen).2
            · refine ⟨after, .inl ⟨low + 1, Nat.succ_lt_succ inside, ?_⟩⟩
              rw [lowPolls_succ]
              exact read.bind (rested.bind ran)
            · refine ⟨after, .inr (.inl ?_)⟩
              rw [lowPolls_succ]
              exact read.bind (rested.bind ran)
            · refine ⟨after, .inr (.inr ⟨low + 1, Nat.succ_lt_succ inside, fault, ?_⟩)⟩
              rw [lowPolls_succ]
              exact read.bind (rested.bind ran)
      · exact ⟨seen, .inr (.inr ⟨0, Nat.succ_pos polls, fault, failed.bind_error⟩)⟩

def pulse (master : Master) (level : Bool) : List (Call (Line.interface ε)) :=
  [lowered, waited master.timing.resetLow, released, waited master.timing.presenceSample,
    sampled level, waited master.timing.resetSettle]

theorem runs_resetSlot {σ : Type} (handle : Handler (Line.interface ε) σ) (state : σ) :
    ∃ after,
      (∃ level, Task.Runs handle master.resetSlot state (master.pulse level) (.ok !level) after) ∨
      ∃ made, ∃ fault : ε, Task.Runs handle master.resetSlot state made (.error (.line fault)) after ∧
        CutShort (master.pulse true) fault made := by
  obtain ⟨fell, drove | ⟨fault, failed⟩⟩ := @runs_driveLow ε σ handle state
  · have held := @runs_delay ε σ handle master.timing.resetLow fell
    obtain ⟨up, let_go | ⟨fault, failed⟩⟩ :=
      @runs_release ε σ handle (handle (.delay master.timing.resetLow) fell).2
    · have rested := @runs_delay ε σ handle master.timing.presenceSample up
      obtain ⟨seen, ⟨level, read⟩ | ⟨fault, failed⟩⟩ :=
        @runs_sample ε σ handle (handle (.delay master.timing.presenceSample) up).2
      · have settled := @runs_delay ε σ handle master.timing.resetSettle seen
        exact ⟨_, .inl ⟨level, drove.bind (held.bind (let_go.bind (rested.bind (read.bind
          (settled.bind ((Task.runs_emit _ _).bind (Task.runs_pure _ _)))))))⟩⟩
      · exact ⟨_, .inr ⟨_, fault,
          drove.bind (held.bind (let_go.bind (rested.bind failed.bind_error))),
          [lowered, waited _, released, waited _], _, sampled true, _, rfl, rfl, rfl⟩⟩
    · exact ⟨_, .inr ⟨_, fault, drove.bind (held.bind failed.bind_error),
        [lowered, waited _], _, released, _, rfl, rfl, rfl⟩⟩
  · exact ⟨_, .inr ⟨_, fault, failed.bind_error, [], _, lowered, _, rfl, rfl, rfl⟩⟩

theorem utters_reset : master.Utters (master.reset : Task (Line.interface ε) ε Bool) := by
  intro σ handle state
  obtain ⟨up, let_go | ⟨fault, failed⟩⟩ := @runs_release ε σ handle state
  · obtain ⟨seen, ⟨low, inside, polled⟩ | polled | ⟨low, inside, fault, polled⟩⟩ :=
      runs_pollIdle handle master.timing.idlePoll (max master.timing.idlePolls 1) up
    · have idle : Task.Runs handle master.awaitIdle state _ _ seen := let_go.bind polled
      have whole : ∀ level, master.Slot (ε := ε)
          ([released] ++ (lowPolls master.timing.idlePoll low ++ [sampled true]) ++
            master.pulse level) := by
        intro level
        simpa [pulse] using Slot.reset (ε := ε) low level inside
      obtain ⟨last, ⟨level, ran⟩ | ⟨made, fault, ran, short⟩⟩ :=
        @runs_resetSlot ε master σ handle seen
      · exact ⟨_, _, last, none, idle.bind ran, (whole level).speech, by simp⟩
      · exact ⟨_, _, last, some fault, idle.bind ran, .cut (whole true) (short.prepend _), by simp⟩
    · have idle : Task.Runs handle master.awaitIdle state _ _ seen := let_go.bind polled
      have refused := (@Slot.refused ε master).speech
      refine ⟨_, _, _, none, idle.bind
        ((Task.runs_emit .lineStuckLow seen).bind (Task.runs_pure false seen)), ?_, by simp⟩
      simpa using refused
    · have idle : Task.Runs handle master.awaitIdle state _ _ seen := let_go.bind polled
      exact ⟨_, _, _, some fault, idle.bind_error, .cut (Slot.reset low true inside)
        ⟨released :: lowPolls master.timing.idlePoll low, _, sampled true, _, rfl, rfl, rfl⟩, by simp⟩
  · have idle : Task.Runs handle master.awaitIdle state _ _ up := failed.bind_error
    exact ⟨_, _, _, some fault, idle.bind_error,
      .cut Slot.depower ⟨[], _, released, _, rfl, rfl, rfl⟩, by simp⟩

theorem utters_driveHigh : master.Utters (driveHigh : Task (Line.interface ε) ε Unit) := by
  intro σ handle state
  obtain ⟨up, ran | ⟨fault, failed⟩⟩ := @runs_driveHigh ε σ handle state
  · exact ⟨_, _, _, none, ran, Slot.power.speech, by simp⟩
  · exact ⟨_, _, _, some fault, failed, .cut Slot.power ⟨[], _, raised, _, rfl, rfl, rfl⟩, by simp⟩

theorem utters_release : master.Utters (release : Task (Line.interface ε) ε Unit) := by
  intro σ handle state
  obtain ⟨up, ran | ⟨fault, failed⟩⟩ := @runs_release ε σ handle state
  · exact ⟨_, _, _, none, ran, Slot.depower.speech, by simp⟩
  · exact ⟨_, _, _, some fault, failed, .cut Slot.depower ⟨[], _, released, _, rfl, rfl, rfl⟩,
      by simp⟩

theorem utters_triplet (direction : Bool) :
    master.Utters (Bus.tripletBy master.readBit master.writeBit direction :
      Task (Line.interface ε) ε Triplet) := by
  apply utters_readBit.bind
  intro bit
  apply utters_readBit.bind
  intro complement
  split
  · exact utters_pure _
  · exact Utters.bind (utters_writeBit _) fun _ => utters_pure _

theorem speech_carry {σ : Type} (handle : Handler (Line.interface ε) σ) (request : Bus.Request)
    (state : σ) :
    ∃ cut, master.Speech ((master.carry request).calls handle state) cut ∧
      ∀ fault ∈ cut, ∃ fail, Bus.failure request = some fail ∧
        ((master.carry request).eval handle state).1 = fail fault := by
  have spoken : ∀ {γ : Type} {task : Task (Line.interface ε) ε γ}, master.Utters task →
      ∃ cut, master.Speech (task.run.calls handle state) cut ∧
        ∀ fault ∈ cut, ∃ fail : ε → Except (BusError ε) γ,
          some (fun fault => .error (.line fault)) = some fail ∧
            (task.run.eval handle state).1 = fail fault := by
    intro γ task utters
    obtain ⟨made, outcome, after, cut, ran, speech, tells⟩ := utters handle state
    refine ⟨cut, ?_, ?_⟩
    · rw [ran.calls]
      exact speech
    · intro fault struck
      exact ⟨_, rfl, (congrArg Prod.fst ran.eval).trans (tells fault struck)⟩
  cases request with
  | reset => exact spoken utters_reset
  | writeBit bit => exact spoken (utters_writeBit bit)
  | readBit => exact spoken utters_readBit
  | power => exact spoken utters_driveHigh
  | depower => exact spoken utters_release
  | triplet direction => exact spoken (utters_triplet direction)

theorem speech_onLine {σ : Type} (handle : Handler (Line.interface ε) σ)
    {program : Program (Bus.interface ε) α} {tells : ε → α → Prop}
    (stops : program.StopsAtFaults Bus.failure tells) (state : σ) :
    ∃ cut, master.Speech ((master.onLine program).calls handle state) cut ∧
      ∀ fault ∈ cut, tells fault ((master.onLine program).eval handle state).1 := by
  induction program generalizing state with
  | done value => exact ⟨none, .silence, by simp⟩
  | note event rest ih => exact ih stops state
  | ask request next ih =>
      obtain ⟨cut, speech, replied⟩ := @speech_carry ε master σ handle request state
      rw [onLine, Program.through, Program.calls_bind, Program.eval_bind]
      cases cut with
      | none =>
          obtain ⟨cut, more, told⟩ := ih _ (stops.1 _) ((master.carry request).eval handle state).2
          exact ⟨cut, speech.append more, told⟩
      | some fault =>
          -- The reply tells of the fault, so the program asks nothing more.
          obtain ⟨fail, fails, same⟩ := replied fault rfl
          have closes := (stops.2 fail fails fault).through master.carry
          rw [same, closes.calls_eq_nil, List.append_nil]
          refine ⟨some fault, speech, ?_⟩
          intro struck found
          cases found
          exact closes.eval handle _

theorem hold_lowPolls (pause count : Nat) :
    ((lowPolls pause count : List (Call (Line.interface ε))).map Call.request).foldlM hold false =
      some false := by
  induction count with
  | zero => rfl
  | succ count ih =>
      rw [lowPolls_succ, List.map_append, List.foldlM_append]
      exact ih

theorem Slot.hold (whole : master.Slot unit) :
    (unit.map Call.request).foldlM Line.hold false = some false := by
  cases whole with
  | write bit | read level | power | depower => rfl
  | reset low level patient =>
      rw [List.cons_append, List.map_cons, List.map_append, List.foldlM_cons]
      change List.foldlM _ false _ = _
      rw [List.foldlM_append, hold_lowPolls]
      rfl
  | refused => exact hold_lowPolls _ _

theorem Speech.hold {made : List (Call (Line.interface ε))} (speech : master.Speech made cut) :
    ∃ held, (made.map Call.request).foldlM Line.hold false = some held ∧
      (cut = none → held = false) := by
  induction speech with
  | silence => exact ⟨false, rfl, fun _ => rfl⟩
  | slot whole _ ih =>
      rw [List.map_append, List.foldlM_append, whole.hold]
      exact ih
  | @cut unit made fault whole short =>
      obtain ⟨before, after, call, fail, rfl, fails, rfl⟩ := short
      have kept := whole.hold
      rw [List.append_cons, List.map_append, List.foldlM_append] at kept
      have same : (before ++ [(⟨call.request, fail fault⟩ : Call (Line.interface ε))]).map
          Call.request = (before ++ [call]).map Call.request := by
        rw [List.map_append, List.map_append]
        rfl
      rw [same]
      cases followed : ((before ++ [call]).map Call.request).foldlM Line.hold false with
      | none =>
          rw [followed] at kept
          cases kept
      | some held => exact ⟨held, rfl, fun never => nomatch never⟩

/-- What a recorder on the line keeps of a bus program: whole slots, in which the master never samples
a line that it holds low itself, and then at most the beginning of one, up to the first call that
failed. With no such call the line ends let go; with one the program ends with its fault. -/
def Obeys (master : Master) (handle : Handler (Line.interface ε) σ)
    (program : Program (Bus.interface ε) α) (ends : ε → α → Prop) (line : σ) : Prop :=
  let outcome := (master.onLine program).run handle.recorded ⟨line, []⟩
  let made := outcome.state.calls.reverse
  ∃ cut held, master.Speech made cut ∧ (made.map Call.request).foldlM Line.hold false = some held ∧
    (cut = none → held = false) ∧ ∀ fault ∈ cut, ends fault outcome.value

theorem obeys_of_stopsAtFaults {handle : Handler (Line.interface ε) σ}
    {program : Program (Bus.interface ε) α} {ends : ε → α → Prop}
    (stops : program.StopsAtFaults Bus.failure ends) (line : σ) :
    master.Obeys handle program ends line := by
  obtain ⟨cut, speech, tells⟩ := @speech_onLine ε α master σ handle program ends stops line
  obtain ⟨held, safe, free⟩ := speech.hold
  have recorded := Program.eval_recorded handle (master.onLine program) line []
  have value_eq : ((master.onLine program).run handle.recorded ⟨line, []⟩).value =
      ((master.onLine program).eval handle line).1 := congrArg Prod.fst recorded
  have calls_eq : ((master.onLine program).run handle.recorded ⟨line, []⟩).state.calls.reverse =
      (master.onLine program).calls handle line := by
    have kept := congrArg (fun outcome => outcome.2.calls.reverse) recorded
    dsimp only at kept
    rwa [List.append_nil, List.reverse_reverse] at kept
  rw [Obeys, value_eq, calls_eq]
  exact ⟨cut, held, speech, safe, free, tells⟩

end Master

/-- On any line, whatever it replies and wherever it fails, every operation on the bus and on a search
drives it by the grammar of slots and stops at the first fault. A master exists only with a reset that
devices recognise and with time between the release and the sample of a read slot. -/
theorem operations_obey_grammar {handle : Handler (Line.interface ε) σ} {timing : Timing}
    {start ready : σ} {master : Master}
    (built : Task.eval handle (Master.build timing) start = (.ok master, ready)) :
    (∃ latency : Nat, (handle .latency start).1 = .ok latency ∧ latency < timing.samplePoint ∧
      master = ⟨timing, timing.samplePoint - latency⟩) ∧ 480 ≤ timing.resetLow ∧
    ∀ line : σ,
      (∀ operation : Bus.Operation, master.Obeys handle operation.task.run
        (fun fault outcome => outcome = .error (.line fault)) line) ∧
      (∀ (operation : Search.Operation) (state : Search.State),
        master.Obeys handle (operation.task.run.run state)
          (fun fault outcome => outcome.1 = .error (.line fault)) line) ∧
      ∀ (passes capacity : Nat) (state : Search.State),
        master.Obeys handle ((Search.listing passes capacity).run.run state)
          (fun fault outcome => outcome.1 = .error (.line fault)) line := by
  obtain ⟨latency, answered, long, early, same⟩ := Master.of_built built
  refine ⟨⟨latency, answered, early, same⟩, long, fun line => ⟨?_, ?_, ?_⟩⟩
  · exact fun operation => Master.obeys_of_stopsAtFaults operation.stopsAtFaults_task line
  · exact fun operation state => Master.obeys_of_stopsAtFaults (operation.stopsAtFaults_task state) line
  · exact fun passes capacity state =>
      Master.obeys_of_stopsAtFaults (Search.stopsAtFaults_listing passes capacity state) line

theorem operations_obey_grammar_cut_byte :
    let handle : Handler (Line.interface Nat) (Faulty Nat SimulatedLine) :=
      Handler.faulty Line.failure SimulatedLine.answer
    let line : Faulty Nat SimulatedLine := { layer := {}, plan := [(3, 7)] }
    let program := (Bus.Operation.writeByte 0).task.run
    Master.Obeys ⟨Timing.standard, 12⟩ handle program
      (fun fault outcome => outcome = .error (.line fault)) line ∧
    (((Master.mk Timing.standard 12).onLine program).run handle.recorded ⟨line, []⟩).state.calls.reverse =
      [Line.lowered, Line.waited 60, Line.released, Line.waited 1, Line.lowered, Line.waited 60,
        ⟨.release, (.error 7 : Except Nat Unit)⟩] := by
  intro handle line program
  have obeys := @operations_obey_grammar Nat _ handle Timing.standard { layer := {} } _
    ⟨Timing.standard, 12⟩ rfl
  exact ⟨(obeys.2.2 line).1 (.writeByte 0), rfl⟩

end SingleWire
