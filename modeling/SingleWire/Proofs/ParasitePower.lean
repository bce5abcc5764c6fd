import SingleWire.Proofs.Line.AnyTiming
import SingleWire.Proofs.Line.Grammar
import SingleWire.Proofs.Search.AnyBus
import SingleWire.Proofs.Search.Composition

namespace SingleWire

variable {I J : Interface} {σ ε α β : Type} {line : SimulatedLine} {master : Master}

namespace Program

def Opens : Program I α → Prop
  | done _ => False
  | ask _ _ => True
  | note _ rest => rest.Opens

variable {allowed : I.Request → Prop} {program : Program I α}

theorem Opens.bind {next : α → Program I β} (opens : program.Opens) : (program.bind next).Opens := by
  induction program with
  | done value => exact opens.elim
  | ask request proceed ih => trivial
  | note event rest ih => exact ih opens

theorem Opens.through {carry : (request : I.Request) → Program J (I.Reply request)}
    (opens : program.Opens) (carried : ∀ request, (carry request).Opens) :
    (program.through carry).Opens := by
  induction program with
  | done value => exact opens.elim
  | ask request next ih => exact (carried request).bind
  | note event rest ih => exact ih opens

theorem Opens.calls_ne_nil {handle : Handler I σ} (opens : program.Opens) (state : σ) :
    program.calls handle state ≠ [] := by
  induction program with
  | done value => exact opens.elim
  | ask request next ih => exact List.cons_ne_nil _ _
  | note event rest ih => exact ih opens

theorem Closes.eval_state {property : α → Prop} {handle : Handler I σ}
    (closes : program.Closes property) (state : σ) : (program.eval handle state).2 = state := by
  induction program with
  | done value => rfl
  | ask request next ih => exact closes.elim
  | note event rest ih => exact ih closes

theorem Asks.bind {next : α → Program I β} (asks : program.Asks allowed)
    (rest : ∀ value, (next value).Asks allowed) : (program.bind next).Asks allowed := by
  induction program with
  | done value => exact rest value
  | ask request proceed ih => exact ⟨asks.1, fun reply => ih reply (asks.2 reply)⟩
  | note event program ih => exact ih asks

end Program

namespace Task

variable {allowed : I.Request → Prop}

theorem asks_bind {task : Task I ε α} {next : α → Task I ε β} (first : task.run.Asks allowed)
    (rest : ∀ value, (next value).run.Asks allowed) : (task >>= next).run.Asks allowed := by
  rw [ExceptT.run_bind]
  apply Program.Asks.bind first
  rintro (error | value)
  · trivial
  · exact rest value

theorem asks_map {task : Task I ε α} (asks : task.run.Asks allowed) (change : α → β) :
    (change <$> task).run.Asks allowed := by
  rw [map_eq_pure_bind]
  exact asks_bind asks fun _ => trivial

theorem asks_forEach {step : α → Task I ε Unit} (asks : ∀ element, (step element).run.Asks allowed)
    (elements : List α) : (forEach elements step).run.Asks allowed := by
  induction elements with
  | nil => trivial
  | cons element rest ih => exact asks_bind (asks element) fun _ => ih

end Task

namespace Bus

/-- A task that never asks for power. -/
def Passive (task : Task (interface ε) ε α) : Prop :=
  task.run.Asks fun request : Request => request ≠ .power

theorem passive_reset : Passive (reset : Task (interface ε) ε Bool) :=
  ⟨Request.noConfusion, fun _ => trivial⟩

theorem passive_writeBit (bit : Bool) : Passive (writeBit bit : Task (interface ε) ε Unit) :=
  ⟨Request.noConfusion, fun _ => trivial⟩

theorem passive_readBit : Passive (readBit : Task (interface ε) ε Bool) :=
  ⟨Request.noConfusion, fun _ => trivial⟩

theorem passive_depower : Passive (depower : Task (interface ε) ε Unit) :=
  ⟨Request.noConfusion, fun _ => trivial⟩

theorem passive_triplet (direction : Bool) :
    Passive (triplet direction : Task (interface ε) ε Triplet) :=
  ⟨Request.noConfusion, fun _ => trivial⟩

theorem passive_writeByte (byte : UInt8) : Passive (writeByte byte : Task (interface ε) ε Unit) :=
  Task.asks_bind (Task.asks_forEach passive_writeBit (bitsOf byte)) fun _ => passive_depower

theorem passive_writeBytes (bytes : List UInt8) :
    Passive (writeBytes bytes : Task (interface ε) ε Unit) :=
  Task.asks_forEach passive_writeByte bytes

theorem passive_readBits (count : Nat) :
    Passive (readBits count : Task (interface ε) ε (List Bool)) := by
  induction count with
  | zero => trivial
  | succ count ih =>
      exact Task.asks_bind passive_readBit fun _ => Task.asks_bind ih fun _ => trivial

theorem passive_readByte : Passive (readByte : Task (interface ε) ε UInt8) :=
  Task.asks_bind (passive_readBits 8) fun _ => trivial

theorem passive_readBytesAfter (count : Nat) (read : List UInt8) :
    Passive (readBytesAfter count read : Task (interface ε) ε (List UInt8)) := by
  induction count generalizing read with
  | zero => trivial
  | succ count ih => exact Task.asks_bind passive_readByte fun byte => ih (byte :: read)

theorem passive_demandPresence : Passive (demandPresence : Task (interface ε) ε Unit) := by
  refine Task.asks_bind passive_reset fun present => ?_
  split <;> trivial

theorem passive_select (rom : Rom) : Passive (select rom : Task (interface ε) ε Unit) :=
  Task.asks_bind (passive_writeByte _) fun _ => passive_writeBytes rom.bytes

theorem passive_readRom : Passive (readRom : Task (interface ε) ε Rom) := by
  refine Task.asks_bind passive_demandPresence fun _ => Task.asks_bind (passive_writeByte _) fun _ =>
    Task.asks_bind (passive_readBytesAfter 8 []) fun bytes => ?_
  dsimp only
  cases (Rom.ofBytes bytes).isValid <;> trivial

theorem passive_address (target : Option Rom) :
    Passive (address target : Task (interface ε) ε Unit) := by
  cases target with
  | none => exact Task.asks_bind passive_demandPresence fun _ => passive_writeByte _
  | some rom => exact Task.asks_bind passive_demandPresence fun _ => passive_select rom

end Bus

namespace Search

def Passive (α : Type) (task : SearchTask ε α) : Prop :=
  ∀ state : State, (task.run.run state).Asks fun request : Bus.Request => request ≠ .power

theorem composes_passive : Composes (Passive (ε := ε)) where
  pure _ := fun _ => trivial
  throw _ := fun _ => trivial
  emit _ := fun _ => trivial
  get := fun _ => trivial
  set _ := fun _ => trivial
  modify _ := fun _ => trivial
  bind {α β task next} first rest := by
    intro state
    rw [ExceptT.run_bind, StateT.run_bind]
    refine (first state).bind ?_
    rintro ⟨error | value, after⟩
    · trivial
    · exact rest value after
  attempt {α task} passive := by
    intro state
    rw [attempt, ExceptT.run_lift, StateT.run_map, map_eq_pure_bind]
    exact (passive state).bind fun _ => trivial

theorem passive_onBus {task : Task (Bus.interface ε) ε α} (passive : Bus.Passive task) :
    Passive α (onBus task) :=
  fun _ => Program.Asks.bind passive fun _ => trivial

theorem passive_operation (operation : Operation) : Passive (ε := ε) Answer operation.task :=
  composes_passive.operation
    (composes_passive.pass_of_onBus (passive_onBus Bus.passive_demandPresence)
      (fun kind => passive_onBus (Bus.passive_writeByte kind.command))
      fun direction => passive_onBus (Bus.passive_triplet direction)) operation

end Search

namespace Search

variable {state : State}

theorem exhausted_restart (state : State) : state.restart.exhausted = false := by
  rw [State.restart]
  split <;> rfl

theorem opens_next (more : state.exhausted = false) :
    ((next : SearchTask ε (Option Rom)).run.run state).Opens := by
  change ((if state.exhausted then _ else _ : SearchTask ε (Option Rom)).run.run state).Opens
  rw [more]
  trivial

theorem opens_listing (passes capacity : Nat) (state : State) :
    ((listing (passes + 1) (capacity + 1) : SearchTask ε _).run.run state).Opens :=
  (opens_next (exhausted_restart state)).bind.bind

end Search

/-- An operation on the bus, or on a search that stands anywhere. -/
inductive Use
  | bus (operation : Bus.Operation)
  | search (operation : Search.Operation) (state : Search.State)

namespace Use

def program : Use → Program (Bus.interface ε) Unit
  | .bus operation => (fun _ => ()) <$> operation.task.run
  | .search operation state => (fun _ => ()) <$> operation.task.run.run state

def leaves (use : Use) (ε : Type) (master : Master) (line : SimulatedLine) : SimulatedLine :=
  ((master.onLine (use.program (ε := ε))).run SimulatedLine.answer line).state

def asksPower : Use → Bool
  | .bus .power | .bus (.writeBytePowered _) | .bus (.writeBytesPowered _) => true
  | _ => false

/-- Transfers of no bytes, exhausted searches, listings without room and what only sets a search
leave the line alone. -/
def touches : Use → Bool
  | .bus (.writeBytes bytes) => !bytes.isEmpty
  | .bus (.readBytes count) => count != 0
  | .bus _ => true
  | .search .next state => !state.exhausted
  | .search (.verify _) _ => true
  | .search (.enumerate capacity) _ => capacity != 0
  | .search (.target _) _ | .search .skipFamily _ | .search .reset _ => false

theorem passive_program {use : Use} (passive : use.asksPower = false) :
    (use.program (ε := ε)).Asks fun request : Bus.Request => request ≠ .power := by
  cases use with
  | bus operation =>
      have asks : Bus.Passive (operation.task (ε := ε)) := by
        cases operation with
        | power => cases passive
        | writeBytePowered byte => cases passive
        | writeBytesPowered bytes => cases passive
        | reset => exact Task.asks_map Bus.passive_reset _
        | writeBit bit => exact Task.asks_map (Bus.passive_writeBit bit) _
        | readBit => exact Task.asks_map Bus.passive_readBit _
        | depower => exact Task.asks_map Bus.passive_depower _
        | writeByte byte => exact Task.asks_map (Bus.passive_writeByte byte) _
        | readByte => exact Task.asks_map Bus.passive_readByte _
        | writeBytes bytes => exact Task.asks_map (Bus.passive_writeBytes bytes) _
        | readBytes count => exact Task.asks_map (Bus.passive_readBytesAfter count []) _
        | select rom => exact Task.asks_map (Bus.passive_select rom) _
        | skip => exact Task.asks_map (Bus.passive_writeByte _) _
        | readRom => exact Task.asks_map Bus.passive_readRom _
        | address target => exact Task.asks_map (Bus.passive_address target) _
        | triplet direction => exact Task.asks_map (Bus.passive_triplet direction) _
      exact Program.Asks.bind asks fun _ => trivial
  | search operation state =>
      exact Program.Asks.bind (Search.passive_operation operation state) fun _ => trivial

theorem opens_program {use : Use} (touches : use.touches = true) : (use.program (ε := ε)).Opens := by
  cases use with
  | bus operation =>
      cases operation with
      | writeBytes bytes =>
          cases bytes with
          | nil => cases touches
          | cons byte rest => trivial
      | readBytes count =>
          cases count with
          | zero => cases touches
          | succ count => trivial
      | writeBytesPowered bytes => cases bytes <;> trivial
      | address target => cases target <;> trivial
      | _ => trivial
  | search operation state =>
      cases operation with
      | next =>
          have more : state.exhausted = false := by simpa [Use.touches] using touches
          exact (Search.opens_next more).bind.bind
      | verify rom => trivial
      | enumerate capacity =>
          cases capacity with
          | zero => cases touches
          | succ capacity =>
              obtain ⟨passes, same⟩ : ∃ passes, Search.passLimit = passes + 1 := ⟨_, rfl⟩
              have listed := Search.opens_listing (ε := ε) passes capacity state
              rw [← same] at listed
              exact listed.bind.bind
      | target _ | skipFamily | reset => cases touches

theorem closes_program {use : Use} (idle : use.touches = false) :
    (use.program (ε := ε)).Closes fun _ => True := by
  cases use with
  | bus operation =>
      cases operation with
      | writeBytes bytes =>
          cases bytes with
          | nil => trivial
          | cons byte rest => cases idle
      | readBytes count =>
          cases count with
          | zero => trivial
          | succ count => cases idle
      | _ => cases idle
  | search operation state =>
      cases operation with
      | next =>
          have exhausted : state.exhausted = true := by simpa [touches] using idle
          simp only [program, Search.Operation.task, ExceptT.run_map, StateT.run_map,
            Search.run_next_exhausted exhausted]
          trivial
      | verify rom => cases idle
      | enumerate capacity =>
          cases capacity with
          | zero => trivial
          | succ capacity => cases idle
      | target _ | skipFamily | reset => trivial

end Use

section

variable {program : Program (Bus.interface ε) α}
  (passive : program.Asks fun request : Bus.Request => request ≠ .power)
include passive

theorem Program.Asks.stays_unpowered (unpowered : line.powered = false) :
    (program.eval master.serve line).2.powered = false := by
  induction program generalizing line with
  | done value => exact unpowered
  | note event rest ih => exact ih passive unpowered
  | ask request next ih =>
      have off := SimulatedLine.powered_serve (ε := ε) master request line
      exact ih _ (passive.2 _) (off.trans (decide_eq_false passive.1))

theorem Program.Opens.unpowered (opens : program.Opens) :
    (program.eval master.serve line).2.powered = false := by
  induction program generalizing line with
  | done value => exact opens.elim
  | note event rest ih => exact ih passive opens
  | ask request next ih =>
      have off := SimulatedLine.powered_serve (ε := ε) master request line
      exact (passive.2 _).stays_unpowered (off.trans (decide_eq_false passive.1))

end

namespace Bus

theorem eval_forEach_ok {step : α → Task (interface ε) ε Unit}
    (succeeds : ∀ element line, (Task.eval master.serve (step element) line).1 = .ok ())
    (elements : List α) (line : SimulatedLine) :
    (Task.eval master.serve (Task.forEach elements step) line).1 = .ok () := by
  induction elements generalizing line with
  | nil => rfl
  | cons element rest ih =>
      have first := succeeds element line
      rw [Task.forEach, Task.eval_bind]
      rcases ended : Task.eval master.serve (step element) line with ⟨outcome, after⟩
      rw [ended] at first
      cases first
      exact ih after

theorem eval_writeBit_ok (master : Master) (bit : Bool) (line : SimulatedLine) :
    (Task.eval master.serve (writeBit bit : Task (interface ε) ε Unit) line).1 = .ok () := by
  obtain ⟨before, time, written⟩ := SimulatedLine.exists_eval_writeBit (ε := ε) master bit line
  exact congrArg Prod.fst written

theorem eval_writeByte_ok (master : Master) (byte : UInt8) (line : SimulatedLine) :
    (Task.eval master.serve (writeByte byte : Task (interface ε) ε Unit) line).1 = .ok () := by
  have bits := eval_forEach_ok (eval_writeBit_ok (ε := ε) master) (bitsOf byte) line
  rw [writeByte, Task.eval_bind, writeBits]
  rcases ended : Task.eval master.serve (Task.forEach (bitsOf byte) writeBit) line with
    ⟨outcome, after⟩
  rw [ended] at bits
  cases bits
  rfl

theorem powered_eval_power {task : Task (interface ε) ε Unit}
    (succeeds : (Task.eval master.serve task line).1 = .ok ()) :
    (Task.eval master.serve (do task; power) line).2.powered = true := by
  rw [Task.eval_bind]
  rcases ended : Task.eval master.serve task line with ⟨outcome, after⟩
  rw [ended] at succeeds
  cases succeeds
  rfl

end Bus

namespace Use

variable (use : Use) (line : SimulatedLine)

theorem leaves_eq :
    use.leaves ε master line = ((use.program (ε := ε)).eval master.serve line).2 := by
  have same := Program.run_through master.carry SimulatedLine.answer (use.program (ε := ε)) line
  exact same.2

theorem powered_of_asksPower {use : Use} (asks : use.asksPower = true) (line : SimulatedLine) :
    (use.leaves ε master line).powered = true := by
  rw [leaves_eq]
  cases use with
  | search operation state => cases asks
  | bus operation =>
      rw [program, Program.eval_map]
      change (Task.eval master.serve (operation.task (ε := ε)) line).2.powered = true
      cases operation with
      | power => rfl
      | writeBytePowered byte =>
          rw [Bus.Operation.task, Task.eval_map]
          exact Bus.powered_eval_power (Bus.eval_forEach_ok (Bus.eval_writeBit_ok master) _ line)
      | writeBytesPowered bytes =>
          rw [Bus.Operation.task, Task.eval_map]
          exact Bus.powered_eval_power (Bus.eval_forEach_ok (Bus.eval_writeByte_ok master) _ line)
      | _ => cases asks

/-- One operation: it has its way with the power if it touches the line at all. -/
theorem powered_leaves : (use.leaves ε master line).powered =
    if use.touches then use.asksPower else line.powered := by
  cases touches : use.touches with
  | false =>
      rw [leaves_eq, (closes_program touches).eval_state]
      rfl
  | true =>
      cases asks : use.asksPower with
      | true => exact powered_of_asksPower asks line
      | false =>
          rw [leaves_eq]
          exact (opens_program touches).unpowered (passive_program asks)

theorem fellAt_leaves (up : line.fellAt = none) : (use.leaves ε master line).fellAt = none := by
  rw [leaves_eq]
  exact Program.eval_keeps master.serve (fun after => after.fellAt = none)
    (fun request before _ => SimulatedLine.fellAt_serve master request before) use.program line up

theorem calls_eq_nil_iff :
    (master.onLine (use.program (ε := ε))).calls SimulatedLine.answer line = [] ↔
      use.touches = false := by
  constructor
  · intro none
    cases touches : use.touches with
    | false => rfl
    | true =>
        have opens : (master.onLine (use.program (ε := ε))).Opens := by
          refine (opens_program touches).through fun request => ?_
          cases request with
          | writeBit bit => cases bit <;> trivial
          | _ => trivial
        exact absurd none (opens.calls_ne_nil line)
  · intro idle
    exact ((closes_program idle).through master.carry).calls_eq_nil line

theorem powered_foldl_leaves {start : SimulatedLine} (up : start.fellAt = none)
    (unpowered : start.powered = false) (uses : List Use) :
    let line := uses.foldl (fun line use => use.leaves ε master line) start
    line.fellAt = none ∧ (line.powered = true ↔
      ∃ last, (uses.filter touches).getLast? = some last ∧ last.asksPower = true) := by
  intro line
  -- By induction from the end, since the latest operation that touches the line decides.
  induction uses using List.reverseRecOn with
  | nil => exact ⟨up, by simp [line, unpowered]⟩
  | append_singleton uses use ih =>
      obtain ⟨up_before, before⟩ := ih
      have step : line =
          use.leaves ε master (uses.foldl (fun line use => use.leaves ε master line) start) := by
        simp only [line, List.foldl_append, List.foldl_cons, List.foldl_nil]
      refine ⟨by rw [step]; exact use.fellAt_leaves _ up_before, ?_⟩
      rw [step, powered_leaves, List.filter_append]
      cases touches : use.touches with
      | false => simpa [touches] using before
      | true => simp [touches]

end Use

theorem SimulatedLine.ready_of_built {timing : Timing} {start ready : SimulatedLine}
    (built : Task.eval SimulatedLine.answer (Master.build (ε := ε) timing) start =
      (.ok master, ready)) : ready = start.letGo := by
  rw [Master.build] at built
  split at built
  · cases built
  · rw [Task.eval_bind, eval_latency] at built
    dsimp only at built
    split at built
    · cases built
    · cases built
      rfl

/-- Any operations on a master that was just built, with any timing and whatever comes out of them. The
line is driven high exactly if the last of them that called upon the line at all asked for it, and
none leaves the line low. -/
theorem powered_as_last_asked {timing : Timing} {start ready : SimulatedLine}
    (built : Task.eval SimulatedLine.answer (Master.build (ε := ε) timing) start = (.ok master, ready))
    (uses : List Use) :
    let line := uses.foldl (fun line use => use.leaves ε master line) ready
    line.fellAt = none ∧
    (line.powered = true ↔
      ∃ last, (uses.filter Use.touches).getLast? = some last ∧ last.asksPower = true) ∧
    ∀ (use : Use) (line : SimulatedLine),
      (master.onLine (use.program (ε := ε))).calls SimulatedLine.answer line = [] ↔
        use.touches = false := by
  intro line
  have let_go := SimulatedLine.ready_of_built built
  have up : ready.fellAt = none := let_go ▸ SimulatedLine.fellAt_letGo start
  have unpowered : ready.powered = false := let_go ▸ SimulatedLine.powered_letGo start
  obtain ⟨still_up, power⟩ := @Use.powered_foldl_leaves ε master ready up unpowered uses
  exact ⟨still_up, power, fun use line => use.calls_eq_nil_iff line⟩

theorem powered_as_last_asked_shorted :
    let timing : Timing := { Timing.standard with resetLow := 480, writeOneLow := 40, samplePoint := 2 }
    let start : SimulatedLine := { fellAt := some 0, now := 700, stuckLow := true }
    let master : Master := ⟨timing, 1⟩
    let spent : Search.State := { Search.State.fresh .normal with exhausted := true }
    let uses : List Use := [.bus .readRom, .bus (.writeBytesPowered []), .bus (.readBytes 0),
      .search .next spent, .search (.enumerate 0) spent]
    let run (uses : List Use) :=
      uses.foldl (fun line use => use.leaves Empty master line) start.letGo
    Task.eval SimulatedLine.answer (Master.build (ε := Empty) timing) start =
        (.ok master, start.letGo) ∧
      (run uses).powered = true ∧ (run (uses ++ [.bus .reset])).powered = false ∧
      (run (uses ++ [.bus .reset])).fellAt = none := by
  intro timing start master spent uses run
  have built : Task.eval SimulatedLine.answer (Master.build (ε := Empty) timing) start =
      (.ok master, start.letGo) := rfl
  obtain ⟨-, power, -⟩ := powered_as_last_asked built uses
  obtain ⟨up, power_refused, -⟩ := powered_as_last_asked built (uses ++ [.bus .reset])
  refine ⟨built, power.mpr ⟨.bus (.writeBytesPowered []), rfl, rfl⟩, ?_, up⟩
  apply Bool.eq_false_of_not_eq_true
  intro on
  obtain ⟨last, same, asks⟩ := power_refused.mp on
  cases same
  cases asks

end SingleWire
