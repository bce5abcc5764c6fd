import SingleWire.Bus.Operation
import SingleWire.Proofs.Faults
import SingleWire.Proofs.Search.Enumeration
import SingleWire.Search.Operation

namespace SingleWire

variable {ε α β : Type}

namespace Task

variable {I : Interface} {failure : (request : I.Request) → Option (ε → I.Reply request)}

theorem StopsAtFaults.map {task : Task I ε α} (stops : task.StopsAtFaults failure) (change : α → β) :
    (change <$> task).StopsAtFaults failure := by
  rw [map_eq_pure_bind]
  exact stops.bind fun _ => stopsAtFaults_pure _

end Task

namespace Bus

theorem stopsAtFaults_readBit : (readBit : Task (interface ε) ε Bool).StopsAtFaults failure :=
  ⟨fun _ => trivial, fun _ same _ => by cases same; rfl⟩

theorem stopsAtFaults_power : (power : Task (interface ε) ε Unit).StopsAtFaults failure :=
  ⟨fun _ => trivial, fun _ same _ => by cases same; rfl⟩

theorem stopsAtFaults_readBits (count : Nat) :
    (readBits count : Task (interface ε) ε (List Bool)).StopsAtFaults failure := by
  induction count with
  | zero => exact Task.stopsAtFaults_pure []
  | succ count ih =>
      exact stopsAtFaults_readBit.bind fun _ => ih.bind fun _ => Task.stopsAtFaults_pure _

theorem stopsAtFaults_readByte : (readByte : Task (interface ε) ε UInt8).StopsAtFaults failure :=
  (stopsAtFaults_readBits 8).bind fun _ => Task.stopsAtFaults_pure _

theorem stopsAtFaults_readBytesAfter (count : Nat) (read : List UInt8) :
    (readBytesAfter count read : Task (interface ε) ε (List UInt8)).StopsAtFaults failure := by
  induction count generalizing read with
  | zero => exact Task.stopsAtFaults_pure _
  | succ count ih => exact stopsAtFaults_readByte.bind fun byte => ih (byte :: read)

theorem stopsAtFaults_readBytes (count : Nat) :
    (readBytes count : Task (interface ε) ε (List UInt8)).StopsAtFaults failure :=
  stopsAtFaults_readBytesAfter count []

theorem stopsAtFaults_writeBytes (bytes : List UInt8) :
    (writeBytes bytes : Task (interface ε) ε Unit).StopsAtFaults failure :=
  Task.StopsAtFaults.forEach stopsAtFaults_writeByte bytes

theorem stopsAtFaults_writeBytePowered (byte : UInt8) :
    (writeBytePowered byte : Task (interface ε) ε Unit).StopsAtFaults failure :=
  (Task.StopsAtFaults.forEach stopsAtFaults_writeBit (bitsOf byte)).bind fun _ =>
    stopsAtFaults_power

theorem stopsAtFaults_select (rom : Rom) :
    (select rom : Task (interface ε) ε Unit).StopsAtFaults failure :=
  (stopsAtFaults_writeByte _).bind fun _ => stopsAtFaults_writeBytes rom.bytes

theorem stopsAtFaults_readRom : (readRom : Task (interface ε) ε Rom).StopsAtFaults failure := by
  refine stopsAtFaults_demandPresence.bind fun _ => (stopsAtFaults_writeByte _).bind fun _ =>
    (stopsAtFaults_readBytes 8).bind fun bytes => ?_
  dsimp only
  cases (Rom.ofBytes bytes).isValid with
  | true => exact Task.stopsAtFaults_pure _
  | false => exact Task.stopsAtFaults_throw _

theorem stopsAtFaults_address (target : Option Rom) :
    (address target : Task (interface ε) ε Unit).StopsAtFaults failure := by
  cases target with
  | none => exact stopsAtFaults_demandPresence.bind fun _ => stopsAtFaults_writeByte _
  | some rom => exact stopsAtFaults_demandPresence.bind fun _ => stopsAtFaults_select rom

theorem Operation.stopsAtFaults_task (operation : Operation) :
    (operation.task : Task (interface ε) ε Answer).StopsAtFaults failure := by
  cases operation with
  | reset => exact stopsAtFaults_reset.map _
  | writeBit bit => exact (stopsAtFaults_writeBit bit).map _
  | readBit => exact stopsAtFaults_readBit.map _
  | power => exact stopsAtFaults_power.map _
  | depower => exact stopsAtFaults_depower.map _
  | writeByte byte => exact (stopsAtFaults_writeByte byte).map _
  | writeBytePowered byte => exact (stopsAtFaults_writeBytePowered byte).map _
  | readByte => exact stopsAtFaults_readByte.map _
  | writeBytes bytes => exact (stopsAtFaults_writeBytes bytes).map _
  | writeBytesPowered bytes =>
      exact ((stopsAtFaults_writeBytes bytes).bind fun _ => stopsAtFaults_power).map _
  | readBytes count => exact (stopsAtFaults_readBytes count).map _
  | select rom => exact (stopsAtFaults_select rom).map _
  | skip => exact (stopsAtFaults_writeByte _).map _
  | readRom => exact stopsAtFaults_readRom.map _
  | address target => exact (stopsAtFaults_address target).map _
  | triplet direction => exact (stopsAtFaults_triplet direction).map _

end Bus

namespace Search

theorem StopsAtFaults.map {task : SearchTask ε α} (stops : StopsAtFaults task) (change : α → β) :
    StopsAtFaults (change <$> task) := by
  rw [map_eq_pure_bind]
  exact stops.bind fun _ => stopsAtFaults_pure _

theorem stopsAtFaults_verify (rom : Rom) :
    StopsAtFaults (verify rom : SearchTask ε Bool) := by
  apply (stopsAtFaults_modify _).bind
  intro _
  refine stopsAtFaults_next.bind_attempt ?_ fun _ _ => rfl
  intro outcome
  apply (stopsAtFaults_modify _).bind
  intro _
  split
  · exact stopsAtFaults_pure _
  · exact stopsAtFaults_throw _

theorem stopsAtFaults_collect (passes room : Nat) (found : List Rom) :
    StopsAtFaults (collect passes room found : SearchTask ε (Option (List Rom))) := by
  induction passes generalizing room found with
  | zero => cases room <;> exact stopsAtFaults_pure _
  | succ passes ih =>
      cases room with
      | zero => exact stopsAtFaults_pure _
      | succ room =>
          refine stopsAtFaults_next.bind_attempt ?_ fun _ _ => rfl
          intro outcome
          split
          · exact ih _ _
          · exact stopsAtFaults_pure _
          · exact ih _ _
          · exact stopsAtFaults_throw _

theorem stopsAtFaults_listing (passes capacity : Nat) :
    StopsAtFaults (listing passes capacity : SearchTask ε (Option (List Rom))) :=
  (stopsAtFaults_modify _).bind fun _ => stopsAtFaults_collect passes capacity []

theorem Operation.stopsAtFaults_task (operation : Operation) :
    StopsAtFaults (operation.task : SearchTask ε Answer) := by
  cases operation with
  | next => exact stopsAtFaults_next.map _
  | verify rom => exact (stopsAtFaults_verify rom).map _
  | enumerate capacity => exact (stopsAtFaults_listing passLimit capacity).map _
  | target family => exact (stopsAtFaults_modify _).map _
  | skipFamily => exact (stopsAtFaults_modify _).map _
  | reset => exact (stopsAtFaults_modify _).map _

end Search

end SingleWire
