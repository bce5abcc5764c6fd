import SingleWire.Proofs.Leads
import SingleWire.Proofs.Search.Interruptions

/-!
Searches do devices no harm. Every pass begins with a reset, the command that follows leads each device
into the search or makes it wait, and there it stays until the next reset. A fault may leave the line
low in the middle of a slot or of a reset, but letting it go later completes no function command.
-/

namespace SingleWire

variable {ε : Type} {line : SimulatedLine} {master : Master} {kept : List Device}

namespace Device

variable {device : Device}

def IsCommanded (device : Device) : Prop :=
  ∃ byte count, device.phase = .functionCommand byte count

def InSearch (device : Device) : Prop :=
  device.phase = .idle ∨ ∃ index step, device.phase = .search index step

def Heard (bits : List Bool) (device : Device) : Prop :=
  device.calm = bits.foldl endSlot device.reset

theorem reset_endSlot (uncommanded : ¬ device.IsCommanded) (bit : Bool) :
    (device.endSlot bit).reset = device.reset := by
  obtain ⟨rom, alarm, data, phase, pullUntil, lastCommand⟩ := device
  cases phase with
  | functionCommand byte count => exact absurd ⟨byte, count, rfl⟩ uncommanded
  | search index step =>
      cases step with
      | bit | complement => rfl
      | direction =>
          simp only [endSlot]
          split <;> rfl
  | _ =>
      simp only [endSlot]
      repeat' split
      all_goals rfl

theorem reset_slot (uncommanded : ¬ device.IsCommanded) (now : Nat) (bit : Bool) :
    ((device.startSlot now).endSlot bit).reset = device.reset :=
  @reset_endSlot (device.startSlot now) uncommanded bit

theorem InSearch.uncommanded (searching : device.InSearch) : ¬ device.IsCommanded := by
  rintro ⟨byte, count, receiving⟩
  rcases searching with idle | ⟨index, step, inside⟩
  · cases idle.symm.trans receiving
  · cases inside.symm.trans receiving

theorem InSearch.endSlot (searching : device.InSearch) (bit : Bool) :
    (device.endSlot bit).InSearch := by
  rcases searching with idle | ⟨index, step, inside⟩
  · rw [endSlot_idle idle]
    exact .inl idle
  · simp only [Device.endSlot, inside]
    cases step with
    | bit => exact .inr ⟨index, .complement, rfl⟩
    | complement => exact .inr ⟨index, .direction, rfl⟩
    | direction =>
        dsimp only
        split
        · exact .inl rfl
        · exact .inr ⟨index + 1, .bit, rfl⟩

theorem phase_foldl_endSlot_romCommand {byte : UInt8} {count : Nat} (bits : List Bool)
    (receiving : device.phase = .romCommand byte count) (short : count + bits.length < 8) :
    ∃ received, (bits.foldl Device.endSlot device).phase =
      .romCommand received (count + bits.length) := by
  induction bits generalizing device byte count with
  | nil => exact ⟨byte, receiving⟩
  | cons bit rest ih =>
      rw [List.length_cons] at short ⊢
      have more : (device.endSlot bit).phase = .romCommand (addBit byte count bit) (count + 1) := by
        have early : count < 7 := by omega
        simp only [Device.endSlot, receiving, early, if_true]
      obtain ⟨received, same⟩ := ih more (by omega)
      exact ⟨received, by rw [List.foldl_cons, same, Nat.add_right_comm, Nat.add_assoc]⟩

section

variable {bits : List Bool} (heard : device.Heard bits)
include heard

theorem Heard.phase : device.phase = (bits.foldl Device.endSlot device.reset).phase := by
  rw [← heard]
  rfl

theorem Heard.uncommanded (short : bits.length < 8) : ¬ device.IsCommanded := by
  rintro ⟨byte, count, commanded⟩
  obtain ⟨received, receiving⟩ :=
    @phase_foldl_endSlot_romCommand device.reset 0 0 bits rfl (by omega)
  cases (commanded.symm.trans heard.phase).trans receiving

theorem Heard.slot (short : bits.length < 8) (now : Nat) (bit : Bool) :
    ((device.startSlot now).endSlot bit).Heard (bits ++ [bit]) := by
  rw [Heard, calm_slot, heard, reset_slot (heard.uncommanded short), List.foldl_append]
  rfl

end

theorem Heard.inSearch {kind : Search.Kind} (heard : device.Heard (bitsOf kind.command)) :
    device.InSearch := by
  have obeyed : device.phase = device.reset.obey kind.command := by
    rw [heard.phase, foldl_endSlot_bitsOf rfl]
  rw [obey_command] at obeyed
  split at obeyed
  · exact .inr ⟨0, .bit, obeyed⟩
  · exact .inl obeyed

/-- A slot with the bit takes devices from one stage to the next, and completes no function command. -/
structure Advances (stage next : Device → Prop) (bit : Bool) : Prop where
  slot : ∀ device now, stage device → next ((device.startSlot now).endSlot bit)
  uncommanded : ∀ device, stage device → ¬ device.IsCommanded

theorem advances_heard {bits : List Bool} (short : bits.length < 8) (bit : Bool) :
    Advances (Heard bits) (Heard (bits ++ [bit])) bit :=
  ⟨fun _ now heard => heard.slot short now bit, fun _ heard => heard.uncommanded short⟩

theorem advances_inSearch (bit : Bool) : Advances InSearch InSearch bit := by
  refine ⟨fun device now searching => ?_, fun _ searching => searching.uncommanded⟩
  exact @InSearch.endSlot (device.startSlot now) searching bit

end Device

namespace SimulatedLine

/-- What the devices remember is what is kept, and so it is once the line is let go, however late. -/
structure Spared (kept : List Device) (line : SimulatedLine) : Prop where
  same : line.devices.map Device.reset = kept
  later : ∀ time, (line.wait time).letGo.devices.map Device.reset = kept

structure Engaged (kept : List Device) (stage : Device → Prop) (line : SimulatedLine) : Prop where
  up : line.fellAt = none
  same : line.devices.map Device.reset = kept
  stages : ∀ device ∈ line.devices, stage device

variable {stage next : Device → Prop} {bit : Bool}

theorem spared_of_up (up : line.fellAt = none) (same : line.devices.map Device.reset = kept) :
    line.Spared kept := by
  refine ⟨same, fun time => ?_⟩
  have still_up : (line.wait time).fellAt = none := up
  rw [letGo_up still_up]
  exact same

theorem Spared.wait (spared : line.Spared kept) (time : Nat) : (line.wait time).Spared kept := by
  refine ⟨spared.same, fun more => ?_⟩
  rw [wait_wait]
  exact spared.later (time + more)

theorem Engaged.spared (engaged : line.Engaged kept stage) : line.Spared kept :=
  spared_of_up engaged.up engaged.same

theorem Engaged.mono (engaged : line.Engaged kept stage)
    (implies : ∀ device, stage device → next device) : line.Engaged kept next :=
  ⟨engaged.up, engaged.same, fun device member => implies device (engaged.stages device member)⟩

theorem Engaged.wait (engaged : line.Engaged kept stage) (time : Nat) :
    (line.wait time).Engaged kept stage := ⟨engaged.up, engaged.same, engaged.stages⟩

theorem Engaged.letGo (engaged : line.Engaged kept stage) : line.letGo.Engaged kept stage := by
  rw [letGo_up engaged.up]
  exact ⟨engaged.up, engaged.same, engaged.stages⟩

theorem Spared.letGo (spared : line.Spared kept) : line.letGo.Engaged kept fun _ => True :=
  ⟨fellAt_letGo line, spared.later 0, fun _ _ => trivial⟩

theorem devices_reset_pull (line : SimulatedLine) :
    line.pull.devices.map Device.reset = line.devices.map Device.reset := by
  unfold pull
  split
  · rfl
  · rw [List.map_map]
    rfl

theorem devices_reset_endReset (line : SimulatedLine) :
    line.endReset.devices.map Device.reset = line.devices.map Device.reset := by
  rw [endReset, List.map_map]
  rfl

theorem Engaged.devices_reset_slot (engaged : line.Engaged kept stage)
    (uncommanded : ∀ device, stage device → ¬ device.IsCommanded) (bit : Bool) (length : Nat) :
    (line.slot bit length).devices.map Device.reset = kept := by
  rw [← engaged.same, SimulatedLine.slot, List.map_map]
  refine List.map_congr_left fun device member => ?_
  exact Device.reset_slot (uncommanded device (engaged.stages device member)) line.now bit

theorem Engaged.slot (engaged : line.Engaged kept stage) (advances : Device.Advances stage next bit)
    (length : Nat) : (line.slot bit length).Engaged kept next where
  up := engaged.up
  same := engaged.devices_reset_slot advances.uncommanded bit length
  stages := List.forall_mem_map.mpr fun device member =>
    advances.slot device line.now (engaged.stages device member)

theorem Engaged.spared_pull (engaged : line.Engaged kept stage)
    (uncommanded : ∀ device, stage device → ¬ device.IsCommanded) (low : Nat) :
    (line.pull.wait low).Spared kept := by
  refine ⟨(devices_reset_pull line).trans engaged.same, fun time => ?_⟩
  rw [wait_wait]
  rcases Nat.lt_or_ge (low + time) resetLow with short | long
  · rw [letGo_wait_pull engaged.up _ short]
    exact engaged.devices_reset_slot uncommanded _ _
  · rw [letGo_wait_pull_reset engaged.up _ long, devices_reset_endReset]
    exact engaged.same

theorem spared_pull_reset (up : line.fellAt = none) (same : line.devices.map Device.reset = kept)
    {low : Nat} (long : resetLow ≤ low) : (line.pull.wait low).Spared kept := by
  refine ⟨(devices_reset_pull line).trans same, fun time => ?_⟩
  rw [wait_wait, letGo_wait_pull_reset up _ (Nat.le_trans long (Nat.le_add_right low time)),
    devices_reset_endReset]
  exact same

/-- The line is pulled for so long; its devices were at the stage when it fell. -/
def Pulled (kept : List Device) (stage : Device → Prop) (low : Nat) (line : SimulatedLine) : Prop :=
  ∃ before : SimulatedLine, before.Engaged kept stage ∧ line = before.pull.wait low

end SimulatedLine

structure Master.Signals (master : Master) : Prop where
  reset : SimulatedLine.resetLow ≤ master.timing.resetLow
  one : master.timing.writeOneLow < SimulatedLine.zeroLow
  zero : SimulatedLine.zeroLow ≤ master.timing.writeZeroLow
  short : master.timing.writeZeroLow < SimulatedLine.resetLow

namespace Line

variable {safe before : SimulatedLine → Prop}

abbrev Leads {α : Type} (safe before : SimulatedLine → Prop) (task : Task (interface ε) ε α)
    (after : α → SimulatedLine → Prop) : Prop :=
  task.Leads (Handler.faulty failure SimulatedLine.answer) safe before after

section

variable (secure : ∀ line, before line → safe line)
include secure

theorem leads_driveLow {after : Unit → SimulatedLine → Prop}
    (holds : ∀ line, before line → after () line.pull) :
    Leads (ε := ε) safe before driveLow after :=
  Task.leads_call rfl (fun _ => rfl) secure fun line start => ⟨(), rfl, holds line start⟩

theorem leads_release {after : Unit → SimulatedLine → Prop}
    (holds : ∀ line, before line → after () line.letGo) :
    Leads (ε := ε) safe before release after :=
  Task.leads_call rfl (fun _ => rfl) secure fun line start => ⟨(), rfl, holds line start⟩

theorem leads_sample : Leads (ε := ε) safe before sample fun _ => before :=
  Task.leads_call rfl (fun _ => rfl) secure fun line start => ⟨!line.isLow, rfl, start⟩

end

theorem leads_delay {after : Unit → SimulatedLine → Prop} (time : Nat)
    (holds : ∀ line, before line → after () (line.wait time)) :
    Leads (ε := ε) safe before (delay time) after :=
  fun faulty start => holds faulty.layer start

end Line

namespace Master

variable {stage next : Device → Prop} {bit : Bool}

open Line SimulatedLine

theorem leads_rest (time : Nat) :
    Leads (ε := ε) (Spared kept) (Engaged kept stage) (Line.delay time)
      fun _ => Engaged kept stage :=
  leads_delay time fun _ engaged => engaged.wait time

theorem leads_read :
    Leads (ε := ε) (Spared kept) (Engaged kept stage) Line.sample fun _ => Engaged kept stage :=
  leads_sample fun _ engaged => engaged.spared

theorem leads_pollIdle (pause polls : Nat) :
    Leads (ε := ε) (Spared kept) (Engaged kept stage) (pollIdle pause polls)
      fun _ => Engaged kept stage := by
  induction polls with
  | zero => exact Task.leads_pure fun _ engaged => engaged
  | succ polls ih =>
      refine leads_read.bind fun high => ?_
      split
      · exact Task.leads_pure fun _ engaged => engaged
      · exact (leads_rest pause).bind fun _ => ih

theorem leads_awaitIdle (master : Master) :
    Leads (ε := ε) (Spared kept) (Spared kept) master.awaitIdle
      fun _ => Engaged kept fun _ => True :=
  (leads_release (fun _ spared => spared) fun _ spared => spared.letGo).bind fun _ =>
    leads_pollIdle _ _

theorem leads_pull : Leads (ε := ε) (Spared kept) (Engaged kept stage) Line.driveLow
    fun _ => Pulled kept stage 0 :=
  leads_driveLow (fun _ engaged => engaged.spared) fun line engaged => ⟨line, engaged, rfl⟩

theorem leads_hold (low : Nat) :
    Leads (ε := ε) (Spared kept) (Pulled kept stage 0) (Line.delay low)
      fun _ => Pulled kept stage low := by
  refine leads_delay low ?_
  rintro _ ⟨before, engaged, rfl⟩
  exact ⟨before, engaged, by rw [wait_wait, Nat.zero_add]⟩

theorem leads_endReset {low : Nat} (long : resetLow ≤ low) :
    Leads (ε := ε) (Spared kept) (Pulled kept stage low) Line.release
      fun _ => Engaged kept (Device.Heard []) := by
  apply leads_release
  · rintro _ ⟨before, engaged, rfl⟩
    exact spared_pull_reset engaged.up engaged.same long
  · rintro _ ⟨before, engaged, rfl⟩
    rw [letGo_wait_pull_reset engaged.up low long]
    refine ⟨rfl, (devices_reset_endReset _).trans engaged.same, ?_⟩
    exact List.forall_mem_map.mpr fun device _ => rfl

theorem leads_endSlot {low : Nat} (short : low < resetLow)
    (advances : Device.Advances stage next (low < zeroLow)) :
    Leads (ε := ε) (Spared kept) (Pulled kept stage low) Line.release
      fun _ => Engaged kept next := by
  apply leads_release
  · rintro _ ⟨before, engaged, rfl⟩
    exact engaged.spared_pull advances.uncommanded low
  · rintro _ ⟨before, engaged, rfl⟩
    rw [letGo_wait_pull engaged.up low short]
    exact engaged.slot advances low

theorem leads_resetSlot (signals : master.Signals) :
    Leads (ε := ε) (Spared kept) (Engaged kept fun _ => True) master.resetSlot
      fun _ => Engaged kept (Device.Heard []) := by
  -- A wait cannot fail, so by the time that a call may fail again the pulse is a reset.
  refine leads_pull.bind fun _ => (leads_hold _).bind fun _ =>
    (leads_endReset signals.reset).bind fun _ => ?_
  refine (leads_rest _).bind fun _ => ?_
  refine leads_read.bind fun high => ?_
  refine (leads_rest _).bind fun _ => ?_
  exact (Task.leads_emit _).bind fun _ => Task.leads_pure fun _ engaged => engaged

theorem leads_reset (signals : master.Signals) :
    Leads (ε := ε) (Spared kept) (Spared kept) master.reset fun present =>
      Engaged kept fun device => present = true → device.Heard [] := by
  refine (leads_awaitIdle master).bind fun idle => ?_
  split
  · exact (leads_resetSlot signals).mono fun _ _ engaged => engaged.mono fun _ heard _ => heard
  · refine (Task.leads_emit _).bind fun _ => Task.leads_pure fun _ engaged => ?_
    exact engaged.mono fun _ _ never => absurd never Bool.false_ne_true

theorem leads_writeSlot {low : Nat} (high : Nat) (short : low < resetLow)
    (advances : Device.Advances stage next (low < zeroLow)) :
    Leads (ε := ε) (Spared kept) (Engaged kept stage) (writeSlot low high)
      fun _ => Engaged kept next :=
  leads_pull.bind fun _ => (leads_hold low).bind fun _ => (leads_endSlot short advances).bind
    fun _ => leads_rest high

theorem leads_writeBit (signals : master.Signals) (advances : Device.Advances stage next bit) :
    Leads (ε := ε) (Spared kept) (Engaged kept stage) (master.writeBit bit)
      fun _ => Engaged kept next := by
  cases bit with
  | true =>
      rw [writeBit, if_pos rfl]
      refine leads_writeSlot _ (Nat.lt_trans signals.one (by decide)) ?_
      rwa [decide_eq_true signals.one]
  | false =>
      rw [writeBit, if_neg Bool.false_ne_true]
      refine leads_writeSlot _ signals.short ?_
      rwa [decide_eq_false (Nat.not_lt_of_le signals.zero)]

theorem leads_readBit (master : Master) (advances : Device.Advances stage next true) :
    Leads (ε := ε) (Spared kept) (Engaged kept stage) master.readBit fun _ => Engaged kept next := by
  refine leads_pull.bind fun _ => (leads_endSlot (by decide) advances).bind fun _ => ?_
  refine (leads_rest _).bind fun _ => ?_
  refine leads_read.bind fun high => ?_
  exact (leads_rest _).bind fun _ => Task.leads_pure fun _ engaged => engaged

theorem leads_triplet (signals : master.Signals) (direction : Bool) :
    Leads (ε := ε) (Spared kept) (Engaged kept Device.InSearch)
      (Bus.tripletBy master.readBit master.writeBit direction)
      fun _ => Engaged kept Device.InSearch := by
  refine (leads_readBit master (Device.advances_inSearch true)).bind fun first => ?_
  refine (leads_readBit master (Device.advances_inSearch true)).bind fun second => ?_
  split
  · exact Task.leads_pure fun _ engaged => engaged
  · exact (leads_writeBit signals (Device.advances_inSearch _)).bind fun _ =>
      Task.leads_pure fun _ engaged => engaged

end Master

namespace Search

open SimulatedLine

section

variable (signals : master.Signals)
include signals

theorem leads_demandPresence :
    (Bus.demandPresence (ε := ε)).Leads master.serveFaulty (Spared kept) (Spared kept)
      fun _ => Engaged kept (Device.Heard []) := by
  have reset : (Bus.reset (ε := ε)).Leads master.serveFaulty (Spared kept) (Spared kept)
      fun present => Engaged kept fun device => present = true → device.Heard [] :=
    Master.leads_reset signals
  refine reset.bind fun present => ?_
  split
  · rename_i answered
    exact Task.leads_pure fun _ engaged => engaged.mono fun _ heard => heard answered
  · exact Task.leads_throw fun _ engaged => engaged.spared

theorem leads_writeBits (bits sent : List Bool) (within : (sent ++ bits).length ≤ 8) :
    (Bus.writeBits (ε := ε) bits).Leads master.serveFaulty (Spared kept)
      (Engaged kept (Device.Heard sent)) fun _ => Engaged kept (Device.Heard (sent ++ bits)) := by
  induction bits generalizing sent with
  | nil =>
      rw [List.append_nil]
      exact Task.leads_pure fun _ engaged => engaged
  | cons bit rest ih =>
      have more : sent ++ bit :: rest = sent ++ [bit] ++ rest := by simp
      have short : sent.length < 8 := by
        rw [List.length_append, List.length_cons] at within
        omega
      have written : (Bus.writeBit (ε := ε) bit).Leads master.serveFaulty (Spared kept)
          (Engaged kept (Device.Heard sent)) fun _ => Engaged kept (Device.Heard (sent ++ [bit])) :=
        Master.leads_writeBit signals (Device.advances_heard short bit)
      rw [more] at within ⊢
      exact written.bind fun _ => ih (sent ++ [bit]) within

theorem leads_command (kind : Kind) :
    (Bus.writeByte (ε := ε) kind.command).Leads master.serveFaulty (Spared kept)
      (Engaged kept (Device.Heard [])) fun _ => Engaged kept Device.InSearch := by
  have depowered : (Bus.depower (ε := ε)).Leads master.serveFaulty (Spared kept)
      (Engaged kept (Device.Heard (bitsOf kind.command))) fun _ => Engaged kept Device.InSearch :=
    Line.leads_release (fun _ engaged => engaged.spared)
      fun _ engaged => engaged.letGo.mono fun _ heard => heard.inSearch
  exact (leads_writeBits signals (bitsOf kind.command) [] (Nat.le_refl 8)).bind fun _ => depowered

theorem leads_visit (last index : Nat) :
    Leads master.serveFaulty (Spared kept) (Engaged kept Device.InSearch)
      (visit last index : SearchTask ε Nat) fun _ => Engaged kept Device.InSearch := by
  apply leads_get.bind
  intro state
  have answered : (Bus.triplet (ε := ε) (state.direction index)).Leads master.serveFaulty
      (Spared kept) (Engaged kept Device.InSearch) fun _ => Engaged kept Device.InSearch :=
    Master.leads_triplet signals _
  apply (leads_onBus answered).bind
  intro triplet
  split
  · exact leads_throw fun _ engaged => engaged.spared
  · exact (leads_set _).bind fun _ => leads_pure fun _ engaged => engaged

theorem leads_visits (indices : List Nat) (last : Nat) :
    Leads master.serveFaulty (Spared kept) (Engaged kept Device.InSearch)
      (indices.foldlM visit last : SearchTask ε Nat) fun _ => Engaged kept Device.InSearch := by
  induction indices generalizing last with
  | nil => exact leads_pure fun _ engaged => engaged
  | cons index rest ih => exact (leads_visit signals last index).bind fun later => ih later

theorem keeps_pass : Keeps (ε := ε) master.serveFaulty (Spared kept) pass := by
  apply (leads_onBus (leads_demandPresence signals)).bind
  intro _
  apply leads_get.bind
  intro start
  apply (leads_onBus (leads_command signals start.kind)).bind
  intro _
  apply (leads_visits signals (List.range 64) 0).bind
  intro lastZero
  apply (leads_modify _).bind
  intro _
  apply leads_get.bind
  intro state
  exact (leads_emit _).bind fun _ => leads_pure fun _ engaged => engaged.spared

theorem spared_performFaulty (spared : line.Spared kept) (plan : List (Nat × ε))
    (operation : Operation) (state : State) :
    (performFaulty master plan operation.task state line).2.2.Spared kept := by
  have led := composes_keeps.operation (keeps_pass (ε := ε) signals) operation state
    { layer := line, plan } spared
  rw [performFaulty_eq_eval]
  rcases ended : eval master.serveFaulty operation.task state { layer := line, plan } with
    ⟨error | value, after, left⟩
  · rw [ended] at led
    exact led
  · rw [ended] at led
    exact led

end

/-- A line on which a master only searched, with any searches, whichever calls failed, and with any
time in between. -/
inductive Searched (master : Master) (start : SimulatedLine) : SimulatedLine → Prop
  | start : Searched master start start
  | operate {ε : Type} {line : SimulatedLine} (operation : Operation) (state : State)
      (plan : List (Nat × ε)) : Searched master start line →
      Searched master start (performFaulty master plan operation.task state line).2.2
  | wait {line : SimulatedLine} (time : Nat) :
      Searched master start line → Searched master start (line.wait time)

theorem Searched.spared {start : SimulatedLine} (searched : Searched master start line)
    (signals : master.Signals) (spared : start.Spared kept) : line.Spared kept := by
  induction searched with
  | start => exact spared
  | operate operation state plan _ ih => exact spared_performFaulty signals ih plan operation state
  | wait time _ ih => exact ih.wait time

/-- Devices in any state, also in the middle of a function command, on a line that the master has let
go. However often it is searched, and at whatever calls it fails, every device stays what it is
and obeys no function command. -/
theorem searches_command_no_device {start line : SimulatedLine} {samplePoint sampleDelay : Nat}
    (up : start.fellAt = none)
    (searched : Searched ⟨Timing.standard.set (.samplePoint samplePoint), sampleDelay⟩ start line) :
    line.devices.map (fun device => (device.rom, device.alarm, device.data, device.lastCommand)) =
      start.devices.map fun device =>
        (device.rom, device.alarm, device.data, device.lastCommand) := by
  have signals : Master.Signals ⟨Timing.standard.set (.samplePoint samplePoint), sampleDelay⟩ :=
    ⟨(by decide : 480 ≤ 500), (by decide : 1 < 15), (by decide : 15 ≤ 60), (by decide : 60 < 480)⟩
  have spared := searched.spared signals (spared_of_up up rfl)
  have same := congrArg (List.map fun device : Device =>
    (device.rom, device.alarm, device.data, device.lastCommand)) spared.same
  rw [List.map_map, List.map_map] at same
  exact same

theorem searches_command_no_device_struck :
    let asked : Device :=
      { rom := ⟨0x5e00000000005228⟩, phase := .functionCommand 0x44 7, lastCommand := some 0xbe }
    let named : Device := { rom := ⟨0xbf00000000000828⟩, alarm := true, phase := .matchRom 63 }
    let master : Master := ⟨Timing.standard.set (.samplePoint 13), 12⟩
    let start : SimulatedLine := { devices := [asked, named] }
    let first := (performFaulty master [(3, ())] Operation.next.task (.fresh .normal) start).2.2
    let second := (performFaulty master [(20, ())] (Operation.verify asked.rom).task
      (.ofFamily .alarmed 0x28) first).2.2
    let last := (performFaulty (ε := Empty) master [] (Operation.enumerate 2).task
      (.fresh .normal) (second.wait 600)).2.2
    (first.fellAt = some 0 ∧ first.now = 500) ∧ second.fellAt.isSome = true ∧
      second.devices.map Device.phase = [.romCommand 0x6c 7, .romCommand 0x6c 7] ∧
      last.devices.map (fun device => (device.rom, device.alarm, device.data, device.lastCommand)) =
        [(asked.rom, false, [], some 0xbe), (named.rom, true, [], none)] := by
  intro asked named master start first second last
  have begun : Searched master start first :=
    Searched.start.operate Operation.next (.fresh .normal) [(3, ())]
  have went_on : Searched master start second :=
    begun.operate (Operation.verify asked.rom) (.ofFamily .alarmed 0x28) [(20, ())]
  have searched : Searched master start last :=
    (went_on.wait 600).operate (ε := Empty) (Operation.enumerate 2) (.fresh .normal) []
  refine ⟨by decide +kernel, by decide +kernel, by decide +kernel, ?_⟩
  exact searches_command_no_device rfl searched

end Search

end SingleWire
