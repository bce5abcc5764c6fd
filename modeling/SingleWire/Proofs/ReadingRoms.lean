import SingleWire.Proofs.Addressing
import SingleWire.Proofs.Line.Presence

/-!
Reading the code of the device on the bus. All devices that are attached send their codes at once,
so what is read is the codes merged, and the checksum is only ever computed over that. Once they have
sent them they keep silent until the next reset.
-/

namespace SingleWire

variable {ε : Type} {line : SimulatedLine} {master : Master}

namespace Rom

/-- What is read where all these codes are sent at once. -/
def merged (roms : List Rom) : Rom := ⟨wiredAnd (roms.map code)⟩

theorem bit_merged {index : Nat} (inside : index < 64) (roms : List Rom) :
    (merged roms).bit index = roms.all fun rom => rom.bit index := by
  change (wiredAnd (roms.map code)).getLsbD index = _
  rw [getLsbD_wiredAnd inside, List.all_map]
  rfl

theorem getLsbD_bytes (rom : Rom) {index place : Nat} (inside : index < 8) (within : place < 8) :
    (rom.bytes.getD index 0).toBitVec.getLsbD place = rom.bit (8 * index + place) := by
  have byte : rom.bytes.getD index 0 = UInt8.ofNat (rom.code.toNat / 256 ^ index % 256) := by
    simp [bytes_eq_map, inside]
  rw [byte, getLsbD_byte _ index place within]
  rfl

theorem bytes_merged (roms : List Rom) :
    (merged roms).bytes = (List.range 8).map fun index =>
      UInt8.ofBitVec (wiredAnd (roms.map fun rom => (rom.bytes.getD index 0).toBitVec)) := by
  refine List.ext_getElem (by simp) fun index _ listed => ?_
  have inside : index < 8 := by simpa using listed
  rw [List.getElem_map, List.getElem_range, List.getElem_eq_getD 0]
  apply UInt8.toBitVec_inj.mp
  apply BitVec.eq_of_getLsbD_eq
  intro place within
  rw [getLsbD_bytes _ inside within, bit_merged (by omega), getLsbD_wiredAnd within, List.all_map]
  apply List.all_congr rfl
  intro rom
  rw [Function.comp_apply, getLsbD_bytes rom inside within]

end Rom

namespace Device

theorem foldl_endSlot_readRom (device : Device) :
    (bitsOf RomCommand.readRom).foldl endSlot device.reset =
      { device.reset with phase := .sendRom 0 } :=
  @foldl_endSlot_bitsOf device.reset rfl RomCommand.readRom

theorem afterReads_sendRom {device : Device} (sending : device.phase = .sendRom 0) {count : Nat}
    (within : count < 64) : device.afterReads count = { device with phase := .sendRom count } := by
  induction count with
  | zero => simp [afterReads, ← sending]
  | succ count ih =>
      have more : count ≠ 63 := by omega
      rw [afterReads, ih (by omega)]
      simp [endSlot, more]

theorem afterReads_sendRom_whole {device : Device} (sending : device.phase = .sendRom 0) :
    device.afterReads 64 = { device with phase := .idle } := by
  rw [afterReads, afterReads_sendRom sending (by decide)]
  rfl

end Device

namespace Wire

variable {wire : Wire}

theorem level_sendRom (sending : ∀ device ∈ wire.devices, device.phase = .sendRom 0) {index : Nat}
    (inside : index < 64) :
    (wire.afterReads index).level = (Rom.merged (wire.devices.map Device.rom)).bit index := by
  rw [level_afterReads, Rom.bit_merged inside, List.all_map]
  apply Bool.eq_iff_iff.mpr
  simp only [List.all_eq_true, Function.comp_apply]
  apply forall₂_congr
  intro device member
  rw [Device.afterReads_sendRom (sending device member) inside]
  cases sent : device.rom.bit index <;> simp [Device.sending, sent]

theorem ofBytes_sendRom (sending : ∀ device ∈ wire.devices, device.phase = .sendRom 0) :
    Rom.ofBytes ((List.range 8).map wire.byteAt) = Rom.merged (wire.devices.map Device.rom) :=
  @Rom.ofBytes_range _ (fun index => (wire.afterReads index).level)
    fun _ inside => level_sendRom sending inside

theorem devices_readRom (wire : Wire) :
    ((bitsOf RomCommand.readRom).foldl slot wire.reset).devices =
      wire.devices.map fun device => { device.reset with phase := .sendRom 0 } := by
  rw [(foldl_slot _ wire.reset).1, Wire.reset, List.map_map]
  apply List.map_congr_left
  intro device _
  rw [Function.comp_apply, Device.foldl_endSlot_readRom]

theorem eval_readRom (present : wire.devices ≠ []) :
    (Task.eval answer (Bus.readRom : Task (Bus.interface ε) ε Rom) wire).1 =
      if (Rom.merged (wire.devices.map Device.rom)).isValid then
        .ok (Rom.merged (wire.devices.map Device.rom))
      else .error .invalidCrc := by
  have read : Rom.ofBytes ((List.range 8).map
      ((bitsOf RomCommand.readRom).foldl slot wire.reset).byteAt) =
        Rom.merged (wire.devices.map Device.rom) := by
    rw [ofBytes_sendRom, devices_readRom, List.map_map]
    · rfl
    · rw [devices_readRom]
      exact List.forall_mem_map.mpr fun device _ => rfl
  rw [Bus.readRom, Task.eval_bind, eval_demandPresence_present present]
  simp only [Task.eval_bind, eval_writeByte, eval_readBytes, read]
  cases (Rom.merged (wire.devices.map Device.rom)).isValid with
  | true => simp only [if_true, Task.eval_pure]
  | false => simp only [Bool.false_eq_true, if_false, Task.eval_throw]

theorem idle_readRom (present : wire.devices ≠ []) :
    ∀ device ∈ (Task.eval answer (Bus.readRom : Task (Bus.interface ε) ε Rom) wire).2.devices,
      device.phase = .idle := by
  have left : (Task.eval answer (Bus.readRom : Task (Bus.interface ε) ε Rom) wire).2 =
      ((bitsOf RomCommand.readRom).foldl slot wire.reset).afterReads 64 := by
    rw [Bus.readRom, Task.eval_bind, eval_demandPresence_present present]
    simp only [Task.eval_bind, eval_writeByte, eval_readBytes]
    split <;> rfl
  rw [left, devices_afterReads, devices_readRom, List.map_map]
  refine List.forall_mem_map.mpr fun device _ => ?_
  rw [Function.comp_apply, Device.afterReads_sendRom_whole rfl]

end Wire

namespace SimulatedLine

/-- Nobody but the master pulls the line. -/
structure Hushed (line : SimulatedLine) : Prop where
  free : line.stuckLow = false
  idle : ∀ device ∈ line.devices, device.phase = .idle
  quiet : ∀ device ∈ line.devices, ∀ limit, device.pullUntil = some limit → limit ≤ line.now
  silent : ∀ start finish, line.presence = some (start, finish) → finish ≤ line.now

namespace Hushed

variable (hushed : line.Hushed)
include hushed

theorem sending : ∀ device ∈ line.devices, device.sending = none := by
  intro device member
  rw [Device.sending, hushed.idle device member]

theorem pulls : ∀ device ∈ line.devices, device.pulls line.now = false :=
  fun device member => device.pulls_past (hushed.quiet device member)

theorem isLow_eq : line.isLow = line.fellAt.isSome := by
  have past := inPresence_past hushed.silent
  have calm : line.devices.any (·.pulls line.now) = false :=
    List.any_eq_false.mpr fun device member => Bool.eq_false_iff.mp (hushed.pulls device member)
  simp [isLow, hushed.free, past, calm]

theorem pull : line.pull.Hushed := by
  unfold SimulatedLine.pull
  split
  · exact ⟨hushed.free, hushed.idle, hushed.quiet, hushed.silent⟩
  · refine ⟨hushed.free, ?_, ?_, hushed.silent⟩
    · exact List.forall_mem_map.mpr hushed.idle
    · refine List.forall_mem_map.mpr fun device member limit pulling => ?_
      rw [Device.startSlot, hushed.sending device member] at pulling
      cases pulling

theorem endSlot (bit : Bool) : (line.endSlot bit).Hushed := by
  have same : (line.endSlot bit).devices = line.devices := by
    refine (List.map_congr_left fun device member => ?_).trans (List.map_id line.devices)
    exact Device.endSlot_idle (hushed.idle device member) bit
  exact ⟨hushed.free, same ▸ hushed.idle, same ▸ hushed.quiet, hushed.silent⟩

theorem wait (time : Nat) : (line.wait time).Hushed where
  free := hushed.free
  idle := hushed.idle
  quiet device member limit pulling :=
    Nat.le_trans (hushed.quiet device member limit pulling) (Nat.le_add_right line.now time)
  silent start finish window :=
    Nat.le_trans (hushed.silent start finish window) (Nat.le_add_right line.now time)

theorem letGo (unreset : line.letGo.resets = line.resets) : line.letGo.Hushed := by
  unfold SimulatedLine.letGo at unreset ⊢
  split
  · exact ⟨hushed.free, hushed.idle, hushed.quiet, hushed.silent⟩
  · rename_i fell held
    dsimp only
    split
    · rename_i long
      simp only [held, long, if_true] at unreset
      exact absurd unreset (Nat.succ_ne_self line.resets)
    · exact hushed.endSlot _

theorem answer (request : Line.Request)
    (unreset : (SimulatedLine.answer (ε := ε) request line).2.resets = line.resets) :
    (SimulatedLine.answer (ε := ε) request line).2.Hushed := by
  cases request with
  | driveLow => exact hushed.pull
  | release => exact hushed.letGo unreset
  | driveHigh =>
      have let_go := hushed.letGo unreset
      exact ⟨let_go.free, let_go.idle, let_go.quiet, let_go.silent⟩
  | delay time => exact hushed.wait time
  | sample | latency => exact hushed

end Hushed

theorem resets_letGo (line : SimulatedLine) : line.resets ≤ line.letGo.resets := by
  unfold letGo
  split
  · exact Nat.le_refl _
  · dsimp only
    split
    · exact Nat.le_succ _
    · exact Nat.le_refl _

theorem resets_answer (request : Line.Request) (line : SimulatedLine) :
    line.resets ≤ (answer (ε := ε) request line).2.resets := by
  cases request with
  | driveLow =>
      simp only [answer, pull]
      split <;> exact Nat.le_refl _
  | release => exact resets_letGo line
  | driveHigh => exact resets_letGo line
  | sample | delay _ | latency => exact Nat.le_refl _

/-- Whatever is done to the line, no device pulls it before the next reset. -/
theorem Hushed.run (hushed : line.Hushed) {α : Type} (program : Program (Line.interface ε) α)
    (unreset : (program.run SimulatedLine.answer line).state.resets = line.resets) :
    (program.run SimulatedLine.answer line).state.Hushed := by
  -- The count of resets only grows, so none was made on the way either.
  have kept : line.resets ≤ (program.run SimulatedLine.answer line).state.resets ∧
      ((program.run SimulatedLine.answer line).state.resets = line.resets →
        (program.run SimulatedLine.answer line).state.Hushed) := by
    refine Program.run_keeps SimulatedLine.answer (fun later => line.resets ≤ later.resets ∧
      (later.resets = line.resets → later.Hushed)) ?_ program line ⟨Nat.le_refl _, fun _ => hushed⟩
    rintro request before ⟨grown, quiet⟩
    have more := resets_answer (ε := ε) request before
    refine ⟨Nat.le_trans grown more, fun same => ?_⟩
    have still : before.resets = line.resets := Nat.le_antisymm (same ▸ more) grown
    exact (quiet still).answer request (same.trans still.symm)
  exact kept.2 unreset

end SimulatedLine

namespace Bus

theorem beginsWithReset_readRom : BeginsWithReset (readRom (ε := ε)).run := rfl

theorem eval_readRom_absent {σ : Type} {handle : Handler (interface ε) σ} {state after : σ}
    (absent : Task.eval handle reset state = (.ok false, after)) :
    Task.eval handle readRom state = (.error .noDevicePresent, after) := by
  simp only [readRom, demandPresence, Task.eval_bind, absent, Bool.false_eq_true, if_false,
    Task.eval_throw]

theorem hushed_readRom (drives : master.Drives line) (free : line.stuckLow = false)
    (present : line.devices ≠ []) : (perform (ε := ε) master readRom line).2.Hushed := by
  obtain ⟨next, asked⟩ : ∃ next, (readRom (ε := ε)).run = .ask .reset next := ⟨_, rfl⟩
  have released := drives.released
  have still_free : line.letGo.stuckLow = false :=
    (SimulatedLine.stuckLow_answer (ε := ε) .release line).trans free
  obtain ⟨-, mirrors⟩ := released.eval_ask_reset still_free drives.standard next
  have attached : line.letGo.wire.devices ≠ [] := by
    rw [SimulatedLine.letGo_up released.up]
    exact SimulatedLine.wire_ne_nil present
  have sent := Wire.idle_readRom (ε := ε) attached
  rw [Task.eval, asked, ← mirrors.same] at sent
  rw [perform_eq_eval, Task.eval, asked]
  exact ⟨mirrors.settled.free, List.forall_mem_map.mp sent, mirrors.settled.quiet,
    mirrors.settled.silent⟩

theorem perform_readRom (drives : master.Drives line) (free : line.stuckLow = false)
    (present : line.devices ≠ []) :
    (perform (ε := ε) master readRom line).1 =
      if (Rom.merged (line.devices.map Device.rom)).isValid then
        .ok (Rom.merged (line.devices.map Device.rom))
      else .error .invalidCrc := by
  have codes : line.wire.devices.map Device.rom = line.devices.map Device.rom :=
    line.map_wire fun _ => rfl
  obtain ⟨after, performed, -⟩ := perform_wire drives free (beginsWithReset_readRom (ε := ε))
  rw [performed, Wire.eval_readRom (SimulatedLine.wire_ne_nil present), codes]

/-- Several codes on the bus are noticed exactly if merging them breaks the checksum. If the merged
code passes, it is handed out, although some device that is attached has another code. -/
theorem read_rom_several (drives : master.Drives line) (free : line.stuckLow = false)
    (several : ∃ first ∈ line.devices, ∃ second ∈ line.devices, first.rom ≠ second.rom) :
    let merged := Rom.merged (line.devices.map Device.rom)
    ((perform (ε := ε) master readRom line).1 = .error .invalidCrc ↔ merged.isValid = false) ∧
      (merged.isValid = true →
        (perform (ε := ε) master readRom line).1 = .ok merged ∧
          ∃ device ∈ line.devices, device.rom ≠ merged) := by
  intro merged
  obtain ⟨first, attached, second, attached_second, differ⟩ := several
  have outcome : (perform (ε := ε) master readRom line).1 =
      if merged.isValid then .ok merged else .error .invalidCrc :=
    perform_readRom drives free (List.ne_nil_of_mem attached)
  rw [outcome]
  cases merged.isValid with
  | false => simp
  | true =>
      refine ⟨by simp, fun _ => ⟨rfl, ?_⟩⟩
      by_cases same : first.rom = merged
      · exact ⟨second, attached_second, fun equal => differ (same.trans equal.symm)⟩
      · exact ⟨first, attached, same⟩

theorem read_rom_several_unnoticed :
    let left : Rom := ⟨0xbf00000000000828⟩
    let right : Rom := ⟨0x5e00000000005228⟩
    let read : Rom := ⟨0x1e00000000000028⟩
    let line := (SimulatedLine.populate { capacity := 2 } [{ rom := left }, { rom := right }]).1
    left.isValid = true ∧ right.isValid = true ∧ read ≠ left ∧ read ≠ right ∧
      (perform (ε := Empty) ⟨Timing.standard, 12⟩ readRom line).1 = .ok read := by
  intro left right read line
  have new : ∀ device ∈ [({ rom := left } : Device), { rom := right }], device.IsNew := by
    simp only [List.forall_mem_cons]
    exact ⟨Device.isNew_of_rom left false, Device.isNew_of_rom right false, List.forall_mem_nil _⟩
  have several : ∃ first ∈ line.devices, ∃ second ∈ line.devices, first.rom ≠ second.rom := by
    decide +kernel
  have merges : Rom.merged (line.devices.map Device.rom) = read := by decide +kernel
  have passes : (Rom.merged (line.devices.map Device.rom)).isValid = true := by
    rw [merges]
    decide +kernel
  obtain ⟨-, unnoticed⟩ :=
    read_rom_several (ε := Empty) (Master.Drives.populated new 2) rfl several
  refine ⟨by decide +kernel, by decide +kernel, by decide, by decide, ?_⟩
  rw [(unnoticed passes).1, merges]

theorem reset_absent (drives : master.Drives line)
    (absent : line.stuckLow = true ∨ line.devices = []) :
    ∃ after, Task.eval master.serve (reset : Task (interface ε) ε Bool) line = (.ok false, after) ∧
      after.slots = line.slots := by
  have served : Task.eval master.serve (reset : Task (interface ε) ε Bool) line =
      Task.eval SimulatedLine.answer master.reset line := rfl
  rw [served]
  cases short : line.stuckLow with
  | true =>
      refine ⟨_, (SimulatedLine.runs_reset_stuck short master).eval, ?_⟩
      rw [SimulatedLine.letGo_up drives.released.up]
      rfl
  | false =>
      have empty : line.devices = [] := absent.resolve_left (by simp [short])
      obtain ⟨time, -, reset⟩ := drives.released.eval_reset (ε := ε) short drives.standard
      rw [empty] at reset
      exact ⟨_, reset, rfl⟩

/-- Reading the code of a bus with any devices on it, in the middle of whatever. Every byte that is
read is that byte of all codes merged; no slot is written where no device answers, and after the
codes nobody but the master pulls the line before the next reset. -/
theorem read_rom_outcomes (drives : master.Drives line) :
    let codes := line.devices.map Device.rom
    let merged := Rom.merged codes
    let outcome := perform (ε := ε) master readRom line
    merged.bytes = (List.range 8).map (fun index =>
      UInt8.ofBitVec (wiredAnd (codes.map fun rom => (rom.bytes.getD index 0).toBitVec))) ∧
    (line.stuckLow = true ∨ line.devices = [] →
      outcome.1 = .error .noDevicePresent ∧ outcome.2.slots = line.slots) ∧
    (line.stuckLow = false → line.devices ≠ [] →
      outcome.1 = (if merged.isValid then .ok merged else .error .invalidCrc) ∧
      ∀ {α : Type} (program : Program (Line.interface ε) α),
        let later := (program.run SimulatedLine.answer outcome.2).state
        later.resets = outcome.2.resets → later.isLow = later.fellAt.isSome ∧
          ∀ device ∈ later.devices, device.sending = none ∧ device.pulls later.now = false) := by
  intro codes merged outcome
  refine ⟨Rom.bytes_merged codes, ?_, ?_⟩
  · intro absent
    obtain ⟨after, reset, slots⟩ := reset_absent (ε := ε) drives absent
    have performed : outcome = (.error .noDevicePresent, after) :=
      (perform_eq_eval master readRom line).trans (eval_readRom_absent reset)
    rw [performed]
    exact ⟨rfl, slots⟩
  · intro free present
    refine ⟨perform_readRom drives free present, ?_⟩
    intro α program later unreset
    have hushed := (hushed_readRom (ε := ε) drives free present).run program unreset
    exact ⟨hushed.isLow_eq, fun device member =>
      ⟨hushed.sending device member, hushed.pulls device member⟩⟩

theorem read_rom_outcomes_freed :
    let left : Rom := ⟨0x2900000000000128⟩
    let right : Rom := ⟨0x7000000000000228⟩
    let master : Master := ⟨Timing.standard, 12⟩
    let line := (SimulatedLine.populate { capacity := 2 } [{ rom := left }, { rom := right }]).1
    let refused := perform (ε := Empty) master readRom { line with stuckLow := true }
    let read := perform (ε := Empty) master readRom { refused.2 with stuckLow := false }
    let later := ((master.onLine (readByte (ε := Empty)).run).run SimulatedLine.answer read.2).state
    refused.1 = .error .noDevicePresent ∧ refused.2.slots = 0 ∧ read.1 = .error .invalidCrc ∧
      later.slots = read.2.slots + 8 ∧ later.isLow = false ∧
      ∀ device ∈ later.devices, device.sending = none := by
  intro left right master line refused read later
  have new : ∀ device ∈ [({ rom := left } : Device), { rom := right }], device.IsNew := by
    simp only [List.forall_mem_cons]
    exact ⟨Device.isNew_of_rom left false, Device.isNew_of_rom right false, List.forall_mem_nil _⟩
  have drives : master.Drives { line with stuckLow := true } :=
    @Master.Drives.stick line master true (Master.Drives.populated new 2)
  have drives_freed : master.Drives { refused.2 with stuckLow := false } :=
    @Master.Drives.stick refused.2 master false
      (drives.keeps_onLine (readRom (ε := Empty)).run).drives
  have attached : refused.2.devices.map Device.rom = [left, right] := by decide +kernel
  have invalid : (Rom.merged [left, right]).isValid = false := by decide +kernel
  obtain ⟨unreset, written, up⟩ : later.resets = read.2.resets ∧
      later.slots = read.2.slots + 8 ∧ later.fellAt.isSome = false := by decide +kernel
  have present : refused.2.devices ≠ [] := fun none => by
    rw [none] at attached
    cases attached
  obtain ⟨-, absent, -⟩ := read_rom_outcomes (ε := Empty) drives
  have nobody : refused.1 = .error .noDevicePresent ∧ refused.2.slots = 0 := absent (.inl rfl)
  clear_value refused
  obtain ⟨-, -, several⟩ := read_rom_outcomes (ε := Empty) drives_freed
  obtain ⟨mismatch, silent⟩ := several rfl present
  obtain ⟨high, quiet⟩ := silent (master.onLine (readByte (ε := Empty)).run) unreset
  refine ⟨nobody.1, nobody.2, ?_, written, high.trans up, fun device member =>
    (quiet device member).1⟩
  rw [mismatch]
  simp only [attached, invalid, Bool.false_eq_true, if_false]

end Bus

end SingleWire
