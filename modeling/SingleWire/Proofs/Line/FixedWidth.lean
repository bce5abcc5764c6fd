import SingleWire.Proofs.Line.Invariant

/-!
The simulated line on words of fixed width. Every sum, difference, shift and index that the line and
its devices compute is checked here where it is computed, and a run fails with the first one that has
no result. As long as the clock and the counters have room no run fails, and it leaves the line
that unbounded numbers leave.
-/

namespace SingleWire

/-- Nothing comes out but this value. -/
def Only {α : Type} (result : Option α) (value : α) : Prop :=
  ∀ other, result = some other → other = value

namespace Only

variable {α β : Type} {result : Option α} {value : α} {image : β}

theorem of_eq (same : result = some value) : Only result value :=
  fun _ found => Option.some_inj.mp (found.symm.trans same)

theorem of_none (stopped : result = none) : Only result value :=
  fun _ found => absurd (stopped.symm.trans found) (Option.some_ne_none _).symm

theorem bind {next : α → Option β} (first : Only result value) (rest : Only (next value) image) :
    Only (result.bind next) image := by
  intro other found
  obtain ⟨middle, here, there⟩ := Option.bind_eq_some_iff.mp found
  rw [first middle here] at there
  exact rest other there

theorem map (change : α → β) (first : Only result value) :
    Only (result.map change) (change value) := by
  intro other found
  obtain ⟨before, here, rfl⟩ := Option.map_eq_some_iff.mp found
  rw [first before here]

theorem ite {condition : Prop} [Decidable condition] {left right : Option α} {first second : α}
    (holds : condition → Only left first) (fails : ¬ condition → Only right second) :
    Only (if condition then left else right) (if condition then first else second) := by
  split
  · exact holds ‹_›
  · exact fails ‹_›

theorem mapM {step? : α → Option β} {step : α → β} (each : ∀ element, Only (step? element) (step element))
    (elements : List α) : Only (elements.mapM step?) (elements.map step) := by
  induction elements with
  | nil => exact of_eq rfl
  | cons element rest ih =>
      rw [List.mapM_cons, List.map_cons]
      exact (each element).bind (ih.bind (of_eq rfl))

end Only

namespace Word

def sum? (width left right : Nat) : Option Nat :=
  if left + right < 2 ^ width then some (left + right) else none

def difference? (left right : Nat) : Option Nat :=
  if right ≤ left then some (left - right) else none

def place? (bit : Bool) (place : Nat) : Option UInt8 :=
  if place < 8 then some (bit.toUInt8 <<< UInt8.ofNat place) else none

end Word

def Rom.bit? (rom : Rom) (index : Nat) : Option Bool :=
  rom.bytes[index / 8]?.map fun byte => byte.toBitVec.getLsbD (index % 8)

namespace Device

def sending? (device : Device) : Option (Option Bool) :=
  match device.phase with
  | .search index .bit => (device.rom.bit? index).map fun bit => some bit
  | .search index .complement => (device.rom.bit? index).map fun bit => some !bit
  | .sendRom index => (device.rom.bit? index).map fun bit => some bit
  | .sendData position => some (some (device.dataBit position))
  | _ => some none

def startSlot? (device : Device) (now : Nat) : Option Device := do
  let sent ← device.sending?
  if sent = some false then
    let limit ← Word.sum? 64 now zeroLow
    some { device with pullUntil := some limit }
  else some { device with pullUntil := none }

def addBit? (byte : UInt8) (count : Nat) (bit : Bool) : Option UInt8 :=
  (Word.place? bit count).map fun placed => byte ||| placed

def endSlot? (device : Device) (bit : Bool) : Option Device :=
  match device.phase with
  | .idle => some device
  | .romCommand byte count => do
      let received ← addBit? byte count bit
      if count < 7 then
        let next ← Word.sum? 8 count 1
        some { device with phase := .romCommand received next }
      else some { device with phase := device.obey received }
  | .search index .bit => some { device with phase := .search index .complement }
  | .search index .complement => some { device with phase := .search index .direction }
  | .search index .direction => do
      let own ← device.rom.bit? index
      if bit ≠ own ∨ index = 63 then some { device with phase := .idle }
      else
        let next ← Word.sum? 8 index 1
        some { device with phase := .search next .bit }
  | .matchRom index => do
      let own ← device.rom.bit? index
      if bit ≠ own then some { device with phase := .idle }
      else if index = 63 then some { device with phase := .functionCommand 0 0 }
      else
        let next ← Word.sum? 8 index 1
        some { device with phase := .matchRom next }
  | .sendRom index =>
      if index = 63 then some { device with phase := .idle }
      else do
        let next ← Word.sum? 8 index 1
        some { device with phase := .sendRom next }
  | .functionCommand byte count => do
      let received ← addBit? byte count bit
      if count < 7 then
        let next ← Word.sum? 8 count 1
        some { device with phase := .functionCommand received next }
      else some { device with phase := .sendData 0, lastCommand := some received }
  | .sendData position =>
      -- The only sum that stops at the largest word instead of failing.
      some { device with phase := .sendData ((Word.sum? 16 position 1).getD (2 ^ 16 - 1)) }

end Device

namespace SimulatedLine

def pull? (line : SimulatedLine) : Option SimulatedLine :=
  match line.fellAt with
  | some _ => some { line with powered := false }
  | none => do
      let devices ← line.devices.mapM (·.startSlot? line.now)
      some { line with powered := false, fellAt := some line.now, devices }

def endReset? (line : SimulatedLine) : Option SimulatedLine := do
  let resets ← Word.sum? 32 line.resets 1
  let presence ←
    if line.devices.isEmpty then some none
    else do
      let start ← Word.sum? 64 line.now presenceStart
      let finish ← Word.sum? 64 line.now presenceEnd
      some (some (start, finish))
  some { line with
    powered := false
    fellAt := none
    resets
    presence
    devices := line.devices.map Device.reset }

def endSlot? (line : SimulatedLine) (bit : Bool) : Option SimulatedLine := do
  let slots ← Word.sum? 32 line.slots 1
  let devices ← line.devices.mapM (·.endSlot? bit)
  some { line with powered := false, fellAt := none, slots, devices }

def letGo? (line : SimulatedLine) : Option SimulatedLine :=
  match line.fellAt with
  | none => some { line with powered := false }
  | some fell => do
      let low ← Word.difference? line.now fell
      if resetLow ≤ low then line.endReset? else line.endSlot? (low < zeroLow)

def wait? (line : SimulatedLine) (time : Nat) : Option SimulatedLine :=
  (Word.sum? 64 line.now time).map fun now => { line with now }

/-- The answer to a call, unless something computed for it has no result. -/
def answer? {ε : Type} : (request : Line.Request) → SimulatedLine →
    Option (Line.Reply ε request × SimulatedLine)
  | .driveLow, line => line.pull?.map fun after => (.ok (), after)
  | .release, line => line.letGo?.map fun after => (.ok (), after)
  | .driveHigh, line => line.letGo?.map fun after => (.ok (), { after with powered := true })
  | .sample, line => some (.ok (!line.isLow), line)
  | .delay time, line => (line.wait? time).map fun after => ((), after)
  | .latency, line => some (.ok line.latency, line)

/-- One thing that is done to a line: a call on it, a device attached as it was built, the line
shorted or freed, or its latency changed. -/
inductive Move
  | call (request : Line.Request)
  | attach (rom : Rom) (alarm : Bool) (data : List UInt8)
  | stick (low : Bool)
  | setLatency (time : Nat)
  deriving DecidableEq, Repr

namespace Move

def step (line : SimulatedLine) : Move → SimulatedLine
  | .call request => (answer (ε := Empty) request line).2
  | .attach rom alarm data => (line.attach? (Device.withData { rom, alarm } data)).getD line
  | .stick low => { line with stuckLow := low }
  | .setLatency time => { line with latency := time }

def step? (line : SimulatedLine) : Move → Option SimulatedLine
  | .call request => (answer? (ε := Empty) request line).map Prod.snd
  | move => some (move.step line)

end Move

def run (line : SimulatedLine) (moves : List Move) : SimulatedLine :=
  moves.foldl Move.step line

def run? (line : SimulatedLine) (moves : List Move) : Option SimulatedLine :=
  moves.foldlM Move.step? line

/-- The clock has room for the longest pulse, and the counters for what they have counted. -/
structure InRange (line : SimulatedLine) : Prop where
  now : line.now < 2 ^ 64 - presenceEnd
  resets : line.resets < 2 ^ 32
  slots : line.slots < 2 ^ 32

end SimulatedLine

namespace Word

theorem sum?_eq {width left right : Nat} (room : left + right < 2 ^ width) :
    sum? width left right = some (left + right) := if_pos room

theorem sum?_only (width left right : Nat) : Only (sum? width left right) (left + right) := by
  by_cases room : left + right < 2 ^ width
  · exact .of_eq (sum?_eq room)
  · exact .of_none (if_neg room)

theorem difference?_eq {left right : Nat} (below : right ≤ left) :
    difference? left right = some (left - right) := if_pos below

theorem difference?_only (left right : Nat) : Only (difference? left right) (left - right) := by
  by_cases below : right ≤ left
  · exact .of_eq (difference?_eq below)
  · exact .of_none (if_neg below)

theorem sum?_succ {index : Nat} (inside : index < 64) : sum? 8 index 1 = some (index + 1) :=
  sum?_eq (Nat.lt_of_le_of_lt inside (by decide))

end Word

theorem Rom.bit?_eq (rom : Rom) {index : Nat} (inside : index < 64) :
    rom.bit? index = some (rom.bit index) := by
  have byte : rom.bytes[index / 8]? =
      some (UInt8.ofNat (rom.code.toNat / 256 ^ (index / 8) % 256)) := by
    have within : index / 8 < 8 := by omega
    simp [bytes_eq_map, within]
  have place : 8 * (index / 8) + index % 8 = index := Nat.div_add_mod index 8
  rw [bit?, byte, Option.map_some, getLsbD_byte _ _ _ (by omega), place]
  rfl

theorem Rom.bit?_only (rom : Rom) (index : Nat) : Only (rom.bit? index) (rom.bit index) := by
  by_cases inside : index < 64
  · exact .of_eq (rom.bit?_eq inside)
  · have beyond : rom.bytes[index / 8]? = none := by
      have outside : 8 ≤ index / 8 := by omega
      simp [bytes_eq_map, outside]
    exact .of_none (by rw [bit?, beyond, Option.map_none])

namespace Device

variable {device : Device}

theorem addBit?_eq (byte : UInt8) {count : Nat} (more : count < 8) (bit : Bool) :
    addBit? byte count bit = some (addBit byte count bit) := by
  rw [addBit?, Word.place?, if_pos more, Option.map_some]
  cases bit with
  | false =>
      have nothing : byte ||| (0 <<< UInt8.ofNat count : UInt8) = byte := by simp
      exact congrArg some nothing
  | true => rfl

theorem addBit?_only (byte : UInt8) (count : Nat) (bit : Bool) :
    Only (addBit? byte count bit) (addBit byte count bit) := by
  by_cases more : count < 8
  · exact .of_eq (addBit?_eq byte more bit)
  · exact .of_none (by rw [addBit?, Word.place?, if_neg more, Option.map_none])

theorem sending?_eq (sound : device.phase.Sound) : device.sending? = some device.sending := by
  unfold sending? sending
  cases phase : device.phase with
  | search index step =>
      rw [phase] at sound
      cases step with
      | bit | complement => simp only [device.rom.bit?_eq sound, Option.map_some]
      | direction => rfl
  | sendRom index =>
      rw [phase] at sound
      simp only [device.rom.bit?_eq sound, Option.map_some]
  | _ => rfl

theorem sending?_only (device : Device) : Only device.sending? device.sending := by
  unfold sending? sending
  cases device.phase with
  | search index step =>
      cases step with
      | bit | complement => exact (device.rom.bit?_only index).map _
      | direction => exact .of_eq rfl
  | sendRom index => exact (device.rom.bit?_only index).map _
  | _ => exact .of_eq rfl

theorem startSlot?_eq (sound : device.phase.Sound) {now : Nat} (early : now + zeroLow < 2 ^ 64) :
    device.startSlot? now = some (device.startSlot now) := by
  simp only [startSlot?, sending?_eq sound, Word.sum?_eq early, startSlot, Option.bind_eq_bind,
    Option.bind_some]
  split <;> rfl

theorem startSlot?_only (device : Device) (now : Nat) :
    Only (device.startSlot? now) (device.startSlot now) := by
  apply device.sending?_only.bind
  rw [startSlot]
  split
  · exact (Word.sum?_only 64 now zeroLow).bind (.of_eq rfl)
  · exact .of_eq rfl

theorem nextPosition_eq (position : Nat) :
    (Word.sum? 16 position 1).getD (2 ^ 16 - 1) = min (position + 1) lastPosition := by
  have last : lastPosition = 2 ^ 16 - 1 := rfl
  rw [Word.sum?, last]
  split
  · rw [Option.getD_some]
    omega
  · rw [Option.getD_none]
    omega

theorem endSlot?_eq (sound : device.phase.Sound) (bit : Bool) :
    device.endSlot? bit = some (device.endSlot bit) := by
  unfold endSlot? endSlot
  cases phase : device.phase with
  | idle => rfl
  | romCommand byte count | functionCommand byte count =>
      rw [phase] at sound
      have next := Word.sum?_succ (sound.1.trans (by decide))
      simp only [addBit?_eq byte sound.1, next, Option.bind_eq_bind, Option.bind_some]
      split <;> rfl
  | search index step =>
      rw [phase] at sound
      cases step with
      | bit | complement => rfl
      | direction =>
          simp only [device.rom.bit?_eq sound, Word.sum?_succ sound, Option.bind_eq_bind,
            Option.bind_some]
          split <;> rfl
  | matchRom index =>
      rw [phase] at sound
      simp only [device.rom.bit?_eq sound, Word.sum?_succ sound, Option.bind_eq_bind,
        Option.bind_some]
      split
      · rfl
      · split <;> rfl
  | sendRom index =>
      rw [phase] at sound
      simp only [Word.sum?_succ sound, Option.bind_eq_bind, Option.bind_some]
      split <;> rfl
  | sendData position => simp only [nextPosition_eq]

theorem endSlot?_only (device : Device) (bit : Bool) :
    Only (device.endSlot? bit) (device.endSlot bit) := by
  unfold endSlot? endSlot
  cases device.phase with
  | idle => exact .of_eq rfl
  | romCommand byte count | functionCommand byte count =>
      refine (addBit?_only byte count bit).bind (.ite (fun _ => ?_) fun _ => .of_eq rfl)
      exact (Word.sum?_only 8 count 1).bind (.of_eq rfl)
  | search index step =>
      cases step with
      | bit | complement => exact .of_eq rfl
      | direction =>
          refine (device.rom.bit?_only index).bind (.ite (fun _ => .of_eq rfl) fun _ => ?_)
          exact (Word.sum?_only 8 index 1).bind (.of_eq rfl)
  | matchRom index =>
      refine (device.rom.bit?_only index).bind (.ite (fun _ => .of_eq rfl) fun _ => ?_)
      refine .ite (fun _ => .of_eq rfl) fun _ => ?_
      exact (Word.sum?_only 8 index 1).bind (.of_eq rfl)
  | sendRom index =>
      refine .ite (fun _ => .of_eq rfl) fun _ => ?_
      exact (Word.sum?_only 8 index 1).bind (.of_eq rfl)
  | sendData position => exact .of_eq (by simp only [nextPosition_eq])

end Device

theorem mapM_eq_some {α β : Type} {step? : α → Option β} {step : α → β} {elements : List α}
    (succeeds : ∀ element ∈ elements, step? element = some (step element)) :
    elements.mapM step? = some (elements.map step) := by
  induction elements with
  | nil => rfl
  | cons element rest ih =>
      obtain ⟨first, others⟩ := List.forall_mem_cons.mp succeeds
      rw [List.mapM_cons, first, ih others]
      rfl

namespace SimulatedLine

variable {ε : Type} {line : SimulatedLine}

theorem pull?_only (line : SimulatedLine) : Only line.pull? line.pull := by
  unfold pull? pull
  cases line.fellAt with
  | some fell => exact .of_eq rfl
  | none => exact (Only.mapM (fun device => device.startSlot?_only line.now) _).bind (.of_eq rfl)

theorem endReset?_only (line : SimulatedLine) : Only line.endReset? line.endReset := by
  unfold endReset? endReset
  refine (Word.sum?_only 32 line.resets 1).bind ?_
  cases line.devices.isEmpty with
  | true => exact .of_eq rfl
  | false =>
      refine (Word.sum?_only 64 line.now presenceStart).bind ?_
      exact (Word.sum?_only 64 line.now presenceEnd).bind (.of_eq rfl)

theorem endSlot?_only (line : SimulatedLine) (bit : Bool) :
    Only (line.endSlot? bit) (line.endSlot bit) := by
  refine (Word.sum?_only 32 line.slots 1).bind ?_
  exact (Only.mapM (fun device => device.endSlot?_only bit) _).bind (.of_eq rfl)

theorem letGo?_only (line : SimulatedLine) : Only line.letGo? line.letGo := by
  unfold letGo? letGo
  cases line.fellAt with
  | none => exact .of_eq rfl
  | some fell =>
      refine (Word.difference?_only line.now fell).bind ?_
      exact .ite (fun _ => line.endReset?_only) fun _ => line.endSlot?_only _

theorem answer?_only (request : Line.Request) (line : SimulatedLine) :
    Only (answer? (ε := ε) request line) (answer request line) := by
  cases request with
  | driveLow => exact line.pull?_only.map _
  | release | driveHigh => exact line.letGo?_only.map _
  | delay time => exact ((Word.sum?_only 64 line.now time).map _).map _
  | sample | latency => exact .of_eq rfl

/-- Clock and counters only grow, so what has room after a call had room before it. -/
theorem InRange.before (request : Line.Request)
    (after : (answer (ε := ε) request line).2.InRange) : line.InRange := by
  have released : line.letGo.InRange → line.InRange := by
    intro after
    unfold letGo at after
    split at after
    · exact ⟨after.now, after.resets, after.slots⟩
    · dsimp only at after
      split at after
      · exact ⟨after.now, Nat.lt_of_succ_lt after.resets, after.slots⟩
      · exact ⟨after.now, after.resets, Nat.lt_of_succ_lt after.slots⟩
  cases request with
  | driveLow =>
      simp only [answer, pull] at after
      split at after
      · exact ⟨after.now, after.resets, after.slots⟩
      · exact ⟨after.now, after.resets, after.slots⟩
  | release => exact released after
  | driveHigh => exact released ⟨after.now, after.resets, after.slots⟩
  | delay time => exact ⟨Nat.lt_of_le_of_lt (Nat.le_add_right _ _) after.now, after.resets, after.slots⟩
  | sample | latency => exact after

theorem InRange.before_step {move : Move} (after : (move.step line).InRange) : line.InRange := by
  cases move with
  | call request => exact InRange.before request after
  | attach rom alarm data =>
      simp only [Move.step] at after
      cases room : line.attach? (Device.withData { rom, alarm } data) with
      | none =>
          rw [room] at after
          exact after
      | some grown =>
          obtain ⟨-, rfl⟩ := attached room
          rw [room] at after
          exact ⟨after.now, after.resets, after.slots⟩
  | stick low | setLatency time => exact ⟨after.now, after.resets, after.slots⟩

theorem InRange.before_run {moves : List Move} (after : (line.run moves).InRange) :
    line.InRange := by
  induction moves generalizing line with
  | nil => exact after
  | cons move rest ih => exact (ih after).before_step

theorem InRange.room (range : line.InRange) {time : Nat} (short : time ≤ presenceEnd) :
    line.now + time < 2 ^ 64 :=
  calc
    line.now + time ≤ line.now + presenceEnd := Nat.add_le_add_left short _
    _ < 2 ^ 64 := Nat.add_lt_of_lt_sub range.now

theorem InRange.endReset?_eq (range : line.InRange) (counted : line.resets + 1 < 2 ^ 32) :
    line.endReset? = some line.endReset := by
  have start := Word.sum?_eq (range.room (by decide : presenceStart ≤ presenceEnd))
  have finish := Word.sum?_eq (range.room (Nat.le_refl presenceEnd))
  simp only [endReset?, endReset, Word.sum?_eq counted, start, finish, Option.bind_eq_bind,
    Option.bind_some]
  split <;> rfl

namespace WellFormed

variable (formed : line.WellFormed)
include formed

theorem step (move : Move) : (move.step line).WellFormed := by
  cases move with
  | call request => exact formed.answer request
  | attach rom alarm data =>
      have new := (Device.isNew_of_rom rom alarm).withData data
      simp only [Move.step]
      cases room : line.attach? (Device.withData { rom, alarm } data) with
      | none => exact formed
      | some grown => exact formed.attach new room
  | stick low | setLatency time =>
      exact ⟨⟨formed.fell, formed.presence, formed.pulls⟩, formed.room, formed.fits, formed.sound⟩

theorem run (moves : List Move) : (line.run moves).WellFormed := by
  induction moves generalizing line with
  | nil => exact formed
  | cons move rest ih => exact ih (formed.step move)

theorem pull?_eq (range : line.InRange) : line.pull? = some line.pull := by
  have early : line.now + Device.zeroLow < 2 ^ 64 := range.room (by decide)
  have started : line.devices.mapM (·.startSlot? line.now) =
      some (line.devices.map (·.startSlot line.now)) :=
    mapM_eq_some fun device member => Device.startSlot?_eq (formed.sound device member) early
  unfold pull? pull
  cases line.fellAt with
  | some fell => rfl
  | none =>
      dsimp only
      rw [started]
      rfl

theorem endSlot?_eq (counted : line.slots + 1 < 2 ^ 32) (bit : Bool) :
    line.endSlot? bit = some (line.endSlot bit) := by
  have ended : line.devices.mapM (·.endSlot? bit) = some (line.devices.map (·.endSlot bit)) :=
    mapM_eq_some fun device member => Device.endSlot?_eq (formed.sound device member) bit
  simp only [SimulatedLine.endSlot?, endSlot, Word.sum?_eq counted, ended, Option.bind_eq_bind,
    Option.bind_some]

theorem letGo?_eq (after : line.letGo.InRange) : line.letGo? = some line.letGo := by
  have range : line.InRange := InRange.before (ε := Empty) .release after
  unfold letGo? letGo
  unfold letGo at after
  cases fallen : line.fellAt with
  | none => rfl
  | some fell =>
      rw [fallen] at after
      dsimp only at after ⊢
      rw [Word.difference?_eq (formed.fell fell fallen), Option.bind_eq_bind, Option.bind_some]
      split at after
      · rename_i long
        rw [if_pos long, if_pos long]
        exact range.endReset?_eq after.resets
      · rename_i short
        rw [if_neg short, if_neg short]
        exact formed.endSlot?_eq after.slots _

theorem answer?_eq (request : Line.Request)
    (after : (SimulatedLine.answer (ε := ε) request line).2.InRange) :
    answer? (ε := ε) request line = some (SimulatedLine.answer request line) := by
  cases request with
  | driveLow =>
      rw [answer?, formed.pull?_eq (InRange.before (ε := ε) .driveLow after), Option.map_some]
      rfl
  | release =>
      rw [answer?, formed.letGo?_eq after, Option.map_some]
      rfl
  | driveHigh =>
      rw [answer?, formed.letGo?_eq ⟨after.now, after.resets, after.slots⟩, Option.map_some]
      rfl
  | delay time =>
      have fits : line.now + time < 2 ^ 64 := Nat.lt_of_lt_of_le after.now (Nat.sub_le _ _)
      rw [answer?, wait?, Word.sum?_eq fits, Option.map_some]
      rfl
  | sample | latency => rfl

theorem step?_eq {move : Move} (after : (move.step line).InRange) :
    move.step? line = some (move.step line) := by
  cases move with
  | call request =>
      rw [Move.step?, formed.answer?_eq request after, Option.map_some]
      rfl
  | attach rom alarm data | stick low | setLatency time => rfl

theorem run?_eq {moves : List Move} (after : (line.run moves).InRange) :
    line.run? moves = some (line.run moves) := by
  induction moves generalizing line with
  | nil => rfl
  | cons move rest ih =>
      have first : move.step? line = some (move.step line) :=
        formed.step?_eq (InRange.before_run after)
      rw [run?, List.foldlM_cons, first, Option.bind_eq_bind, Option.bind_some]
      exact ih (formed.step move) after

end WellFormed

/-- Whatever is done to an empty line, in whatever order and for whatever times, it stays well formed.
While its clock and its counters have room, everything that is computed for it has a result, and it
is the line that unbounded numbers lead to. -/
theorem run_never_fails (capacity : Nat) (moves : List Move) :
    (({ capacity } : SimulatedLine).run moves).WellFormed ∧
      ((({ capacity } : SimulatedLine).run moves).InRange →
        ({ capacity } : SimulatedLine).run? moves =
          some (({ capacity } : SimulatedLine).run moves)) :=
  ⟨(WellFormed.empty capacity).run moves, (WellFormed.empty capacity).run?_eq⟩

theorem run_never_fails_at_the_limit :
    let moves : List Move :=
      [.call .driveLow, .attach ⟨0x9e00000000000028⟩ true [0x5f], .call .driveLow,
        .attach ⟨0x1e00000000000028⟩ false [], .call (.delay 20), .call .release, .call .release,
        .call (.delay (2 ^ 64 - 636)), .stick true, .call .driveLow, .call (.delay 480),
        .call .driveHigh, .call .sample]
    let line : SimulatedLine := { capacity := 1 }
    (line.run moves).now = 2 ^ 64 - 136 ∧ line.run? moves = some (line.run moves) := by
  intro moves line
  have range : (line.run moves).InRange :=
    ⟨by decide +kernel, by decide +kernel, by decide +kernel⟩
  exact ⟨by decide +kernel, (run_never_fails 1 moves).2 range⟩

/-- One later the end of the presence pulse is beyond the clock. -/
example :
    ({ capacity := 1 } : SimulatedLine).run?
      [.attach ⟨0x9e00000000000028⟩ true [], .call .driveLow, .call (.delay (2 ^ 64 - 135)),
        .call .release] = none := by
  decide +kernel

end SimulatedLine

end SingleWire
