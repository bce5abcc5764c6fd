import SingleWire.Command.Run
import SingleWire.Proofs.RomText
import SingleWire.Proofs.Search.Targets

namespace SingleWire

variable {ε : Type}

namespace Command

/-- What a scan of these devices lists: those of the family wanted, or all where none is wanted. The
family zero is that of no device and stands for no family. -/
def scanned (roms : List Rom) : (wanted : Option UInt8) → List Rom
  | none => Rom.inOrder roms
  | some family =>
      if family = 0 then Rom.inOrder roms
      else (Rom.inOrder roms).filter fun code => code.family == family

theorem scanned_nil (wanted : Option UInt8) : scanned [] wanted = [] := by
  have none : Rom.inOrder [] = [] := Rom.inOrder_eq List.Pairwise.nil fun _ => Iff.rfl
  cases wanted with
  | none => exact none
  | some family =>
      rw [scanned, none]
      split <;> rfl

theorem length_scanned_le (roms : List Rom) (wanted : Option UInt8) :
    (scanned roms wanted).length ≤ (Rom.inOrder roms).length := by
  cases wanted with
  | none => exact le_refl _
  | some family =>
      rw [scanned]
      split
      · exact le_refl _
      · exact List.length_filter_le _ _

end Command

namespace Search

variable {codes listed : List Rom} {latest : Option Rom} {path : Rom} {kind : Kind} {state : State}
  {wire : Wire} {family : UInt8}

/-- The calls for the next device in a row find the codes listed, then nothing. -/
def Yields (ε : Type) (state : State) (wire : Wire) : List Rom → Prop
  | [] => (eval (Wire.answer (ε := ε)) next state wire).1 = .ok none
  | code :: rest =>
      (eval (Wire.answer (ε := ε)) next state wire).1 = .ok (some code) ∧
        Yields ε (eval (Wire.answer (ε := ε)) next state wire).2.1
          (eval (Wire.answer (ε := ε)) next state wire).2.2 rest

theorem yields_nobody (taking : state.kind.codes wire.devices = []) (more : state.exhausted = false) :
    Yields ε state wire [] := by
  obtain ⟨after, ended, -⟩ := eval_next_nobody (ε := ε) more taking
  rw [Yields, ended]

section

variable (taking : state.kind.codes wire.devices = codes)
  (families : ∀ code ∈ codes, code.family ≠ 0) (valid : ∀ code ∈ codes, code.isValid = true)
include taking families valid

theorem Stands.yields (stands : Stands codes state latest) (same : ahead codes latest = listed) :
    Yields ε state wire listed := by
  induction listed generalizing state wire latest with
  | nil =>
      obtain ⟨after, bus, ended, -⟩ := stands.eval_next_none (ε := ε) taking same
      rw [Yields, ended]
  | cons code rest ih =>
      obtain ⟨bus, passed, natures, -⟩ := stands.eval_next (ε := ε) taking families same
      have member : code ∈ codes := (first_ahead same).1
      have there : Stands codes (state.landed codes code) (some code) :=
        Stands.landed stands.untargeted member
      have again : (state.landed codes code).kind.codes bus.devices = codes :=
        (Wire.codes_of_natures natures).trans taking
      rw [verdict, if_pos (valid code member)] at passed
      rw [Yields, passed]
      exact ⟨rfl, ih again there (ahead_tail same)⟩

theorem Seeks.yields (targeted : state.family ≠ 0) (someone : codes ≠ [])
    (seeks : Seeks codes state listed) : Yields ε state wire listed := by
  induction listed generalizing state wire with
  | nil =>
      obtain ⟨after, bus, called, -⟩ :=
        seeks.eval_next (ε := ε) targeted someone families valid taking
      rw [Yields, called]
      rfl
  | cons code rest ih =>
      obtain ⟨after, bus, called, left, -, retains⟩ :=
        seeks.eval_next (ε := ε) targeted someone families valid taking
      have again : after.kind.codes bus.devices = codes := by
        rw [retains.kind, Wire.codes_of_natures retains.natures, taking]
      rw [Yields, called]
      exact ⟨rfl, ih again (retains.family ▸ targeted) left⟩

end

/-- A pass that is led along a code without any bit set ends on the first code. -/
theorem Led.unseeded (led : Led codes (steering (Rom.seed 0) 64) path 64)
    (valid : ∀ code ∈ codes, code.isValid = true) :
    Rom.inOrder codes = path :: ahead codes (some path) := by
  have unset : ∀ index ≥ 0, (Rom.seed 0).bit index = false := by
    intro index _
    rw [Rom.bit, Rom.code_seed]
    exact BitVec.getLsbD_zero
  apply Rom.inOrder_eq
  · refine List.pairwise_cons.mpr ⟨?_, ahead_pairwise codes (some path)⟩
    intro other behind
    exact (mem_ahead.mp behind).2 path rfl
  · intro code
    constructor
    · intro listed
      rcases List.mem_cons.mp listed with same | behind
      · rw [same]
        exact led.mem
      · exact (mem_ahead.mp behind).1
    · intro member
      rcases led.least_behind unset valid member fun _ early => absurd early (Nat.not_lt_zero _) with
        same | behind
      · rw [same]
        exact List.mem_cons_self
      · apply List.mem_cons_of_mem path
        exact mem_ahead.mpr ⟨member, fun _ found => Option.some_inj.mp found ▸ behind⟩

section

variable (taking : kind.codes wire.devices = codes) (families : ∀ code ∈ codes, code.family ≠ 0)
  (valid : ∀ code ∈ codes, code.isValid = true)
include taking families valid

theorem yields_ofFamily_zero (someone : codes ≠ []) :
    Yields ε (State.ofFamily kind 0) wire (Rom.inOrder codes) := by
  obtain ⟨path, bus, passed, led, natures, -⟩ :=
    @eval_pass ε (State.ofFamily kind 0) wire (ne_of_eq_of_ne taking someone)
  have same : (State.ofFamily kind 0).kind.codes wire.devices = codes := taking
  rw [same] at passed led
  have stands : Stands codes ((State.ofFamily kind 0).landed codes path) (some path) :=
    Stands.landed rfl led.mem
  have called : eval (Wire.answer (ε := ε)) next (State.ofFamily kind 0) wire =
      (.ok (some path), (State.ofFamily kind 0).landed codes path, bus) := by
    rw [eval_next_passed rfl passed, eval_judge stands.untargeted (families path led.mem), verdict,
      if_pos (valid path led.mem)]
  rw [led.unseeded valid, Yields, called]
  exact ⟨rfl, stands.yields ((Wire.codes_of_natures natures).trans taking) families valid rfl⟩

end

theorem yields_scanStart (taking : Kind.normal.codes wire.devices = codes)
    (families : ∀ code ∈ codes, code.family ≠ 0) (valid : ∀ code ∈ codes, code.isValid = true)
    (wanted : Option UInt8) :
    Yields ε (Command.scanStart wanted false) wire (Command.scanned codes wanted) := by
  by_cases nobody : codes = []
  · rw [nobody, Command.scanned_nil]
    cases wanted with
    | none | some _ => exact yields_nobody (taking.trans nobody) rfl
  cases wanted with
  | none =>
      have stands : Stands codes (State.fresh .normal) none := .start rfl rfl rfl
      exact stands.yields taking families valid (ahead_none codes)
  | some family =>
      rw [Command.scanned]
      by_cases zero : family = 0
      · rw [if_pos zero, zero]
        exact yields_ofFamily_zero taking families valid nobody
      · rw [if_neg zero]
        have seeks := seeks_ofFamily codes .normal family
        rw [familyAhead, ahead_none] at seeks
        exact seeks.yields taking families valid zero nobody

end Search

namespace Command

variable {σ : Type} {listed : List Rom} {state : Search.State} {wire : Wire} {line : SimulatedLine}

section

variable {handle : Handler (Bus.interface ε) σ} {bus : σ}

theorem eval_listDevices_succ (passes : Nat) (found : List Rom) :
    Program.eval handle ((listDevices (passes + 1) found).run state) bus =
      match Search.eval handle Search.next state bus with
      | (.ok (some rom), after, line) =>
          Program.eval handle ((listDevices passes (rom :: found)).run after) line
      | (.ok none, after, line) => (((found.reverse, .done), after), line)
      | (.error error, after, line) => (((found.reverse, .failed (.bus error)), after), line) := by
  rw [listDevices, StateT.run_bind, Program.bind_eq_bind, Program.eval_bind, Search.eval]
  rcases Program.eval handle ((Search.next : SearchTask ε (Option Rom)).run.run state) bus with
    ⟨⟨error | (- | rom), after⟩, line⟩
  · rfl
  · rfl
  · rfl

end

theorem eval_listDevices {passes : Nat} {found : List Rom}
    (yields : Search.Yields ε state wire listed) (enough : listed.length < passes) :
    (Program.eval (Wire.answer (ε := ε)) ((listDevices passes found).run state) wire).1.1 =
      (found.reverse ++ listed, .done) := by
  induction listed generalizing passes found state wire with
  | nil =>
      obtain ⟨passes, rfl⟩ := Nat.exists_eq_succ_of_ne_zero (Nat.ne_zero_of_lt enough)
      rcases called : Search.eval (Wire.answer (ε := ε)) Search.next state wire with
        ⟨outcome, after, bus⟩
      rw [Search.Yields, called] at yields
      cases yields
      rw [eval_listDevices_succ, called, List.append_nil]
  | cons code rest ih =>
      obtain ⟨passes, rfl⟩ := Nat.exists_eq_succ_of_ne_zero (Nat.ne_zero_of_lt enough)
      rcases called : Search.eval (Wire.answer (ε := ε)) Search.next state wire with
        ⟨outcome, after, bus⟩
      rw [Search.Yields, called] at yields
      obtain ⟨returned, left⟩ := yields
      cases returned
      rw [eval_listDevices_succ, called]
      dsimp only
      rw [ih left (Nat.lt_of_succ_lt_succ enough), List.reverse_cons, List.append_assoc,
        List.singleton_append]

theorem eval_scanBus {wanted : Option UInt8}
    (yields : Search.Yields ε (scanStart wanted false) wire listed)
    (enough : listed.length < Search.passLimit) :
    (Program.eval (Wire.answer (ε := ε)) (scanBus wanted false) wire).1 =
      ⟨String.join (listed.map codeLine), .done⟩ := by
  have listing := @eval_listDevices ε _ _ wire Search.passLimit [] yields enough
  rw [scanBus, Program.bind_eq_bind, Program.eval_bind]
  rcases run : Program.eval (Wire.answer (ε := ε))
    ((listDevices Search.passLimit []).run (scanStart wanted false)) wire with ⟨⟨found, after⟩, bus⟩
  rw [run] at listing
  dsimp only at listing
  rw [listing]
  rfl

theorem beginsWithReset_listDevices (passes : Nat) (found : List Rom) (state : Search.State) :
    Bus.BeginsWithReset ((listDevices (ε := ε) passes found).run state) := by
  induction passes generalizing found state with
  | zero => trivial
  | succ passes ih =>
      rw [listDevices, StateT.run_bind]
      apply (Search.beginsWithReset_next state).bind
      rintro ⟨error | (- | rom), after⟩
      · trivial
      · trivial
      · exact ih (rom :: found) after

theorem beginsWithReset_scanBus (wanted : Option UInt8) (alarm : Bool) :
    Bus.BeginsWithReset (scanBus (ε := ε) wanted alarm) := by
  rw [scanBus]
  apply (beginsWithReset_listDevices Search.passLimit [] (scanStart wanted alarm)).bind
  rintro ⟨⟨found, ending⟩, after⟩
  cases ending <;> trivial

def populated (roms : List Rom) : SimulatedLine :=
  { capacity := simulatedCapacity, devices := roms.map fun rom => { rom } }

theorem attachAll_ok {line : SimulatedLine} {roms : List Rom}
    (room : line.devices.length + roms.length ≤ line.capacity) :
    (attachAll line roms).1 =
      .ok { line with devices := line.devices ++ roms.map fun rom => { rom } } := by
  induction roms generalizing line with
  | nil => rw [attachAll, List.map_nil, List.append_nil]
  | cons rom rest ih =>
      rw [List.length_cons] at room
      rw [attachAll, SimulatedLine.attach?, if_pos (by omega)]
      dsimp only
      rw [ih, List.append_assoc]
      · rfl
      · simp only [List.length_append, List.length_singleton]
        omega

theorem reachable_attachAll {line after : SimulatedLine} {roms : List Rom}
    (reachable : line.Reachable) (attached : (attachAll line roms).1 = .ok after) :
    after.Reachable := by
  induction roms generalizing line with
  | nil =>
      cases attached
      exact reachable
  | cons rom rest ih =>
      rw [attachAll] at attached
      cases room : line.attach? { rom } with
      | none =>
          rw [room] at attached
          cases attached
      | some grown =>
          rw [room] at attached
          exact ih (reachable.attach (Device.isNew_of_rom rom false) room) attached

theorem codes_populated (roms : List Rom) :
    Search.Kind.normal.codes (populated roms).devices = roms := by
  have everyone : (populated roms).devices.filter Search.Kind.normal.includes =
      roms.map fun rom => { rom } := List.filter_eq_self.mpr fun _ _ => rfl
  rw [Search.Kind.codes, everyone, List.map_map]
  exact List.map_id roms

theorem value_onLine {samplePoint : Nat} {command : Command} (reachable : line.Reachable)
    (free : line.stuckLow = false) (late : line.latency < samplePoint)
    (early : samplePoint < line.latency + Device.zeroLow)
    (begins : Bus.BeginsWithReset (command.onBus (ε := ε))) :
    ((command.onLine (ε := ε) samplePoint).run SimulatedLine.answer line).value =
      (Program.eval (Wire.answer (ε := ε)) command.onBus line.letGo.wire).1 := by
  have built := SimulatedLine.eval_build (ε := ε) samplePoint line
  rw [if_neg (Nat.not_le_of_lt late)] at built
  have drives := Master.Drives.built reachable early built
  have still_free : line.letGo.stuckLow = false :=
    (SimulatedLine.stuckLow_answer (ε := ε) .release line).trans free
  rw [← (drives.released.eval_wire still_free drives.standard command.onBus begins).1]
  change (Program.eval SimulatedLine.answer (command.onLine samplePoint) line).1 = _
  rw [Task.eval] at built
  rw [onLine, Program.bind_eq_bind, Program.eval_bind, built]
  exact congrArg Prod.fst (Program.eval_through _ _ _ _)

/-- A scan of at most sixteen simulated devices succeeds and writes one line for each distinct code
that it was asked for, in the order of the search. -/
theorem scan_writes {samplePoint : Nat} {roms : List Rom} (few : roms.length ≤ simulatedCapacity)
    (families : ∀ rom ∈ roms, rom.family ≠ 0) (valid : ∀ rom ∈ roms, rom.isValid = true)
    (late : 1 < samplePoint) (early : samplePoint < 31) (wanted : Option UInt8) :
    (onSimulated (ε := ε) roms samplePoint (.scan wanted false)).1 =
      ⟨String.join ((scanned roms wanted).map fun rom => String.ofList rom.spelling ++ "\n"),
        .done⟩ := by
  have attached := @attachAll_ok { capacity := simulatedCapacity } roms (by simpa using few)
  have reachable : (populated roms).Reachable := reachable_attachAll (.empty _) attached
  have taking : Search.Kind.normal.codes (populated roms).letGo.wire.devices = roms :=
    ((populated roms).codes_wire_letGo .normal).trans (codes_populated roms)
  have enough : (scanned roms wanted).length < Search.passLimit :=
    lt_of_le_of_lt (length_scanned_le roms wanted) (Search.length_inOrder_lt families)
  have value := @value_onLine ε (populated roms) samplePoint (.scan wanted false) reachable rfl late
    early (beginsWithReset_scanBus wanted false)
  have written := eval_scanBus (ε := ε) (Search.yields_scanStart taking families valid wanted) enough
  have lines : codeLine = fun rom => String.ofList rom.spelling ++ "\n" :=
    funext fun rom => congrArg (· ++ "\n") rom.text_eq
  rw [lines] at written
  rcases run : attachAll { capacity := simulatedCapacity } roms with ⟨outcome, events⟩
  rw [run] at attached
  obtain rfl : outcome = .ok (populated roms) := attached
  rw [onSimulated, simulatedBus, run]
  exact value.trans written

theorem scan_writes_family_zero :
    let rom : Rom := ⟨0x0a00000000000101⟩
    (onSimulated (ε := Empty) [rom] 13 (.scan (some 0) false)).1 =
      ⟨"010100000000000a\n", .done⟩ := by
  intro rom
  have families : ∀ code ∈ [rom], code.family ≠ 0 := by decide +kernel
  have valid : ∀ code ∈ [rom], code.isValid = true := by decide +kernel
  have alone : Rom.inOrder [rom] = [rom] := Rom.inOrder_eq (by decide +kernel) fun _ => Iff.rfl
  rw [scan_writes (by decide) families valid (by decide) (by decide), scanned, if_pos rfl, alone]
  decide +kernel

end Command

end SingleWire
