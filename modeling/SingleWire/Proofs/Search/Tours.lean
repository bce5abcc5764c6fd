import SingleWire.Proofs.Search.Skipping

namespace SingleWire.Search

variable {ε : Type} {codes : List Rom} {code : Rom} {state : State}
  {start line : SimulatedLine} {master : Master}

inductive Entry (ε : Type)
  | returned (outcome : Except (BusError ε) (Option Rom))
  | skipped

@[match_pattern] def Entry.found (code : Rom) : Entry ε := .returned (.ok (some code))

def Entry.code? : Entry ε → Option Rom
  | .found code => some code
  | _ => none

def foundCodes (trace : List (Entry ε)) : List Rom := trace.filterMap Entry.code?

/-- A run on a fresh search: calls for the next device, the first of them before any skip. What
happened stands with the latest first. -/
inductive Tour (ε : Type) (master : Master) (start : SimulatedLine) :
    List (Entry ε) → State → SimulatedLine → Prop
  | begin : Tour ε master start [] (State.fresh .normal) start
  | call {trace : List (Entry ε)} {state : State} {line : SimulatedLine} :
      Tour ε master start trace state line →
      Tour ε master start (.returned (perform master next state line).1 :: trace)
        (perform (ε := ε) master next state line).2.1
        (perform (ε := ε) master next state line).2.2
  | skip {entry : Entry ε} {trace : List (Entry ε)} {state : State} {line : SimulatedLine} :
      Tour ε master start (entry :: trace) state line →
      Tour ε master start (.skipped :: entry :: trace) state.skipFamily line

/-- The family was entered by a call right after one that returned a code of another family. -/
def walkedInto (family : UInt8) : List (Entry ε) → Bool
  | .found code :: earlier => if code.family = family then walkedInto family earlier else true
  | _ => false

/-- What a run has come to, as far as it decides what the next call returns. -/
inductive Place
  | begun
  | found (code : Rom) (walked : Bool)
  | skipped (code : Rom) (walked : Bool)
  | ended

def place : List (Entry ε) → Place
  | [] => .begun
  | .found code :: earlier => .found code (walkedInto code.family earlier)
  | .skipped :: .found code :: earlier => .skipped code (walkedInto code.family earlier)
  | _ => .ended

def Place.upcoming (codes : List Rom) : Place → Option Rom
  | .begun => (ahead codes none).head?
  | .found code _ => (ahead codes (some code)).head?
  | .skipped code walked => afterSkip codes code walked
  | .ended => none

def Standing (codes : List Rom) (state : State) : Place → Prop
  | .begun => state = State.fresh .normal
  | .found code walked => Noted codes state code walked
  | .skipped code walked => ∃ before, Noted codes before code walked ∧ state = before.skipFamily
  | .ended => state.exhausted = true ∨ codes = []

structure Tour.Holds (master : Master) (start : SimulatedLine) (codes : List Rom)
    (trace : List (Entry ε)) (state : State) (line : SimulatedLine) : Prop where
  keeps : master.Keeps start line
  kind : state.kind = .normal
  standing : Standing codes state (place trace)

def Tour.Answers (ε : Type) (master : Master) (start : SimulatedLine) (codes : List Rom)
    (trace : List (Entry ε)) (state : State) (line : SimulatedLine) (answer : Option Rom) : Prop :=
  ∃ after bus, perform (ε := ε) master next state line = (.ok answer, after, bus) ∧
    Tour.Holds master start codes (.returned (.ok answer) :: trace) after bus

variable {trace : List (Entry ε)} {family : UInt8}

theorem walkedInto_eq (trace : List (Entry ε)) (family : UInt8) :
    walkedInto family trace =
      match place trace with
      | .found code walked => if code.family = family then walked else true
      | _ => false := by
  rcases trace with - | ⟨(- | - | code) | -, earlier⟩
  · rfl
  · rfl
  · rfl
  · change (if code.family = family then walkedInto family earlier else true) =
      if code.family = family then walkedInto code.family earlier else true
    split
    · rename_i same
      rw [same]
    · rfl
  · rcases earlier with - | ⟨(- | - | code) | -, earlier⟩ <;> rfl

theorem Tour.Holds.lands {after : SimulatedLine}
    (holds : Tour.Holds master start codes trace state line) (valid : code.isValid = true)
    (performed : perform (ε := ε) master next state line =
      (verdict code, state.landed codes code, after))
    (keeps : master.Keeps line after)
    (noted : Noted codes (state.landed codes code) code (walkedInto code.family trace)) :
    Tour.Answers ε master start codes trace state line (some code) := by
  rw [verdict, if_pos valid] at performed
  exact ⟨_, after, performed, holds.keeps.trans keeps, holds.kind, noted⟩

theorem ahead_none_eq_nil_iff : ahead codes none = [] ↔ codes = [] := by
  rw [List.eq_nil_iff_forall_not_mem, List.eq_nil_iff_forall_not_mem]
  simp [mem_ahead]

section

variable (free : start.stuckLow = false) (taking : Kind.normal.codes start.devices = codes)
include taking

theorem Tour.Holds.attached (holds : Tour.Holds master start codes trace state line) :
    state.kind.codes line.devices = codes := by
  rw [holds.kind, holds.keeps.codes, taking]

include free

theorem Tour.Holds.ends (holds : Tour.Holds master start codes trace state line)
    (ended : state.exhausted = true ∨ codes = []) :
    Tour.Answers ε master start codes trace state line none := by
  cases more : state.exhausted with
  | true =>
      exact ⟨state, line, perform_next_exhausted more line, holds.keeps, holds.kind, .inl more⟩
  | false =>
      rw [more] at ended
      have nobody : codes = [] := ended.resolve_left Bool.false_ne_true
      obtain ⟨bus, performed, keeps⟩ :=
        perform_next_nobody (ε := ε) holds.keeps.drives (holds.keeps.stuckLow.trans free)
          ((holds.attached taking).trans nobody) more
      refine ⟨state.restart, bus, performed, holds.keeps.trans keeps, ?_, .inr nobody⟩
      rw [kind_restart, holds.kind]

end

section

variable (free : start.stuckLow = false) (taking : Kind.normal.codes start.devices = codes)
  (families : ∀ code ∈ codes, code.family ≠ 0) (valid : ∀ code ∈ codes, code.isValid = true)
include free taking families valid

theorem Tour.Holds.call_begun (holds : Tour.Holds master start codes trace state line)
    (begun : place trace = .begun) :
    Tour.Answers ε master start codes trace state line (ahead codes none).head? := by
  have fresh : state = State.fresh .normal := by
    have standing := holds.standing
    rwa [begun] at standing
  cases first : ahead codes none with
  | nil => exact holds.ends free taking (.inr (ahead_none_eq_nil_iff.mp first))
  | cons code rest =>
      have member := (first_ahead first).1
      have stands : Stands codes state none := by
        rw [fresh]
        exact .start rfl rfl rfl
      obtain ⟨bus, performed, keeps, -⟩ :=
        stands.perform_next (ε := ε) holds.keeps.drives (holds.keeps.stuckLow.trans free)
          (holds.attached taking) families first
      refine holds.lands (valid code member) performed keeps ?_
      rw [walkedInto_eq, begun]
      exact Noted.first stands.untargeted member (by rw [fresh]; rfl)

theorem Tour.Holds.call_found {walked : Bool}
    (holds : Tour.Holds master start codes trace state line)
    (found : place trace = .found code walked) :
    Tour.Answers ε master start codes trace state line (ahead codes (some code)).head? := by
  have noted : Noted codes state code walked := by
    have standing := holds.standing
    rwa [found] at standing
  cases first : ahead codes (some code) with
  | nil => exact holds.ends free taking (.inl (noted.stands.exhausted_iff.mpr first))
  | cons other rest =>
      obtain ⟨bus, performed, keeps, -⟩ :=
        noted.stands.perform_next (ε := ε) holds.keeps.drives (holds.keeps.stuckLow.trans free)
          (holds.attached taking) families first
      refine holds.lands (valid other (first_ahead first).1) performed keeps ?_
      rw [walkedInto_eq, found]
      exact noted.next first

theorem Tour.Holds.call_skipped {walked : Bool}
    (holds : Tour.Holds master start codes trace state line)
    (skipped : place trace = .skipped code walked) :
    Tour.Answers ε master start codes trace state line (afterSkip codes code walked) := by
  obtain ⟨before, noted, rfl⟩ :
      ∃ before, Noted codes before code walked ∧ state = before.skipFamily := by
    have standing := holds.standing
    rwa [skipped] at standing
  have leads := noted.skip
  cases following : afterSkip codes code walked with
  | none =>
      rw [following] at leads
      exact holds.ends free taking (.inl leads)
  | some other =>
      rw [following] at leads
      obtain ⟨path, bus, performed, led, keeps, -⟩ :=
        perform_next_led (ε := ε) holds.keeps.drives (holds.keeps.stuckLow.trans free)
          (holds.attached taking) rfl leads.1 (List.ne_nil_of_mem noted.stands.rom_mem.2)
          fun path led => families path led.mem
      obtain rfl := leads.2 path led
      refine holds.lands (valid path led.mem) performed keeps ?_
      rw [walkedInto_eq, skipped]
      exact Noted.first rfl led.mem rfl

theorem Tour.Holds.call (holds : Tour.Holds master start codes trace state line) :
    Tour.Answers ε master start codes trace state line ((place trace).upcoming codes) := by
  cases here : place trace with
  | begun => exact holds.call_begun free taking families valid here
  | found code walked => exact holds.call_found free taking families valid here
  | skipped code walked => exact holds.call_skipped free taking families valid here
  | ended =>
      have standing := holds.standing
      rw [here] at standing
      exact holds.ends free taking standing

end

theorem Standing.ended_skipFamily (ended : Standing codes state .ended) :
    Standing codes state.skipFamily .ended := by
  apply ended.imp_left
  intro exhausted
  rw [exhausted_skipFamily, exhausted, Bool.true_or]

theorem exhausted_skipFamily_twice (state : State) : state.skipFamily.skipFamily.exhausted = true :=
  Bool.or_true _

theorem Tour.Holds.skip {entry : Entry ε}
    (holds : Tour.Holds master start codes (entry :: trace) state line) :
    Tour.Holds master start codes (.skipped :: entry :: trace) state.skipFamily line := by
  refine ⟨holds.keeps, holds.kind, ?_⟩
  have standing := holds.standing
  rcases entry with (error | - | code) | -
  · exact standing.ended_skipFamily
  · exact standing.ended_skipFamily
  · exact ⟨state, standing, rfl⟩
  · rcases trace with - | ⟨(error | - | code) | -, earlier⟩
    · exact standing.ended_skipFamily
    · exact standing.ended_skipFamily
    · exact standing.ended_skipFamily
    · obtain ⟨before, noted, rfl⟩ := standing
      exact .inl (exhausted_skipFamily_twice before)
    · exact standing.ended_skipFamily

section

variable (drives : master.Drives start) (free : start.stuckLow = false)
  (families : ∀ code ∈ Kind.normal.codes start.devices, code.family ≠ 0)
  (valid : ∀ code ∈ Kind.normal.codes start.devices, code.isValid = true)
include drives free families valid

theorem Tour.holds (tour : Tour ε master start trace state line) :
    Tour.Holds master start (Kind.normal.codes start.devices) trace state line := by
  induction tour with
  | begin => exact ⟨⟨drives, rfl, rfl⟩, rfl, rfl⟩
  | call _ ih =>
      obtain ⟨after, bus, performed, holds⟩ := ih.call free rfl families valid
      rw [performed]
      exact holds
  | skip _ ih => exact ih.skip

theorem Tour.returned_eq {outcome : Except (BusError ε) (Option Rom)}
    (tour : Tour ε master start (.returned outcome :: trace) state line) :
    outcome = .ok ((place trace).upcoming (Kind.normal.codes start.devices)) := by
  cases tour with
  | call earlier =>
      obtain ⟨after, bus, performed, -⟩ :=
        (earlier.holds drives free families valid).call free rfl families valid
      rw [performed]

end

theorem Tour.tail {entry : Entry ε} (tour : Tour ε master start (entry :: trace) state line) :
    ∃ state line, Tour ε master start trace state line := by
  cases tour with
  | call earlier => exact ⟨_, _, earlier⟩
  | skip earlier => exact ⟨_, _, earlier⟩

end SingleWire.Search
