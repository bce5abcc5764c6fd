import SingleWire.Proofs.Search.Passes

/-!
A search that is not for one family goes through the codes of those that take part in their order:
wherever it stands, its next pass ends on the first code ahead, and with none ahead it is exhausted.
-/

namespace SingleWire

variable {line after : SimulatedLine} {master : Master}

theorem SimulatedLine.codes_of_natures (same : after.natures = line.natures) (kind : Search.Kind) :
    kind.codes after.devices = kind.codes line.devices := by
  calc
    kind.codes after.devices = kind.codes after.natures := (kind.codes_nature _).symm
    _ = kind.codes line.natures := congrArg kind.codes same
    _ = kind.codes line.devices := kind.codes_nature _

theorem Master.Keeps.codes (keeps : master.Keeps line after) (kind : Search.Kind) :
    kind.codes after.devices = kind.codes line.devices :=
  SimulatedLine.codes_of_natures keeps.natures kind

theorem SimulatedLine.codes_wire (line : SimulatedLine) (kind : Search.Kind) :
    kind.codes line.wire.devices = kind.codes line.devices := by
  have same : line.wire.natures = line.natures := line.map_wire fun _ => rfl
  calc
    kind.codes line.wire.devices = kind.codes line.wire.natures := (kind.codes_nature _).symm
    _ = kind.codes line.natures := congrArg kind.codes same
    _ = kind.codes line.devices := kind.codes_nature _

theorem SimulatedLine.codes_wire_letGo (line : SimulatedLine) (kind : Search.Kind) :
    kind.codes line.letGo.wire.devices = kind.codes line.devices :=
  (codes_wire line.letGo kind).trans (codes_of_natures (natures_letGo line) kind)

namespace Search

def ahead (codes : List Rom) (latest : Option Rom) : List Rom :=
  (Rom.inOrder codes).filter fun code => latest.all fun last => decide (last.order < code.order)

def verdict {ε : Type} (code : Rom) : Except (BusError ε) (Option Rom) :=
  if code.isValid then .ok (some code) else .error .invalidCrc

/-- Where a search that is not for one family stands: at the start, or at the code that its latest
pass ended on. -/
inductive Stands (codes : List Rom) (state : State) : Option Rom → Prop
  | start (untargeted : state.family = 0) (more : state.exhausted = false)
      (fresh : state.discrepancy = 0) : Stands codes state none
  | behind (untargeted : state.family = 0) (member : state.rom ∈ codes)
      (left : state.discrepancy = lastZero codes state.rom 64)
      (more : state.exhausted = (state.discrepancy == 0)) : Stands codes state (some state.rom)

variable {ε σ : Type} {codes rest : List Rom} {latest : Option Rom} {code : Rom} {state : State}
  {wire : Wire}

theorem mem_ahead :
    code ∈ ahead codes latest ↔ code ∈ codes ∧ ∀ last ∈ latest, last.order < code.order := by
  cases latest <;> simp [ahead]

theorem ahead_pairwise (codes : List Rom) (latest : Option Rom) :
    (ahead codes latest).Pairwise fun left right => left.order < right.order :=
  (Rom.inOrder_pairwise codes).filter _

theorem ahead_none (codes : List Rom) : ahead codes none = Rom.inOrder codes := by
  simp [ahead]

theorem first_ahead (first : ahead codes latest = code :: rest) :
    code ∈ codes ∧ (∀ last ∈ latest, last.order < code.order) ∧
      ∀ other ∈ codes, (∀ last ∈ latest, last.order < other.order) →
        other = code ∨ code.order < other.order := by
  have here := mem_ahead.mp (first ▸ List.mem_cons_self : code ∈ ahead codes latest)
  have sorted := ahead_pairwise codes latest
  rw [first] at sorted
  refine ⟨here.1, here.2, ?_⟩
  intro other member later
  have listed : other ∈ code :: rest := first ▸ mem_ahead.mpr ⟨member, later⟩
  rcases List.mem_cons.mp listed with same | behind
  · exact .inl same
  · exact .inr (List.rel_of_pairwise_cons sorted behind)

theorem ahead_tail (first : ahead codes latest = code :: rest) : ahead codes (some code) = rest := by
  have later : ahead codes (some code) =
      (ahead codes latest).filter fun other => decide (code.order < other.order) := by
    rw [ahead, ahead, List.filter_filter]
    apply List.filter_congr
    intro other _
    cases latest with
    | none => simp
    | some last =>
        have before := (first_ahead first).2.1 last rfl
        simp only [Option.all_some]
        by_cases behind : code.order < other.order
        · simp [behind, before.trans behind]
        · simp [behind]
  have sorted := ahead_pairwise codes latest
  rw [first] at sorted
  rw [later, first, List.filter_cons_of_neg (by simp)]
  apply List.filter_eq_self.mpr
  intro other behind
  exact decide_eq_true (List.rel_of_pairwise_cons sorted behind)

theorem ahead_eq_nil_iff :
    ahead codes (some code) = [] ↔ ∀ other ∈ codes, ¬ code.precedes other 64 := by
  rw [List.eq_nil_iff_forall_not_mem]
  constructor
  · intro none other member later
    exact none other (mem_ahead.mpr ⟨member, by simpa using Rom.order_lt_iff.mpr later⟩)
  · intro none other later
    obtain ⟨member, behind⟩ := mem_ahead.mp later
    exact none other member (Rom.order_lt_iff.mp (behind code rfl))

theorem Stands.exhausted_iff (stands : Stands codes state (some code)) :
    state.exhausted = true ↔ ahead codes (some code) = [] := by
  cases stands with
  | behind untargeted member left more =>
      rw [more, beq_iff_eq, left, lastZero_eq_zero_iff, ahead_eq_nil_iff]

theorem Stands.more (stands : Stands codes state latest) (first : ahead codes latest = code :: rest) :
    state.exhausted = false := by
  cases stands with
  | start _ more _ => exact more
  | behind untargeted stood left more =>
      rw [← Bool.not_eq_true, (Stands.behind untargeted stood left more).exhausted_iff, first]
      exact List.cons_ne_nil code rest

/-- The descent from where a search stands ends on the first code ahead. -/
theorem Stands.led (stands : Stands codes state latest) {path : Rom}
    (led : Led codes (steering state.rom state.discrepancy) path 64)
    (first : ahead codes latest = code :: rest) : path = code := by
  obtain ⟨member, later, least⟩ := first_ahead first
  have reached : (∀ last ∈ latest, last.order < path.order) ∧
      (path = code ∨ path.precedes code 64) := by
    cases stands with
    | start untargeted more fresh =>
        rw [fresh] at led
        exact ⟨fun last none => (Option.not_mem_none last none).elim, led.first member⟩
    | behind untargeted stood left more =>
        have open_branch : lastZero codes state.rom 64 ≠ 0 := by
          intro closed
          exact lastZero_eq_zero_iff.mp closed code member
            (Rom.order_lt_iff.mp (later state.rom rfl))
        rw [left] at led
        obtain ⟨beyond, lowest⟩ := led.next stood (Nat.le_refl 64) open_branch
        constructor
        · intro last same
          cases same
          exact Rom.order_lt_iff.mpr beyond
        · exact lowest code member (Rom.order_lt_iff.mp (later state.rom rfl))
  rcases reached.2 with same | before
  · exact same
  · rcases least path led.mem reached.1 with same | behind
    · exact same
    · exact absurd (behind.trans (Rom.order_lt_iff.mpr before)) (lt_irrefl _)

theorem Stands.landed (untargeted : state.family = 0) (member : code ∈ codes) :
    Stands codes (state.landed codes code) (some code) :=
  @Stands.behind codes (state.landed codes code) untargeted member rfl rfl

theorem kind_restart (state : State) : state.restart.kind = state.kind := by
  unfold State.restart
  split <;> rfl

theorem family_restart (state : State) : state.restart.family = state.family := by
  unfold State.restart
  split
  · rename_i none
    exact none.symm
  · rfl

theorem Stands.restart (untargeted : state.family = 0) : Stands codes state.restart none := by
  rw [State.restart, if_pos untargeted]
  exact .start rfl rfl rfl

theorem Stands.rom_mem (stands : Stands codes state (some code)) : state.rom = code ∧ code ∈ codes := by
  cases stands with
  | behind _ member _ _ => exact ⟨rfl, member⟩

theorem Stands.untargeted (stands : Stands codes state latest) : state.family = 0 := by
  cases stands with
  | start untargeted _ _ => exact untargeted
  | behind untargeted _ _ _ => exact untargeted

section

variable {handle : Handler (Bus.interface ε) σ} {bus : σ}

theorem eval_judge_family (family : code.family ≠ 0) :
    eval handle (judge code) state bus =
      if code.isValid then
        if state.family ≠ 0 ∧ code.family ≠ state.family then
          (.ok none, { state with exhausted := true }, bus)
        else (.ok (some code), state, bus)
      else (.error .invalidCrc, state, bus) := by
  simp only [judge, eval_bind, eval_get, family, if_false]
  cases code.isValid with
  | false => simp only [Bool.not_false, if_true, Bool.false_eq_true, if_false, eval_bind, eval_emit, eval_throw]
  | true =>
      simp only [Bool.not_true, Bool.false_eq_true, if_false, if_true]
      split
      · simp only [eval_bind, eval_set, eval_pure]
      · simp only [eval_bind, eval_emit, eval_pure]

theorem eval_judge (untargeted : state.family = 0) (family : code.family ≠ 0) :
    eval handle (judge code) state bus = (verdict code, state, bus) := by
  have all : ¬ (state.family ≠ 0 ∧ code.family ≠ state.family) :=
    fun targeted => targeted.1 untargeted
  rw [eval_judge_family family, if_neg all, verdict]
  split <;> rfl

theorem eval_next_exhausted (exhausted : state.exhausted = true) :
    eval handle next state bus = (.ok none, state, bus) := by
  simp only [next, eval_bind, eval_get, exhausted, if_true, eval_pure]

theorem eval_next_passed {path : Rom} {after : State} {line : σ} (more : state.exhausted = false)
    (passed : eval handle pass state bus = (.ok path, after, line)) :
    eval handle next state bus = eval handle (judge path) after line := by
  simp only [next, eval_bind, eval_get, more, Bool.false_eq_true, if_false, eval_attempt, passed]

theorem eval_next_unanswered {error : BusError ε} {line : σ} (more : state.exhausted = false)
    (ends : error = .noDevicePresent ∨ error = .busCollision)
    (passed : eval handle pass state bus = (.error error, state, line)) :
    eval handle next state bus = (.ok none, state.restart, line) := by
  rcases ends with rfl | rfl
  all_goals
    simp only [next, eval_bind, eval_get, more, Bool.false_eq_true, if_false, eval_attempt, passed,
      eval_emit, eval_modify, eval_pure]

end

theorem eval_next_nobody (more : state.exhausted = false)
    (nobody : state.kind.codes wire.devices = []) :
    ∃ after, eval (Wire.answer (ε := ε)) next state wire = (.ok none, state.restart, after) ∧
      after.natures = wire.natures := by
  obtain ⟨error, after, ends, passed, natures⟩ := eval_pass_nobody (ε := ε) nobody
  exact ⟨after, eval_next_unanswered more ends passed, natures⟩

theorem eval_next_led (taking : state.kind.codes wire.devices = codes)
    (untargeted : state.family = 0) (more : state.exhausted = false) (someone : codes ≠ [])
    (family : ∀ path, Led codes (steering state.rom state.discrepancy) path 64 → path.family ≠ 0) :
    ∃ path after, eval (Wire.answer (ε := ε)) next state wire =
        (verdict path, state.landed codes path, after) ∧
      Led codes (steering state.rom state.discrepancy) path 64 ∧
      after.natures = wire.natures ∧ after.slots = wire.slots + 200 ∧
      after.resets = wire.resets + 1 := by
  subst taking
  obtain ⟨path, after, passed, led, kept⟩ := @eval_pass ε state wire someone
  refine ⟨path, after, ?_, led, kept⟩
  rw [eval_next_passed more passed]
  exact eval_judge untargeted (family path led)

section

variable (taking : state.kind.codes wire.devices = codes)
include taking

theorem Stands.eval_next (stands : Stands codes state latest)
    (families : ∀ code ∈ codes, code.family ≠ 0) (first : ahead codes latest = code :: rest) :
    ∃ after, eval (Wire.answer (ε := ε)) next state wire =
        (verdict code, state.landed codes code, after) ∧
      after.natures = wire.natures ∧ after.slots = wire.slots + 200 ∧
      after.resets = wire.resets + 1 := by
  obtain ⟨path, after, passed, led, kept⟩ :=
    eval_next_led (ε := ε) taking stands.untargeted (stands.more first)
      (List.ne_nil_of_mem (first_ahead first).1) fun path led => families path led.mem
  obtain rfl := stands.led led first
  exact ⟨after, passed, kept⟩

theorem Stands.eval_next_none (stands : Stands codes state latest) (none : ahead codes latest = []) :
    ∃ after bus, eval (Wire.answer (ε := ε)) next state wire = (.ok .none, after, bus) ∧
      bus.natures = wire.natures ∧ after.kind = state.kind ∧ Stands codes after latest := by
  cases stands with
  | start untargeted more fresh =>
      have nobody : codes = [] := by
        rw [List.eq_nil_iff_forall_not_mem]
        intro code member
        have listed : code ∈ ahead codes .none :=
          mem_ahead.mpr ⟨member, fun last absent => (Option.not_mem_none last absent).elim⟩
        rw [none] at listed
        exact List.not_mem_nil listed
      obtain ⟨bus, ended, natures⟩ := eval_next_nobody (ε := ε) more (taking.trans nobody)
      refine ⟨state.restart, bus, ended, natures, ?_, Stands.restart untargeted⟩
      rw [State.restart, if_pos untargeted]
      rfl
  | behind untargeted stood left more =>
      have stands := Stands.behind untargeted stood left more
      exact ⟨state, wire, eval_next_exhausted (stands.exhausted_iff.mpr none), rfl, rfl, stands⟩

end

section

variable (drives : master.Drives line) (free : line.stuckLow = false)
  (taking : state.kind.codes line.devices = codes)
include drives free taking

theorem perform_next_led (untargeted : state.family = 0) (more : state.exhausted = false)
    (someone : codes ≠ [])
    (family : ∀ path, Led codes (steering state.rom state.discrepancy) path 64 → path.family ≠ 0) :
    ∃ path after, perform (ε := ε) master next state line =
        (verdict path, state.landed codes path, after) ∧
      Led codes (steering state.rom state.discrepancy) path 64 ∧
      master.Keeps line after ∧ after.slots = line.slots + 200 ∧
      after.resets = line.resets + 1 := by
  obtain ⟨after, performed, same, keeps⟩ :=
    perform_wire drives free (beginsWithReset_next (ε := ε)) state
  obtain ⟨path, bus, passed, led, -, slots, resets⟩ :=
    eval_next_led (ε := ε) ((line.codes_wire state.kind).trans taking) untargeted more someone
      family
  rw [passed] at performed same
  dsimp only at performed same
  rw [← same, SimulatedLine.slots_wire, SimulatedLine.slots_wire] at slots
  rw [← same, SimulatedLine.resets_wire, SimulatedLine.resets_wire] at resets
  exact ⟨path, after, performed, led, keeps, slots, resets⟩

theorem Stands.perform_next (families : ∀ code ∈ codes, code.family ≠ 0)
    (stands : Stands codes state latest) (first : ahead codes latest = code :: rest) :
    ∃ after, perform (ε := ε) master next state line =
        (verdict code, state.landed codes code, after) ∧
      master.Keeps line after ∧ after.slots = line.slots + 200 ∧
      after.resets = line.resets + 1 := by
  obtain ⟨path, after, performed, led, kept⟩ :=
    perform_next_led (ε := ε) drives free taking stands.untargeted (stands.more first)
      (List.ne_nil_of_mem (first_ahead first).1) fun path led => families path led.mem
  obtain rfl := stands.led led first
  exact ⟨after, performed, kept⟩

end

theorem perform_next_exhausted (exhausted : state.exhausted = true) (line : SimulatedLine) :
    perform (ε := ε) master next state line = (.ok none, state, line) := by
  rw [perform_eq_eval]
  exact eval_next_exhausted exhausted

theorem perform_next_nobody (drives : master.Drives line) (free : line.stuckLow = false)
    (nobody : state.kind.codes line.devices = []) (more : state.exhausted = false) :
    ∃ after, perform (ε := ε) master next state line = (.ok none, state.restart, after) ∧
      master.Keeps line after := by
  obtain ⟨after, performed, -, keeps⟩ :=
    perform_wire drives free (beginsWithReset_next (ε := ε)) state
  obtain ⟨bus, ended, -⟩ :=
    eval_next_nobody (ε := ε) more ((line.codes_wire state.kind).trans nobody)
  rw [ended] at performed
  exact ⟨after, performed, keeps⟩

end Search

end SingleWire
