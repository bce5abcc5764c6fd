import SingleWire.Proofs.Checksum
import SingleWire.Proofs.Search.Enumeration

namespace SingleWire

namespace Rom

/-- The code whose first byte is a family and that has no other bit set. -/
def seed (family : UInt8) : Rom := ofBytes [family, 0, 0, 0, 0, 0, 0, 0]

theorem code_seed (family : UInt8) : (seed family).code = BitVec.ofNat 64 family.toNat := rfl

theorem family_seed (family : UInt8) : (seed family).family = family := by
  have small : family.toNat < 2 ^ 64 := Nat.lt_trans family.toNat_lt (by decide)
  rw [Rom.family, code_seed, BitVec.toNat_ofNat, Nat.mod_eq_of_lt small]
  simp

theorem bit_seed_behind (family : UInt8) {index : Nat} (behind : 8 ≤ index) :
    (seed family).bit index = false := by
  have small : family.toNat < 2 ^ index :=
    calc
      family.toNat < 2 ^ 8 := family.toNat_lt
      _ ≤ 2 ^ index := Nat.pow_le_pow_right (by decide) behind
  rw [bit, code_seed, BitVec.getLsbD_ofNat, Nat.testBit_lt_two_pow small, Bool.and_false]

end Rom

namespace Search

variable {ε σ : Type} {codes listed : List Rom} {latest : Option Rom} {code path : Rom}
  {state : State} {family : UInt8} {wire : Wire} {line : SimulatedLine} {master : Master}

def familyAhead (codes : List Rom) (latest : Option Rom) (family : UInt8) : List Rom :=
  (ahead codes latest).filter fun code => code.family == family

theorem mem_familyAhead :
    code ∈ familyAhead codes latest family ↔
      (code ∈ codes ∧ ∀ last ∈ latest, last.order < code.order) ∧ code.family = family := by
  rw [familyAhead, List.mem_filter, mem_ahead, beq_iff_eq]

theorem familyAhead_pairwise (codes : List Rom) (latest : Option Rom) (family : UInt8) :
    (familyAhead codes latest family).Pairwise fun left right => left.order < right.order :=
  (ahead_pairwise codes latest).filter _

theorem familyAhead_eq_cons (member : code ∈ codes) (later : ∀ last ∈ latest, last.order < code.order)
    (least : ∀ other ∈ familyAhead codes latest code.family,
      other = code ∨ code.order < other.order) :
    familyAhead codes latest code.family =
      code :: familyAhead codes (some code) code.family := by
  apply Rom.eq_of_ascending (familyAhead_pairwise codes latest code.family)
  · apply List.pairwise_cons.mpr
    refine ⟨?_, familyAhead_pairwise codes (some code) code.family⟩
    intro other behind
    exact (mem_familyAhead.mp behind).1.2 code rfl
  · intro other
    constructor
    · intro listed
      obtain ⟨⟨present, _⟩, inside⟩ := mem_familyAhead.mp listed
      rcases least other listed with same | behind
      · rw [same]
        exact List.mem_cons_self
      · apply List.mem_cons_of_mem
        apply mem_familyAhead.mpr
        exact ⟨⟨present, fun _ found => Option.some_inj.mp found ▸ behind⟩, inside⟩
    · intro listed
      rcases List.mem_cons.mp listed with same | behind
      · rw [same]
        exact mem_familyAhead.mpr ⟨⟨member, later⟩, rfl⟩
      · obtain ⟨⟨present, beyond⟩, inside⟩ := mem_familyAhead.mp behind
        apply mem_familyAhead.mpr
        exact ⟨⟨present, fun last found => (later last found).trans (beyond code rfl)⟩, inside⟩

theorem familyAhead_of_crossing {last : Rom} {rest : List Rom}
    (first : ahead codes (some last) = code :: rest) (other : code.family ≠ last.family) :
    familyAhead codes (some last) last.family = [] := by
  obtain ⟨_, later, least⟩ := first_ahead first
  apply List.eq_nil_iff_forall_not_mem.mpr
  intro candidate listed
  obtain ⟨⟨present, beyond⟩, inside⟩ := mem_familyAhead.mp listed
  rcases least candidate present beyond with same | behind
  · rw [same] at inside
    exact other inside
  · exact other (Rom.family_eq_of_between (later last rfl) behind inside.symm)

theorem Led.seeded_family (led : Led codes (steering (Rom.seed family) 64) path 64)
    (member : code ∈ codes) (inside : code.family = family) : path.family = family := by
  have along : code.agrees (Rom.seed family) 8 :=
    Rom.family_eq_iff.mp (by rw [inside, Rom.family_seed])
  have followed : code.agrees path 8 := by
    apply led.follows member (by decide)
    intro index early _
    rw [steering_before (by omega)]
    exact along index early
  rw [← Rom.family_eq_iff.mpr followed, inside]

theorem Led.least_behind {seed : Rom} {start : Nat} (led : Led codes (steering seed 64) path 64)
    (low : ∀ index ≥ start, seed.bit index = false)
    (valid : ∀ code ∈ codes, code.isValid = true) (member : code ∈ codes)
    (shared : code.agrees path start) : code = path ∨ path.order < code.order := by
  rcases Rom.exists_difference code path 64 with same | ⟨index, within, before, differ⟩
  · exact .inl (Rom.eq_of_agrees same)
  · have behind : start ≤ index := by
      by_contra early
      exact differ (shared index (by omega))
    have early : index < 56 := by
      by_contra late
      have same : code = path :=
        Rom.eq_of_isValid (valid code member) (valid path led.mem) (before.mono (by omega))
      exact differ (by rw [same])
    have zero : path.bit index = false := by
      rw [led.steered index within ⟨code, member, before, differ⟩, steering_before (by omega),
        low index behind]
    have one : code.bit index = true := by simpa [zero] using differ
    exact .inr (Rom.order_lt_iff.mpr ⟨index, within, before.symm, zero, one⟩)

theorem Led.seeded_least (led : Led codes (steering (Rom.seed family) 64) path 64)
    (valid : ∀ code ∈ codes, code.isValid = true) (reached : path.family = family)
    (member : code ∈ codes) (inside : code.family = family) :
    code = path ∨ path.order < code.order :=
  led.least_behind (fun _ behind => Rom.bit_seed_behind family behind) valid member
    (Rom.family_eq_iff.mp (inside.trans reached.symm))

/-- What a search for one family has left to find: before its first pass all of the family, then
those behind the code found last, and nothing once it is exhausted. -/
inductive Seeks (codes : List Rom) (state : State) : List Rom → Prop
  | seeded (more : state.exhausted = false) (far : state.discrepancy = 64)
      (seed : state.rom = Rom.seed state.family) :
      Seeks codes state (familyAhead codes none state.family)
  | behind {last : Rom} (stands : Stands codes { state with family := 0 } (some last))
      (inside : last.family = state.family) :
      Seeks codes state (familyAhead codes (some last) state.family)
  | finished (exhausted : state.exhausted = true) : Seeks codes state []

theorem seeks_ofFamily (codes : List Rom) (kind : Kind) (family : UInt8) :
    Seeks codes (State.ofFamily kind family) (familyAhead codes none family) :=
  @Seeks.seeded codes (State.ofFamily kind family) rfl rfl rfl

theorem Seeks.eq_nil_of_exhausted (seeks : Seeks codes state listed)
    (exhausted : state.exhausted = true) : listed = [] := by
  cases seeks with
  | seeded more _ _ =>
      rw [exhausted] at more
      cases more
  | behind stands _ => rw [familyAhead, stands.exhausted_iff.mp exhausted, List.filter_nil]
  | finished _ => rfl

/-- A pass ends on the first code left to find, or outside the family if there is none. -/
theorem Seeks.lands (seeks : Seeks codes state listed) (more : state.exhausted = false)
    (led : Led codes (steering state.rom state.discrepancy) path 64)
    (valid : ∀ code ∈ codes, code.isValid = true) :
    (path.family = state.family → listed = path :: familyAhead codes (some path) state.family) ∧
      (path.family ≠ state.family → listed = []) := by
  cases seeks with
  | seeded _ far seed =>
      rw [far, seed] at led
      constructor
      · intro reached
        rw [← reached]
        apply familyAhead_eq_cons led.mem fun last none => (Option.not_mem_none last none).elim
        intro other listed
        obtain ⟨⟨present, _⟩, inside⟩ := mem_familyAhead.mp listed
        exact led.seeded_least valid reached present (inside.trans reached)
      · intro missed
        apply List.eq_nil_iff_forall_not_mem.mpr
        intro other listed
        obtain ⟨⟨present, _⟩, inside⟩ := mem_familyAhead.mp listed
        exact missed (led.seeded_family present inside)
  | @behind last stands inside =>
      have open_end : ahead codes (some last) ≠ [] := by
        rw [ne_eq, ← stands.exhausted_iff, more]
        exact Bool.false_ne_true
      obtain ⟨code, rest, first⟩ := List.exists_cons_of_ne_nil open_end
      obtain rfl : path = code := stands.led led first
      obtain ⟨member, later, least⟩ := first_ahead first
      constructor
      · intro reached
        rw [← reached]
        apply familyAhead_eq_cons member later
        intro other listed
        obtain ⟨⟨present, beyond⟩, _⟩ := mem_familyAhead.mp listed
        exact least other present beyond
      · intro missed
        rw [← inside] at missed ⊢
        exact familyAhead_of_crossing first missed
  | finished exhausted =>
      rw [more] at exhausted
      cases exhausted

section

variable {handle : Handler (Bus.interface ε) σ} {bus : σ}

theorem eval_judge_targeted (targeted : state.family ≠ 0) (family : code.family ≠ 0)
    (valid : code.isValid = true) :
    eval handle (judge code) state bus =
      if code.family = state.family then (.ok (some code), state, bus)
      else (.ok none, { state with exhausted := true }, bus) := by
  rw [eval_judge_family family, if_pos valid]
  by_cases inside : code.family = state.family
  · rw [if_neg fun outside => outside.2 inside, if_pos inside]
  · rw [if_pos ⟨targeted, inside⟩, if_neg inside]

end

structure Retains (state after : State) (wire bus : Wire) : Prop where
  kind : after.kind = state.kind
  family : after.family = state.family
  natures : bus.natures = wire.natures

section

variable (targeted : state.family ≠ 0) (someone : codes ≠ [])
  (families : ∀ code ∈ codes, code.family ≠ 0) (valid : ∀ code ∈ codes, code.isValid = true)
include targeted someone families valid

theorem Seeks.eval_next (seeks : Seeks codes state listed)
    (taking : state.kind.codes wire.devices = codes) :
    ∃ after bus, eval (Wire.answer (ε := ε)) next state wire = (.ok listed.head?, after, bus) ∧
      Seeks codes after listed.tail ∧ (listed = [] → after.exhausted = true) ∧
      Retains state after wire bus := by
  cases more : state.exhausted with
  | true =>
      rw [seeks.eq_nil_of_exhausted more]
      exact ⟨state, wire, eval_next_exhausted more, .finished more, fun _ => more, rfl, rfl, rfl⟩
  | false =>
      rw [← taking] at someone
      obtain ⟨path, bus, passed, led, natures, -⟩ := @eval_pass ε state wire someone
      rw [taking] at passed led
      obtain ⟨inside, outside⟩ := seeks.lands more led valid
      have judged := @eval_judge_targeted ε Wire path (state.landed codes path) Wire.answer bus
        targeted (families path led.mem) (valid path led.mem)
      rw [eval_next_passed more passed, judged]
      by_cases reached : path.family = (state.landed codes path).family
      · rw [if_pos reached, inside reached]
        have stands : Stands codes { state.landed codes path with family := 0 } (some path) :=
          @Stands.landed codes path { state with family := 0 } rfl led.mem
        exact ⟨_, bus, rfl, .behind stands reached, (absurd · (List.cons_ne_nil _ _)), rfl, rfl, natures⟩
      · rw [if_neg reached, outside reached]
        exact ⟨_, bus, rfl, .finished rfl, fun _ => rfl, rfl, rfl, natures⟩

theorem Seeks.eval_nexts (seeks : Seeks codes state listed)
    (taking : state.kind.codes wire.devices = codes) (count : Nat) :
    ∃ after bus, eval (Wire.answer (ε := ε)) (nexts count) state wire =
        (.ok ((List.range count).map fun index => .ok listed[index]?), after, bus) ∧
      (listed.length < count → after.exhausted = true) := by
  induction count generalizing state listed wire with
  | zero => exact ⟨state, wire, rfl, fun less => absurd less (Nat.not_lt_zero _)⟩
  | succ count ih =>
      obtain ⟨after, bus, called, left, spent, retains⟩ :=
        seeks.eval_next (ε := ε) targeted someone families valid taking
      have again : after.kind.codes bus.devices = codes := by
        rw [retains.kind, Wire.codes_of_natures retains.natures, taking]
      obtain ⟨last, final, rest, ended⟩ := ih (retains.family ▸ targeted) left again
      refine ⟨last, final, ?_, ?_⟩
      · simp only [nexts, eval_bind, eval_attempt, called, rest, eval_pure, List.range_succ_eq_map,
          List.map_cons, List.map_map, List.head?_eq_getElem?, List.getElem?_tail]
        rfl
      · intro longer
        cases listed with
        | cons code others => exact ended (Nat.lt_of_succ_lt_succ longer)
        | nil =>
            cases count with
            | zero =>
                rw [nexts, eval_pure] at rest
                cases rest
                exact spent rfl
            | succ count => exact ended (Nat.succ_pos count)

end

/-- The calls of a search for one family find exactly the codes of the family that take part, each
once and in order; every call behind the last of them finds nothing and leaves the search
exhausted. -/
theorem targeted_search_exact {kind : Kind} (drives : master.Drives line)
    (free : line.stuckLow = false) (targeted : family ≠ 0)
    (someone : kind.codes line.devices ≠ [])
    (families : ∀ code ∈ kind.codes line.devices, code.family ≠ 0)
    (valid : ∀ code ∈ kind.codes line.devices, code.isValid = true) (count : Nat) :
    let listed := (Rom.inOrder (kind.codes line.devices)).filter fun code => code.family == family
    ∃ state after,
      perform (ε := ε) master (nexts count) (State.ofFamily kind family) line =
        (.ok ((List.range count).map fun index => .ok listed[index]?), state, after) ∧
      (listed.length < count → state.exhausted = true) := by
  intro listed
  obtain ⟨after, performed, -⟩ :=
    perform_wire drives free (beginsWithReset_nexts (ε := ε) count) (State.ofFamily kind family)
  have same : familyAhead (kind.codes line.devices) none family = listed := by
    rw [familyAhead, ahead_none]
  have seeks := seeks_ofFamily (kind.codes line.devices) kind family
  rw [same] at seeks
  obtain ⟨state, bus, called, ended⟩ :=
    seeks.eval_nexts (ε := ε) targeted someone families valid (line.codes_wire kind) count
  refine ⟨state, after, ?_, ended⟩
  rw [performed, called]

theorem targeted_search_exact_shared_prefix :
    let one : Rom := ⟨0x2900000000000128⟩
    let two : Rom := ⟨0x7000000000000228⟩
    let other : Rom := ⟨0xbe000000000001a8⟩
    let devices := [one, other, two].map fun rom => ({ rom } : Device)
    let line := (SimulatedLine.populate { capacity := 3 } devices).1
    ∃ state after,
      perform (ε := Empty) ⟨Timing.standard, 12⟩ (nexts 3) (State.ofFamily .normal 0x28) line =
        (.ok [.ok (some two), .ok (some one), .ok none], state, after) ∧
      state.exhausted = true := by
  intro one two other devices line
  have new : ∀ device ∈ devices, device.IsNew :=
    List.forall_mem_map.mpr fun rom _ => Device.isNew_of_rom rom false
  have codes : Kind.normal.codes line.devices = [one, other, two] := rfl
  have families : ∀ code ∈ Kind.normal.codes line.devices, code.family ≠ 0 := by
    rw [codes]
    decide +kernel
  have valid : ∀ code ∈ Kind.normal.codes line.devices, code.isValid = true := by
    rw [codes]
    decide +kernel
  have order : Rom.inOrder [one, other, two] = [two, one, other] :=
    Rom.inOrder_eq (by decide +kernel) fun rom => by simp; tauto
  have listed : [two, one, other].filter (fun code => code.family == 0x28) = [two, one] := by
    decide +kernel
  have targeted : (0x28 : UInt8) ≠ 0 := by decide
  obtain ⟨state, after, called, ended⟩ :=
    targeted_search_exact (ε := Empty) (Master.Drives.populated new 3) rfl targeted (by decide)
      families valid 3
  rw [codes, order, listed] at called ended
  exact ⟨state, after, called, ended (by decide)⟩

end Search

end SingleWire
