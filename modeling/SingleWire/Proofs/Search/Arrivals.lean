import SingleWire.Proofs.Search.Enumeration

/-! A search on a bus that devices join between its calls.

A newcomer may be met or not, but it hides nobody: the branch left last still leads to the codes that
were ahead when it was left. Nor does it matter what its code is. A corrupt one fails the call that
meets it and no other, and one without a family is behind the search from its first code on. -/

namespace SingleWire.Search

variable {ε : Type} {codes met : List Rom} {last path code : Rom} {kind : Kind} {state : State}
  {line after : SimulatedLine} {master : Master} {arrivals : Nat → List Device}

/-- The calls in a row of a search that devices join between its calls. Each meets the code listed for
it, which some device on the line has then, and says of it whether it is intact; one more call finds
nothing, and the search is exhausted. -/
def Meets (ε : Type) (master : Master) (arrivals : Nat → List Device) (state : State)
    (line : SimulatedLine) : List Rom → Prop
  | [] =>
      (perform (ε := ε) master next state line).1 = .ok none ∧
        (perform (ε := ε) master next state line).2.1.exhausted = true
  | code :: rest =>
      (perform (ε := ε) master next state line).1 = verdict code ∧
        code ∈ state.kind.codes line.devices ∧
        Meets ε master (fun call => arrivals (call + 1))
          (perform (ε := ε) master next state line).2.1
          ((perform (ε := ε) master next state line).2.2.populate (arrivals 0)).1 rest

theorem codes_append (kind : Kind) (devices joined : List Device) :
    kind.codes (devices ++ joined) = kind.codes devices ++ kind.codes joined := by
  rw [Kind.codes, List.filter_append, List.map_append]
  rfl

theorem codes_populate (keeps : master.Keeps line after) (kind : Kind) (devices : List Device) :
    kind.codes line.devices ⊆ kind.codes (after.populate devices).1.devices := by
  obtain ⟨joined, -, same⟩ := after.populate_frame devices
  rw [same, codes_append, keeps.codes]
  exact List.subset_append_left _ _

theorem stuckLow_populate (line : SimulatedLine) (devices : List Device) :
    (line.populate devices).1.stuckLow = line.stuckLow := by
  obtain ⟨joined, -, same⟩ := line.populate_frame devices
  rw [same]

/-- From where a search stands the next pass comes to a code further on, at most to the first one
that was ahead, whoever joined since. -/
theorem Stands.led_joined {joined : List Rom} (stands : Stands codes state (some last))
    (grown : codes ⊆ joined) (more : state.exhausted = false)
    (led : Led joined (steering state.rom state.discrepancy) path 64) :
    last.order < path.order ∧
      ∀ code ∈ codes, last.order < code.order → code = path ∨ path.order < code.order := by
  cases stands with
  | behind untargeted member left spent =>
      rw [more] at spent
      have some_branch : lastZero codes state.rom 64 ≠ 0 := left ▸ ne_of_beq_false spent.symm
      rw [left] at led
      obtain ⟨beyond, least⟩ := led.next_joined grown (grown member) (le_refl 64) some_branch
      refine ⟨Rom.order_lt_iff.mpr beyond, ?_⟩
      intro code present later
      exact (least code present (Rom.order_lt_iff.mp later)).imp Eq.symm Rom.order_lt_iff.mpr

theorem Meets.cons
    (performed : perform (ε := ε) master next state line =
      (verdict path, state.landed (state.kind.codes line.devices) path, after))
    (member : path ∈ state.kind.codes line.devices)
    (rest : Meets ε master (fun call => arrivals (call + 1))
      (state.landed (state.kind.codes line.devices) path) (after.populate (arrivals 0)).1 met) :
    Meets ε master arrivals state line (path :: met) := by
  rw [Meets, performed]
  exact ⟨by dsimp only, member, rest⟩

theorem ascends_cons (further : last.order < path.order)
    (least : ∀ code ∈ codes, last.order < code.order → code = path ∨ path.order < code.order)
    (ascending : (path :: met).Pairwise fun left right => left.order < right.order)
    (complete : ∀ code ∈ codes, path.order < code.order → code ∈ met) :
    (last :: path :: met).Pairwise (fun left right => left.order < right.order) ∧
      ∀ code ∈ codes, last.order < code.order → code ∈ path :: met := by
  constructor
  · refine List.pairwise_cons.mpr ⟨?_, ascending⟩
    intro other member
    rcases List.mem_cons.mp member with same | behind
    · rw [same]
      exact further
    · exact further.trans (List.rel_of_pairwise_cons ascending behind)
  · intro code member later
    rcases least code member later with same | behind
    · rw [same]
      exact List.mem_cons_self
    · exact List.mem_cons_of_mem path (complete code member behind)

section

variable (drives : master.Drives line) (free : line.stuckLow = false)
include drives free

theorem Stands.meets {fuel : Nat} (stands : Stands codes state (some last))
    (grown : codes ⊆ state.kind.codes line.devices) (family : last.family ≠ 0)
    (new : ∀ call, ∀ device ∈ arrivals call, device.IsNew)
    (enough : passLimit ≤ last.order + fuel) :
    ∃ met, Meets ε master arrivals state line met ∧
      (last :: met).Pairwise (fun left right => left.order < right.order) ∧
      ∀ code ∈ codes, last.order < code.order → code ∈ met := by
  induction fuel generalizing codes state line last arrivals with
  | zero =>
      have below : last.order < passLimit := last.code.reverse.isLt
      omega
  | succ fuel ih =>
      cases more : state.exhausted with
      | true =>
          have none := @perform_next_exhausted master ε _ more line
          refine ⟨[], ?_, List.pairwise_singleton _ _, ?_⟩
          · rw [Meets, none]
            exact ⟨rfl, more⟩
          · intro code member later
            exact absurd (Rom.order_lt_iff.mp later)
              (ahead_eq_nil_iff.mp (stands.exhausted_iff.mp more) code member)
      | false =>
          have someone := List.ne_nil_of_mem (grown stands.rom_mem.2)
          -- The codes without a family are all before the last one, so no pass is led to them.
          obtain ⟨path, after, performed, led, keeps, -⟩ := perform_next_led (ε := ε) drives free rfl
            stands.untargeted more someone fun path led =>
              Rom.family_ne_zero_of_order_lt (stands.led_joined grown more led).1 family
          obtain ⟨further, least⟩ := stands.led_joined grown more led
          obtain ⟨met, meets, ascending, complete⟩ :=
            ih (keeps.drives.populate (new 0))
              ((stuckLow_populate after (arrivals 0)).trans (keeps.stuckLow.trans free))
              (Stands.landed stands.untargeted led.mem) (codes_populate keeps _ _)
              (Rom.family_ne_zero_of_order_lt further family) (fun call => new (call + 1)) (by omega)
          exact ⟨path :: met, meets.cons performed led.mem,
            ascends_cons further least ascending fun code member => complete code (grown member)⟩

/-- A fresh search that devices join between its calls meets codes in ascending order, so none of
them twice, each on a device that is there by then, and returns those that are intact. Every code that
took part from the start is among them; then one call finds nothing, and the search is exhausted. What
the codes of the newcomers are does not matter. -/
theorem joined_search_complete (someone : kind.codes line.devices ≠ [])
    (families : ∀ code ∈ kind.codes line.devices, code.family ≠ 0)
    (valid : ∀ code ∈ kind.codes line.devices, code.isValid = true)
    (new : ∀ call, ∀ device ∈ arrivals call, device.IsNew) :
    ∃ met, Meets ε master arrivals (State.fresh kind) line met ∧
      met.Pairwise (fun left right => left.order < right.order) ∧
      ∀ code ∈ kind.codes line.devices, code ∈ met.filter (·.isValid) := by
  obtain ⟨path, after, performed, led, keeps, -⟩ := @perform_next_led line master ε _
    (State.fresh kind) drives free rfl rfl rfl someone fun path led => families path led.mem
  have there : Stands (kind.codes line.devices)
      ((State.fresh kind).landed (kind.codes line.devices) path) (some path) :=
    Stands.landed rfl led.mem
  obtain ⟨met, meets, ascending, complete⟩ :=
    there.meets (ε := ε) (keeps.drives.populate (new 0))
      ((stuckLow_populate after (arrivals 0)).trans (keeps.stuckLow.trans free))
      (codes_populate keeps kind (arrivals 0)) (families path led.mem) (fun call => new (call + 1))
      (Nat.le_add_left passLimit path.order)
  refine ⟨path :: met, meets.cons performed led.mem, ascending, ?_⟩
  intro code member
  refine List.mem_filter.mpr ⟨?_, valid code member⟩
  rcases led.first member with same | before
  · rw [same]
    exact List.mem_cons_self
  · exact List.mem_cons_of_mem path (complete code member (Rom.order_lt_iff.mpr before))

end

theorem joined_search_complete_by_one :
    let one : Rom := ⟨0xc300000000000104⟩
    let two : Rom := ⟨0x0a00000000000101⟩
    let devices := [one, two].map fun rom => ({ rom } : Device)
    let line := (SimulatedLine.populate { capacity := 5 } devices).1
    let newcomers := [(⟨0x4d00000000000102⟩ : Rom), ⟨0x0000000000000102⟩, ⟨0⟩].map
      fun rom => ({ rom } : Device)
    ∃ met, Meets Empty ⟨Timing.standard, 12⟩ (fun call => if call = 0 then newcomers else [])
        (State.fresh .normal) line met ∧
      met.Pairwise (fun left right => left.order < right.order) ∧
      ∀ code ∈ [one, two], code ∈ met.filter (·.isValid) := by
  intro one two devices line newcomers
  have new : ∀ device ∈ devices, device.IsNew :=
    List.forall_mem_map.mpr fun rom _ => Device.isNew_of_rom rom false
  have codes : Kind.normal.codes line.devices = [one, two] := rfl
  have families : ∀ code ∈ Kind.normal.codes line.devices, code.family ≠ 0 := by
    rw [codes]
    decide +kernel
  have valid : ∀ code ∈ Kind.normal.codes line.devices, code.isValid = true := by
    rw [codes]
    decide +kernel
  have joining : ∀ call, ∀ device ∈ (if call = 0 then newcomers else []), device.IsNew := by
    intro call
    split
    · exact List.forall_mem_map.mpr fun rom _ => Device.isNew_of_rom rom false
    · exact List.forall_mem_nil _
  rw [← codes]
  exact joined_search_complete (Master.Drives.populated new 5) rfl (by decide) families valid joining

end SingleWire.Search
