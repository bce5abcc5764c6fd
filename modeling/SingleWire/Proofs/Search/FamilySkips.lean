import SingleWire.Proofs.Search.Tours

namespace SingleWire.Search

variable {ε : Type} {codes : List Rom} {code last first : Rom} {state : State}
  {start line : SimulatedLine} {master : Master} {trace earlier : List (Entry ε)}

/-- Somewhere in a run a call was made right after a skip that went back. -/
def Relapsed (codes : List Rom) (trace : List (Entry ε)) : Prop :=
  ∃ outcome code earlier, GoesBack codes code (walkedInto code.family earlier) ∧
    .returned outcome :: .skipped :: .found code :: earlier <:+ trace

theorem Relapsed.cons (relapsed : Relapsed codes trace) (entry : Entry ε) :
    Relapsed codes (entry :: trace) := by
  obtain ⟨outcome, code, earlier, back, suffix⟩ := relapsed
  exact ⟨outcome, code, earlier, back, suffix.trans (List.suffix_cons entry trace)⟩

theorem familyStart_of_crossing {rest : List Rom} (next : ahead codes (some last) = code :: rest)
    (other : last.family ≠ code.family) : familyStart codes code = some code := by
  obtain ⟨member, later, least⟩ := first_ahead next
  have crossing : last.precedes code 8 := Rom.precedes_of_family_ne (later last rfl) other
  apply Rom.lowest_eq_of_least member (beq_self_eq_true code.family)
  intro candidate present of_family
  have same : candidate.agrees code 8 := Rom.family_eq_iff.mp (beq_iff_eq.mp of_family)
  obtain ⟨index, inside, shared, low, high⟩ := crossing
  have beyond : last.order < candidate.order := by
    refine Rom.order_lt_iff.mpr ⟨index, by omega, ?_, low, ?_⟩
    · exact shared.trans (same.mono inside.le).symm
    · rw [same index inside, high]
  rcases least candidate present (fun _ found => by cases found; exact beyond) with equal | behind
  · exact .inl equal.symm
  · exact .inr behind

theorem head?_eq_some_iff {list : List Rom} :
    list.head? = some code ↔ ∃ rest, list = code :: rest := by
  cases list <;> simp

section

variable (drives : master.Drives start) (free : start.stuckLow = false)
  (taking : Kind.normal.codes start.devices = codes)
  (families : ∀ code ∈ codes, code.family ≠ 0) (valid : ∀ code ∈ codes, code.isValid = true)
include drives free taking families valid

theorem Tour.familyStart_found (tour : Tour ε master start (.found code :: earlier) state line)
    (walked : walkedInto code.family earlier = true) (begun : familyStart codes code = some first) :
    first ∈ foundCodes (.found code :: earlier) := by
  subst taking
  -- Back through the codes of this family to the call that entered it.
  induction earlier generalizing code state line with
  | nil => cases walked
  | cons entry earlier ih =>
      rcases entry with (error | - | last) | -
      · cases walked
      · cases walked
      · obtain ⟨state, line, before⟩ := tour.tail
        by_cases same : last.family = code.family
        · have walked_last : walkedInto last.family earlier = true := by
            rw [walkedInto, if_pos same] at walked
            rwa [same]
          have begun_last : familyStart (Kind.normal.codes start.devices) last = some first := by
            rw [familyStart, same]
            exact begun
          exact List.mem_cons_of_mem code (ih before walked_last begun_last)
        · have returned := Except.ok.inj (tour.returned_eq drives free families valid)
          obtain ⟨rest, next⟩ := head?_eq_some_iff.mp returned.symm
          rw [familyStart_of_crossing next same] at begun
          cases begun
          exact List.mem_cons_self
      · cases walked

theorem Tour.found_beyond (tour : Tour ε master start (.found code :: trace) state line)
    (forward : ¬ Relapsed codes (.found code :: trace)) :
    ∀ last ∈ (foundCodes trace).head?, last.order < code.order := by
  subst taking
  have returned := Except.ok.inj (tour.returned_eq drives free families valid)
  rcases trace with - | ⟨(error | - | last) | -, earlier⟩
  · exact fun last none => (Option.not_mem_none last none).elim
  · cases returned
  · cases returned
  · intro found same
    cases same
    obtain ⟨rest, next⟩ := head?_eq_some_iff.mp returned.symm
    exact (first_ahead next).2.1 last rfl
  · rcases earlier with - | ⟨(error | - | last) | -, earlier⟩
    · cases returned
    · cases returned
    · cases returned
    · have no_return : ¬ GoesBack _ last (walkedInto last.family earlier) := fun back =>
        forward ⟨_, last, earlier, back, List.suffix_refl _⟩
      intro found same
      cases same
      have following : some code = afterSkip _ last (walkedInto last.family earlier) := returned
      rw [afterSkip, if_neg no_return] at following
      obtain ⟨-, later, -⟩ := Rom.lowest_eq_some following.symm
      have crossing := Rom.familyOrder_lt_iff.mp (of_decide_eq_true later)
      exact Rom.order_lt_iff.mpr (crossing.mono (by decide))
    · cases returned

theorem Tour.descending (tour : Tour ε master start trace state line)
    (forward : ¬ Relapsed codes trace) :
    (foundCodes trace).Pairwise fun later earlier => earlier.order < later.order := by
  induction trace generalizing state line with
  | nil => exact List.Pairwise.nil
  | cons entry trace ih =>
      obtain ⟨before, bus, shorter⟩ := tour.tail
      have descending := ih shorter fun relapsed => forward (relapsed.cons entry)
      rcases entry with (error | - | code) | -
      · exact descending
      · exact descending
      · have beyond := tour.found_beyond drives free taking families valid forward
        change (code :: foundCodes trace).Pairwise _
        refine List.pairwise_cons.mpr ⟨?_, descending⟩
        intro other member
        cases found : foundCodes trace with
        | nil =>
            rw [found] at member
            exact absurd member List.not_mem_nil
        | cons last rest =>
            rw [found] at member descending beyond
            have behind : last.order < code.order := beyond last rfl
            rcases List.mem_cons.mp member with same | older
            · rw [same]
              exact behind
            · exact (List.rel_of_pairwise_cons descending older).trans behind
      · exact descending

theorem Tour.repeated {outcome : Except (BusError ε) (Option Rom)}
    (tour : Tour ε master start (.returned outcome :: .skipped :: .found code :: earlier) state line)
    (back : GoesBack codes code (walkedInto code.family earlier)) :
    ¬ (foundCodes (.returned outcome :: .skipped :: .found code :: earlier)).Nodup := by
  have returned : outcome = .ok (afterSkip codes code (walkedInto code.family earlier)) := by
    subst taking
    exact tour.returned_eq drives free families valid
  obtain ⟨_, _, skip⟩ := tour.tail
  obtain ⟨before, bus, found⟩ := skip.tail
  have noted : Noted codes before code (walkedInto code.family earlier) := by
    subst taking
    exact (found.holds drives free families valid).standing
  rw [afterSkip, if_pos back] at returned
  cases begun : familyStart codes code with
  | none =>
      have absent := Rom.lowest_eq_none_iff.mp begun code noted.stands.rom_mem.2
      rw [beq_self_eq_true] at absent
      cases absent
  | some first =>
      have member := found.familyStart_found drives free taking families valid back.2.1 begun
      rw [returned, begun]
      change ¬ (first :: foundCodes (.found code :: earlier)).Nodup
      exact fun distinct => (List.nodup_cons.mp distinct).1 member

end

theorem Tour.suffix {later : List (Entry ε)} (tour : Tour ε master start (later ++ trace) state line) :
    ∃ state line, Tour ε master start trace state line := by
  induction later generalizing state line with
  | nil => exact ⟨state, line, tour⟩
  | cons entry later ih =>
      obtain ⟨_, _, shorter⟩ := tour.tail
      exact ih shorter

/-- In a run on devices with valid codes, the call after a skip returns the first code of the next
family, or nothing if there is none, unless the skip goes back: then it returns the first code of
the family of the code found last. A run returns a code twice exactly if a skip went back and a call
followed it. -/
theorem skip_family_exact (drives : master.Drives start) (free : start.stuckLow = false)
    (families : ∀ code ∈ Kind.normal.codes start.devices, code.family ≠ 0)
    (valid : ∀ code ∈ Kind.normal.codes start.devices, code.isValid = true)
    (tour : Tour ε master start trace state line) :
    (∀ code earlier, trace = .returned (.ok (some code)) :: earlier →
      (perform (ε := ε) master next state.skipFamily line).1 =
        .ok (if GoesBack (Kind.normal.codes start.devices) code (walkedInto code.family earlier) then
            familyStart (Kind.normal.codes start.devices) code
          else nextFamily (Kind.normal.codes start.devices) code)) ∧
    ((foundCodes trace).Nodup ↔ ¬ Relapsed (Kind.normal.codes start.devices) trace) := by
  refine ⟨?_, ?_, ?_⟩
  · rintro code earlier rfl
    obtain ⟨after, bus, performed, -⟩ :=
      (tour.skip.holds drives free families valid).call free rfl families valid
    rw [performed]
    rfl
  · rintro distinct ⟨outcome, code, earlier, back, later, rfl⟩
    obtain ⟨before, bus, shorter⟩ := tour.suffix
    rw [foundCodes, List.filterMap_append] at distinct
    exact shorter.repeated drives free rfl families valid back (List.nodup_append.mp distinct).2.1
  · intro forward
    apply (tour.descending drives free rfl families valid forward).imp
    intro later earlier less same
    rw [same] at less
    exact lt_irrefl _ less

theorem skip_family_returns_to_start :
    let one : Rom := ⟨0xcc00000000000110⟩
    let two : Rom := ⟨0x5300000000000201⟩
    let three : Rom := ⟨0x0a00000000000101⟩
    let devices := [one, two, three].map fun rom => ({ rom } : Device)
    let start := (SimulatedLine.populate { capacity := 3 } devices).1
    ∃ (state : State) (line : SimulatedLine),
      Tour Empty ⟨Timing.standard, 12⟩ start
        [.returned (.ok (some two)), .returned (.ok (some one))] state line ∧
      (perform (ε := Empty) ⟨Timing.standard, 12⟩ next state.skipFamily line).1 =
        .ok (some two) := by
  intro one two three devices start
  have new : ∀ device ∈ devices, device.IsNew :=
    List.forall_mem_map.mpr fun rom _ => Device.isNew_of_rom rom false
  have drives := Master.Drives.populated new 3
  have codes : Kind.normal.codes start.devices = [one, two, three] := rfl
  have families : ∀ code ∈ Kind.normal.codes start.devices, code.family ≠ 0 := by
    rw [codes]
    decide +kernel
  have valid : ∀ code ∈ Kind.normal.codes start.devices, code.isValid = true := by
    rw [codes]
    decide +kernel
  have order : Rom.inOrder (Kind.normal.codes start.devices) = [one, two, three] :=
    Rom.inOrder_eq (by decide +kernel) fun rom => Iff.rfl
  have behind_one : ahead (Kind.normal.codes start.devices) (some one) = [two, three] := by
    rw [ahead, order]
    decide +kernel
  have behind_two : ahead (Kind.normal.codes start.devices) (some two) = [three] := by
    rw [ahead, order]
    decide +kernel
  have last_family : nextFamily (Kind.normal.codes start.devices) two = none := by
    rw [nextFamily, Rom.lowest, order]
    decide +kernel
  have its_start : familyStart (Kind.normal.codes start.devices) two = some two := by
    rw [familyStart, Rom.lowest, order]
    decide +kernel
  have walked : walkedInto two.family [(.found one : Entry Empty)] = true := by decide +kernel
  obtain ⟨second, first, state, line, tour⟩ : ∃ second first state line,
      Tour Empty ⟨Timing.standard, 12⟩ start [.returned second, .returned first] state line :=
    ⟨_, _, _, _, Tour.begin.call.call⟩
  obtain ⟨_, _, shorter⟩ := tour.tail
  obtain rfl : first = .ok (some one) := by
    rw [shorter.returned_eq drives rfl families valid, place, Place.upcoming, ahead_none, order]
    rfl
  obtain rfl : second = .ok (some two) := by
    rw [tour.returned_eq drives rfl families valid]
    change Except.ok (ahead _ (some one)).head? = _
    rw [behind_one]
    rfl
  refine ⟨state, line, tour, ?_⟩
  have back : GoesBack (Kind.normal.codes start.devices) two (walkedInto two.family [.found one]) :=
    ⟨last_family, walked, by rw [behind_two]; exact List.cons_ne_nil three []⟩
  rw [(skip_family_exact drives rfl families valid tour).1 two _ rfl]
  exact congrArg Except.ok ((if_pos back).trans its_start)

end SingleWire.Search
