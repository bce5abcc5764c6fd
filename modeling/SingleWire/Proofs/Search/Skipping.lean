import SingleWire.Proofs.Search.Progress

/-!
Leaving out the rest of a family. The branch to go on at is noted among the family bits of a pass,
but a pass without such a branch keeps the note of the passes before. A skip in the last family then
follows an old note, and the search goes back to the first code of that family.
-/

namespace SingleWire.Search

variable {ε : Type} {codes rest : List Rom} {code last path : Rom} {state : State}
  {walked : Bool} {start line after : SimulatedLine} {master : Master}

def nextFamily (codes : List Rom) (code : Rom) : Option Rom :=
  Rom.lowest codes fun other => decide (code.familyOrder < other.familyOrder)

def familyStart (codes : List Rom) (code : Rom) : Option Rom :=
  Rom.lowest codes fun other => other.family == code.family

theorem nextFamily_eq_none_iff :
    nextFamily codes code = none ↔ ∀ other ∈ codes, ¬ code.precedes other 8 := by
  simp only [nextFamily, Rom.lowest_eq_none_iff, decide_eq_false_iff_not, Rom.familyOrder_lt_iff]

theorem lastZero_family_eq_zero_iff :
    lastZero codes code 8 = 0 ↔ nextFamily codes code = none := by
  rw [lastZero_eq_zero_iff, nextFamily_eq_none_iff]

/-- What a search has noted when it found a code: the branch left last among the family bits. In
the last family there is none, and the note is empty unless the family was walked into; then it is
old, but still leads along the forks of this family. -/
structure Noted (codes : List Rom) (state : State) (code : Rom) (walked : Bool) : Prop where
  stands : Stands codes state (some code)
  left : lastZero codes code 8 ≠ 0 → state.familyDiscrepancy = lastZero codes code 8
  blank : lastZero codes code 8 = 0 → walked = false → state.familyDiscrepancy = 0
  stale : lastZero codes code 8 = 0 → walked = true →
    state.familyDiscrepancy ≠ 0 ∧ state.familyDiscrepancy ≤ 8 ∧
      ∀ index < 8, Forks codes code index →
        code.bit index = steering code state.familyDiscrepancy index

theorem familyDiscrepancy_landed (state : State) (codes : List Rom) (code : Rom) :
    (state.landed codes code).familyDiscrepancy =
      if lastZero codes code 8 = 0 then state.familyDiscrepancy else lastZero codes code 8 := rfl

theorem Noted.first (untargeted : state.family = 0) (member : code ∈ codes)
    (unnoted : state.familyDiscrepancy = 0) :
    Noted codes (state.landed codes code) code false := by
  refine ⟨Stands.landed untargeted member, ?_, ?_, fun _ => nofun⟩
  · intro open_branch
    rw [familyDiscrepancy_landed, if_neg open_branch]
  · intro closed _
    rw [familyDiscrepancy_landed, if_pos closed, unnoted]

theorem Forks.congr {other : Rom} {index : Nat} (fork : Forks codes path index)
    (same : path.agrees other (index + 1)) : Forks codes other index := by
  obtain ⟨code, member, shared, differ⟩ := fork
  obtain ⟨before, here⟩ := Rom.agrees_succ_iff.mp same
  exact ⟨code, member, shared.trans before, by rwa [← here]⟩

theorem Noted.next (noted : Noted codes state last walked)
    (first : ahead codes (some last) = code :: rest) :
    Noted codes (state.landed codes code) code
      (if last.family = code.family then walked else true) := by
  obtain ⟨member, later, least⟩ := first_ahead first
  have order : last.order < code.order := later last rfl
  have landed := Stands.landed noted.stands.untargeted member
  by_cases family : last.family = code.family
  · have same := Rom.family_eq_iff.mp family
    rw [if_pos family]
    refine ⟨landed, ?_, ?_, ?_⟩
    · intro open_branch
      rw [familyDiscrepancy_landed, if_neg open_branch]
    · intro closed plain
      rw [familyDiscrepancy_landed, if_pos closed]
      rw [← lastZero_congr same] at closed
      exact noted.blank closed plain
    · intro closed walked
      rw [familyDiscrepancy_landed, if_pos closed]
      rw [← lastZero_congr same] at closed
      obtain ⟨some_note, small, along⟩ := noted.stale closed walked
      refine ⟨some_note, small, ?_⟩
      intro index inside fork
      have here := same index inside
      rw [← here, ← steering_congr here]
      exact along index inside (fork.congr (same.symm.mono inside))
  · rw [if_neg family]
    refine ⟨landed, ?_, fun _ => nofun, ?_⟩
    · intro open_branch
      rw [familyDiscrepancy_landed, if_neg open_branch]
    · intro closed _
      have crossing : last.precedes code 8 := Rom.precedes_of_family_ne order family
      have left : lastZero codes last 8 ≠ 0 := fun none =>
        lastZero_eq_zero_iff.mp none code member crossing
      have steered := steering_of_crossing crossing member fun other present beyond =>
        least other present fun _ same => by cases same; exact beyond
      rw [familyDiscrepancy_landed, if_pos closed, noted.left left]
      exact ⟨left, lastZero_le codes last 8, steered⟩

/-- A skip follows an old note: the family was walked into, is the last one, and has codes left. -/
def GoesBack (codes : List Rom) (code : Rom) (walked : Bool) : Prop :=
  nextFamily codes code = none ∧ walked = true ∧ ahead codes (some code) ≠ []

instance (codes : List Rom) (code : Rom) (walked : Bool) : Decidable (GoesBack codes code walked) :=
  inferInstanceAs (Decidable (_ ∧ _ ∧ _))

def afterSkip (codes : List Rom) (code : Rom) (walked : Bool) : Option Rom :=
  if GoesBack codes code walked then familyStart codes code else nextFamily codes code

theorem exhausted_skipFamily (state : State) :
    state.skipFamily.exhausted = (state.exhausted || state.familyDiscrepancy == 0) := rfl

section

variable (noted : Noted codes state code walked)
include noted

theorem Noted.skip_forward {other : Rom} (forward : nextFamily codes code = some other) :
    state.skipFamily.exhausted = false ∧
      ∀ path, Led codes (steering state.rom state.familyDiscrepancy) path 64 → path = other := by
  obtain ⟨same, member⟩ := noted.stands.rom_mem
  obtain ⟨present, beyond, least⟩ := Rom.lowest_eq_some forward
  have crossing : code.precedes other 8 := Rom.familyOrder_lt_iff.mp (of_decide_eq_true beyond)
  have left : lastZero codes code 8 ≠ 0 := fun closed =>
    lastZero_eq_zero_iff.mp closed other present crossing
  constructor
  · have more : state.exhausted = false := by
      rw [← Bool.not_eq_true, noted.stands.exhausted_iff, ahead_eq_nil_iff]
      intro none
      exact none other present (crossing.mono (by decide))
    rw [exhausted_skipFamily, more, noted.left left]
    exact beq_false_of_ne left
  · intro path led
    rw [same, noted.left left] at led
    obtain ⟨after, lowest⟩ := led.next member (by decide) left
    rcases lowest other present crossing with equal | before
    · exact equal
    · rcases least path led.mem (decide_eq_true (Rom.familyOrder_lt_iff.mpr after)) with
        equal | behind
      · exact equal
      · exact absurd (behind.trans (Rom.order_lt_iff.mpr before)) (lt_irrefl _)

theorem Noted.skip_back (back : GoesBack codes code walked) :
    state.skipFamily.exhausted = false ∧
      ∀ path, Led codes (steering state.rom state.familyDiscrepancy) path 64 →
        familyStart codes code = some path := by
  obtain ⟨same, member⟩ := noted.stands.rom_mem
  obtain ⟨none, into, others⟩ := back
  obtain ⟨some_note, small, along⟩ := noted.stale (lastZero_family_eq_zero_iff.mpr none) into
  constructor
  · have more : state.exhausted = false := by
      rw [← Bool.not_eq_true, noted.stands.exhausted_iff]
      exact others
    rw [exhausted_skipFamily, more]
    exact beq_false_of_ne some_note
  · intro path led
    rw [same] at led
    -- The old note steers along the bits of this family, and down behind them.
    have family : code.agrees path 8 := led.follows member (by decide) along
    have of_family : (path.family == code.family) = true :=
      beq_iff_eq.mpr (Rom.family_eq_iff.mpr family.symm)
    apply Rom.lowest_eq_of_least led.mem of_family
    intro other present of_family
    have shared : other.agrees path 8 :=
      (Rom.family_eq_iff.mp (beq_iff_eq.mp of_family)).trans family
    have low : ∀ index ≥ 8, steering code state.familyDiscrepancy index = false :=
      fun index behind => steering_behind (small.trans behind)
    rcases led.first_behind 8 low present shared with equal | before
    · exact .inl equal
    · exact .inr (Rom.order_lt_iff.mpr before)

theorem Noted.skip_end (none : nextFamily codes code = none) (ends : ¬ GoesBack codes code walked) :
    state.skipFamily.exhausted = true := by
  have closed := lastZero_family_eq_zero_iff.mpr none
  rw [exhausted_skipFamily]
  cases into : walked with
  | false => rw [noted.blank closed into, beq_self_eq_true, Bool.or_true]
  | true =>
      have finished : ahead codes (some code) = [] := by
        by_contra others
        exact ends ⟨none, into, others⟩
      rw [noted.stands.exhausted_iff.mpr finished, Bool.true_or]

end

/-- The pass after a skip, if one is made, ends on the code that follows it. -/
theorem Noted.skip (noted : Noted codes state code walked) :
    match afterSkip codes code walked with
    | some other => state.skipFamily.exhausted = false ∧
        ∀ path, Led codes (steering state.rom state.familyDiscrepancy) path 64 → path = other
    | none => state.skipFamily.exhausted = true := by
  unfold afterSkip
  by_cases back : GoesBack codes code walked
  · obtain ⟨more, leads⟩ := noted.skip_back back
    rw [if_pos back]
    cases begun : familyStart codes code with
    | none =>
        have absent := Rom.lowest_eq_none_iff.mp begun code noted.stands.rom_mem.2
        rw [beq_self_eq_true] at absent
        cases absent
    | some other =>
        refine ⟨more, ?_⟩
        intro path led
        exact (Option.some_inj.mp (begun.symm.trans (leads path led))).symm
  · rw [if_neg back]
    cases forward : nextFamily codes code with
    | none => exact noted.skip_end forward back
    | some other => exact noted.skip_forward forward

end SingleWire.Search
