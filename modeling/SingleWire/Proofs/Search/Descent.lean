import SingleWire.Proofs.RomOrder
import SingleWire.Search.State

/-!
The descent among a set of codes: bit by bit the common bit of those that took the path so far, and
at a fork the bit that the search is steered to. The last fork left at zero leads to the next code.
-/

namespace SingleWire.Search

variable {codes : List Rom} {steer : Nat → Bool} {path last code : Rom} {count start : Nat}

def Forks (codes : List Rom) (path : Rom) (index : Nat) : Prop :=
  ∃ code ∈ codes, code.agrees path index ∧ code.bit index ≠ path.bit index

def offers (codes : List Rom) (path : Rom) (index : Nat) (bit : Bool) : Bool :=
  codes.any fun code => decide (code.agrees path index) && code.bit index == bit

def tripletOf (codes : List Rom) (path : Rom) (index : Nat) (direction : Bool) : Triplet :=
  match offers codes path index false, offers codes path index true with
  | false, false => ⟨true, true, true⟩
  | false, true => ⟨true, false, true⟩
  | true, false => ⟨false, true, false⟩
  | true, true => ⟨false, false, direction⟩

def leavesOne (codes : List Rom) (path : Rom) (index : Nat) : Bool :=
  !path.bit index && offers codes path index true

/-- The last of the first `count` bits, numbered from one, at which the path left a one; zero if
there is none. -/
def lastZero (codes : List Rom) (path : Rom) : (count : Nat) → Nat
  | 0 => 0
  | count + 1 => if leavesOne codes path count then count + 1 else lastZero codes path count

/-- A path that some code takes, with each fork on it taken as steered. -/
structure Led (codes : List Rom) (steer : Nat → Bool) (path : Rom) (count : Nat) : Prop where
  reached : ∃ code ∈ codes, code.agrees path count
  steered : ∀ index < count, Forks codes path index → path.bit index = steer index

theorem offers_iff {index : Nat} {bit : Bool} :
    offers codes path index bit = true ↔
      ∃ code ∈ codes, code.agrees path index ∧ code.bit index = bit := by
  simp [offers]

theorem leavesOne_iff {index : Nat} :
    leavesOne codes path index = true ↔
      path.bit index = false ∧ ∃ code ∈ codes, code.agrees path index ∧ code.bit index = true := by
  simp [leavesOne, offers]

theorem offers_congr {other : Rom} {index : Nat} (same : path.agrees other index) (bit : Bool) :
    offers codes path index bit = offers codes other index bit := by
  apply Bool.eq_iff_iff.mpr
  rw [offers_iff, offers_iff]
  constructor
  · rintro ⟨code, member, taken, next⟩
    exact ⟨code, member, taken.trans same, next⟩
  · rintro ⟨code, member, taken, next⟩
    exact ⟨code, member, taken.trans same.symm, next⟩

theorem leavesOne_congr {other : Rom} {index : Nat} (same : path.agrees other (index + 1)) :
    leavesOne codes path index = leavesOne codes other index := by
  obtain ⟨before, here⟩ := Rom.agrees_succ_iff.mp same
  rw [leavesOne, leavesOne, here, offers_congr before]

theorem lastZero_congr {other : Rom} (same : path.agrees other count) :
    lastZero codes path count = lastZero codes other count := by
  induction count with
  | zero => rfl
  | succ count ih =>
      rw [lastZero, lastZero, leavesOne_congr same, ih (same.mono (Nat.le_succ count))]

theorem lastZero_le (codes : List Rom) (path : Rom) (count : Nat) :
    lastZero codes path count ≤ count := by
  induction count with
  | zero => exact le_refl 0
  | succ count ih =>
      rw [lastZero]
      split
      · exact le_refl _
      · exact ih.trans (Nat.le_succ count)

theorem leavesOne_of_lastZero {index : Nat} (found : lastZero codes path count = index + 1) :
    index < count ∧ leavesOne codes path index = true := by
  induction count with
  | zero => exact absurd found (Nat.succ_ne_zero index).symm
  | succ count ih =>
      rw [lastZero] at found
      split at found
      · rename_i leaves
        obtain rfl : count = index := Nat.succ_injective found
        exact ⟨Nat.lt_succ_self count, leaves⟩
      · exact ⟨Nat.lt_succ_of_lt (ih found).1, (ih found).2⟩

theorem lastZero_bounds {index : Nat} (inside : index < count)
    (leaves : leavesOne codes path index = true) : index < lastZero codes path count := by
  induction count with
  | zero => exact absurd inside (Nat.not_lt_zero index)
  | succ count ih =>
      rw [lastZero]
      split
      · exact inside
      · rename_i none
        have earlier : index ≠ count := by
          rintro rfl
          exact none leaves
        exact ih (by omega)

theorem lastZero_mono {fewer : Nat} (less : fewer ≤ count) :
    lastZero codes path fewer ≤ lastZero codes path count := by
  cases found : lastZero codes path fewer with
  | zero => exact Nat.zero_le _
  | succ index =>
      obtain ⟨inside, leaves⟩ := leavesOne_of_lastZero found
      exact lastZero_bounds (lt_of_lt_of_le inside less) leaves

theorem lastZero_eq_zero_iff :
    lastZero codes path count = 0 ↔ ∀ code ∈ codes, ¬ path.precedes code count := by
  constructor
  · rintro none code member ⟨index, inside, same, zero, one⟩
    have positive := lastZero_bounds inside
      (leavesOne_iff.mpr ⟨zero, code, member, same.symm, one⟩)
    omega
  · intro none
    cases found : lastZero codes path count with
    | zero => rfl
    | succ index =>
        obtain ⟨inside, leaves⟩ := leavesOne_of_lastZero found
        obtain ⟨zero, code, member, same, one⟩ := leavesOne_iff.mp leaves
        exact absurd ⟨index, inside, same.symm, zero, one⟩ (none code member)

theorem agrees_setBit (path : Rom) {index : Nat} (inside : index < 64) (bit : Bool) :
    path.agrees (path.setBit index bit) index := by
  intro before earlier
  rw [Rom.bit_setBit path index before bit (by omega), if_neg (by omega)]

theorem bit_setBit_same (path : Rom) {index : Nat} (inside : index < 64) (bit : Bool) :
    (path.setBit index bit).bit index = bit := by
  rw [Rom.bit_setBit path index index bit inside, if_pos rfl]

section

variable {index : Nat} {direction : Bool}

theorem tripletOf_answered (reached : ∃ code ∈ codes, code.agrees path index) :
    (tripletOf codes path index direction).isUnanswered = false := by
  obtain ⟨code, member, same⟩ := reached
  have offered : offers codes path index (code.bit index) = true :=
    offers_iff.mpr ⟨code, member, same, rfl⟩
  unfold tripletOf
  cases bit : code.bit index with
  | false =>
      rw [bit] at offered
      rw [offered]
      cases offers codes path index true <;> rfl
  | true =>
      rw [bit] at offered
      rw [offered]
      cases offers codes path index false <;> rfl

theorem tripletOf_taken (reached : ∃ code ∈ codes, code.agrees path index) :
    offers codes path index (tripletOf codes path index direction).taken = true ∧
      (offers codes path index (!(tripletOf codes path index direction).taken) = true →
        (tripletOf codes path index direction).taken = direction) := by
  have answered := @tripletOf_answered codes path index direction reached
  unfold tripletOf at answered ⊢
  cases zero : offers codes path index false <;> cases one : offers codes path index true <;>
    rw [zero, one] at answered
  · cases answered
  · exact ⟨one, fun other => absurd (zero.symm.trans other) Bool.false_ne_true⟩
  · exact ⟨zero, fun other => absurd (one.symm.trans other) Bool.false_ne_true⟩
  · refine ⟨?_, fun _ => rfl⟩
    cases direction
    · exact zero
    · exact one

theorem tripletOf_leavesOne (inside : index < 64)
    (reached : ∃ code ∈ codes, code.agrees path index) :
    (tripletOf codes path index direction).leavesOne =
      leavesOne codes (path.setBit index (tripletOf codes path index direction).taken) index := by
  have answered := @tripletOf_answered codes path index direction reached
  rw [leavesOne, bit_setBit_same path inside,
    ← offers_congr (agrees_setBit path inside _) true]
  unfold tripletOf at answered ⊢
  cases zero : offers codes path index false <;> cases one : offers codes path index true <;>
    rw [zero, one] at answered
  · cases answered
  · rfl
  · rfl
  · simp [Triplet.leavesOne]

theorem Led.step (led : Led codes steer path index) (inside : index < 64) :
    Led codes steer
      (path.setBit index (tripletOf codes path index (steer index)).taken) (index + 1) := by
  have before := agrees_setBit path inside (tripletOf codes path index (steer index)).taken
  have here := bit_setBit_same path inside (tripletOf codes path index (steer index)).taken
  obtain ⟨offered, steered⟩ := @tripletOf_taken codes path index (steer index) led.reached
  constructor
  · obtain ⟨code, member, same, bit⟩ := offers_iff.mp offered
    exact ⟨code, member, Rom.agrees_succ_iff.mpr ⟨same.trans before, by rw [bit, here]⟩⟩
  · rintro place within ⟨code, member, same, other⟩
    rcases Nat.lt_succ_iff_lt_or_eq.mp within with earlier | rfl
    · have unchanged := before place earlier
      rw [← unchanged] at other ⊢
      exact led.steered place earlier
        ⟨code, member, same.trans (before.mono earlier.le).symm, other⟩
    · rw [here] at other ⊢
      exact steered (offers_iff.mpr
        ⟨code, member, same.trans before.symm, Bool.eq_not_of_ne other⟩)

end

namespace Led

theorem mem (led : Led codes steer path 64) : path ∈ codes := by
  obtain ⟨code, member, same⟩ := led.reached
  rwa [← Rom.eq_of_agrees same]

theorem follows (led : Led codes steer path count) (member : last ∈ codes)
    (within : start ≤ count)
    (along : ∀ index < start, Forks codes last index → last.bit index = steer index) :
    last.agrees path start := by
  induction start with
  | zero => exact fun index inside => absurd inside (Nat.not_lt_zero index)
  | succ start ih =>
      have before := ih (by omega) fun index inside => along index (Nat.lt_succ_of_lt inside)
      refine Rom.agrees_succ_iff.mpr ⟨before, ?_⟩
      by_contra differ
      obtain ⟨code, present, same⟩ := led.reached
      have here : code.bit start = path.bit start := same start (by omega)
      have shared : code.agrees last start := (same.mono (by omega)).trans before.symm
      have taken := led.steered start (by omega) ⟨last, member, before, differ⟩
      apply differ
      rw [taken]
      exact along start (Nat.lt_succ_self start)
        ⟨code, present, shared, by rw [here]; exact fun equal => differ equal.symm⟩

theorem unique (led : Led codes steer path 64)
    (begun : Led codes steer other count) (within : count ≤ 64) : path.agrees other count :=
  begun.follows led.mem (le_refl count) fun index early fork =>
    led.steered index (lt_of_lt_of_le early within) fork

theorem first_behind (led : Led codes steer path 64) (start : Nat)
    (low : ∀ index ≥ start, steer index = false) (member : code ∈ codes) (same : code.agrees path start) :
    path = code ∨ path.precedes code 64 := by
  rcases Rom.exists_difference code path 64 with equal | ⟨index, inside, before, differ⟩
  · exact .inl (Rom.eq_of_agrees equal).symm
  · have behind : start ≤ index := by
      by_contra early
      exact differ (same index (by omega))
    have zero : path.bit index = false := by
      rw [led.steered index inside ⟨code, member, before, differ⟩, low index behind]
    exact .inr ⟨index, inside, before.symm, zero, by simpa [zero] using differ⟩

end Led

/-- Before the last discrepancy as the pass before, one at it and zero behind it. -/
def steering (rom : Rom) (discrepancy index : Nat) : Bool :=
  if index + 1 < discrepancy then rom.bit index else index + 1 == discrepancy

theorem steering_fresh (rom : Rom) (index : Nat) : steering rom 0 index = false := by
  simp [steering]

theorem steering_before {rom : Rom} {discrepancy index : Nat} (early : index + 1 < discrepancy) :
    steering rom discrepancy index = rom.bit index := by
  simp [steering, early]

theorem steering_congr {other : Rom} {discrepancy index : Nat}
    (same : path.bit index = other.bit index) :
    steering path discrepancy index = steering other discrepancy index := by
  simp only [steering, same]

theorem steering_behind {rom : Rom} {discrepancy index : Nat} (late : discrepancy ≤ index) :
    steering rom discrepancy index = false := by
  simp only [steering]
  rw [if_neg (by omega)]
  exact beq_false_of_ne (by omega)

namespace Led

theorem first (led : Led codes (steering last 0) path 64) (member : code ∈ codes) :
    path = code ∨ path.precedes code 64 :=
  led.first_behind 0 (fun index _ => steering_fresh last index) member
    fun index inside => absurd inside (Nat.not_lt_zero index)

/-- Steered by the last zero among its first bits, the search leaves the last code upwards within
those bits and comes to a code that is not behind the first such one. Since then more codes may have
joined those among which that zero was left. -/
theorem next_joined {joined : List Rom} (grown : codes ⊆ joined)
    (led : Led joined (steering last (lastZero codes last count)) path 64)
    (member : last ∈ joined) (within : count ≤ 64) (left : lastZero codes last count ≠ 0) :
    last.precedes path count ∧
      ∀ code ∈ codes, last.precedes code count → path = code ∨ path.precedes code 64 := by
  obtain ⟨branch, found⟩ := Nat.exists_eq_succ_of_ne_zero left
  obtain ⟨inside, leaves⟩ := leavesOne_of_lastZero found
  obtain ⟨zero, sibling, present, shared, one⟩ := leavesOne_iff.mp leaves
  rw [found] at led
  have along : last.agrees path branch := by
    apply led.follows member (by omega)
    intro index early _
    exact (steering_before (Nat.succ_lt_succ early)).symm
  -- With a zero here the sibling would make a fork, and at this bit a fork is taken upwards.
  have taken : path.bit branch = true := by
    by_contra other
    have fork : Forks joined path branch :=
      ⟨sibling, grown present, shared.trans along, by rw [one]; exact fun same => other same.symm⟩
    have steered := led.steered branch (by omega) fork
    exact other (by rw [steered]; simp [steering])
  refine ⟨⟨branch, inside, along, zero, taken⟩, ?_⟩
  rintro code candidate ⟨index, early, same, low, high⟩
  rcases lt_trichotomy index branch with before | rfl | behind
  · have path_low : path.bit index = false := by rw [← along index before, low]
    exact .inr ⟨index, by omega, (along.mono before.le).symm.trans same, path_low, high⟩
  · refine led.first_behind (index + 1) (fun later late => steering_behind late) (grown candidate) ?_
    exact Rom.agrees_succ_iff.mpr ⟨same.symm.trans along, by rw [high, taken]⟩
  · have bound := lastZero_bounds early
      (leavesOne_iff.mpr ⟨low, code, candidate, same.symm, high⟩)
    omega

theorem next (led : Led codes (steering last (lastZero codes last count)) path 64)
    (member : last ∈ codes) (within : count ≤ 64) (left : lastZero codes last count ≠ 0) :
    last.precedes path count ∧
      ∀ code ∈ codes, last.precedes code count → path = code ∨ path.precedes code 64 :=
  led.next_joined (List.Subset.refl codes) member within left

end Led

theorem steering_of_crossing (later : last.precedes code 8) (member : code ∈ codes)
    (least : ∀ other ∈ codes, last.order < other.order → other = code ∨ code.order < other.order) :
    ∀ index < 8, Forks codes code index →
      code.bit index = steering code (lastZero codes last 8) index := by
  obtain ⟨place, within, shared, low, high⟩ := later
  have bound : place < lastZero codes last 8 :=
    lastZero_bounds within (leavesOne_iff.mpr ⟨low, code, member, shared.symm, high⟩)
  -- A branch left behind this place would lead to a code between the two.
  have branch_at_place : lastZero codes last 8 = place + 1 := by
    obtain ⟨branch, found⟩ := Nat.exists_eq_add_of_lt bound
    obtain ⟨inside, leaves⟩ := leavesOne_of_lastZero found
    obtain ⟨zero, sibling, present, along, one⟩ := leavesOne_iff.mp leaves
    have further : last.order < sibling.order :=
      Rom.order_lt_iff.mpr ⟨place + branch, by omega, along.symm, zero, one⟩
    cases branch with
    | zero => exact found
    | succ branch =>
        have nearer : sibling.order < code.order := by
          refine Rom.order_lt_iff.mpr ⟨place, by omega, ?_, ?_, high⟩
          · exact (along.mono (by omega)).trans shared
          · rw [along place (by omega), low]
        rcases least sibling present further with same | beyond
        · rw [same] at nearer
          exact absurd nearer (lt_irrefl _)
        · exact absurd (nearer.trans beyond) (lt_irrefl _)
  rw [branch_at_place]
  rintro index early ⟨other, present, along, differ⟩
  rcases lt_trichotomy index place with before | rfl | behind
  · exact (steering_before (Nat.succ_lt_succ before)).symm
  · rw [high]
    simp [steering]
  · rw [steering_behind behind]
    by_contra one
    have other_zero : other.bit index = false := by
      rw [Bool.not_eq_false] at one
      rw [one] at differ
      exact Bool.eq_false_of_not_eq_true differ
    have nearer : other.order < code.order :=
      Rom.order_lt_iff.mpr ⟨index, by omega, along, other_zero, by simpa using one⟩
    have further : last.order < other.order := by
      refine Rom.order_lt_iff.mpr ⟨place, by omega, ?_, low, ?_⟩
      · exact shared.trans (along.mono behind.le).symm
      · rw [along place behind, high]
    rcases least other present further with same | beyond
    · rw [same] at nearer
      exact absurd nearer (lt_irrefl _)
    · exact absurd (nearer.trans beyond) (lt_irrefl _)

end SingleWire.Search
