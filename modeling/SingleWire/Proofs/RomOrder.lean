import Mathlib.Data.Nat.Bitwise
import Mathlib.Data.List.Dedup
import Mathlib.Data.List.Sort
import SingleWire.Rom

namespace SingleWire

theorem exists_first_difference (left right : Nat → Bool) (count : Nat) :
    (∀ index < count, left index = right index) ∨
      ∃ index < count, (∀ before < index, left before = right before) ∧
        left index ≠ right index := by
  induction count with
  | zero => exact .inl fun index inside => absurd inside (Nat.not_lt_zero index)
  | succ count ih =>
      rcases ih with same | ⟨index, inside, same, differ⟩
      · by_cases last : left count = right count
        · left
          intro index inside
          rcases Nat.lt_succ_iff_lt_or_eq.mp inside with earlier | rfl
          · exact same index earlier
          · exact last
        · exact .inr ⟨count, Nat.lt_succ_self count, same, last⟩
      · exact .inr ⟨index, Nat.lt_succ_of_lt inside, same, differ⟩

theorem reverse_lt_of_first_difference {width : Nat} (left right : BitVec width) (index : Nat)
    (inside : index < width)
    (same : ∀ before < index, left.getLsbD before = right.getLsbD before)
    (zero : left.getLsbD index = false) (one : right.getLsbD index = true) :
    left.reverse.toNat < right.reverse.toNat := by
  apply Nat.lt_of_testBit (width - 1 - index)
  · simp only [BitVec.testBit_toNat, BitVec.getLsbD_reverse, BitVec.getMsbD]
    rw [show width - 1 - (width - 1 - index) = index by omega, zero, Bool.and_false]
  · simp only [BitVec.testBit_toNat, BitVec.getLsbD_reverse, BitVec.getMsbD]
    rw [show width - 1 - (width - 1 - index) = index by omega, one, Bool.and_true]
    exact decide_eq_true (by omega)
  · intro place above
    simp only [BitVec.testBit_toNat, BitVec.getLsbD_reverse, BitVec.getMsbD]
    by_cases within : place < width
    · rw [same (width - 1 - place) (by omega)]
    · simp [within]

theorem reverse_lt_iff {width : Nat} (left right : BitVec width) :
    left.reverse.toNat < right.reverse.toNat ↔
      ∃ index < width, (∀ before < index, left.getLsbD before = right.getLsbD before) ∧
        left.getLsbD index = false ∧ right.getLsbD index = true := by
  constructor
  · intro less
    rcases exists_first_difference left.getLsbD right.getLsbD width with
      same | ⟨index, inside, same, differ⟩
    · have equal : left = right := BitVec.eq_of_getLsbD_eq same
      rw [equal] at less
      exact absurd less (lt_irrefl _)
    · cases zero : left.getLsbD index with
      | false =>
          rw [zero] at differ
          exact ⟨index, inside, same, zero, by simpa using differ.symm⟩
      | true =>
          rw [zero] at differ
          have greater := reverse_lt_of_first_difference right left index inside
            (fun before earlier => (same before earlier).symm) (by simpa using differ.symm) zero
          exact absurd (less.trans greater) (lt_irrefl _)
  · rintro ⟨index, inside, same, zero, one⟩
    exact reverse_lt_of_first_difference left right index inside same zero one

namespace Rom

/-- The place of a code in the order of a search. -/
def order (rom : Rom) : Nat := rom.code.reverse.toNat

def familyOrder (rom : Rom) : Nat := rom.family.toBitVec.reverse.toNat

def agrees (left right : Rom) (count : Nat) : Prop :=
  ∀ index < count, left.bit index = right.bit index

instance (left right : Rom) (count : Nat) : Decidable (left.agrees right count) :=
  Nat.decidableBallLT count fun index _ => left.bit index = right.bit index

/-- Among the first `count` bits, the first one at which they differ is zero on the left. -/
def precedes (left right : Rom) (count : Nat) : Prop :=
  ∃ index < count, left.agrees right index ∧ left.bit index = false ∧ right.bit index = true

variable {left right other : Rom} {count : Nat}

theorem agrees.symm (same : left.agrees right count) : right.agrees left count :=
  fun index inside => (same index inside).symm

theorem agrees.trans (first : left.agrees right count) (second : right.agrees other count) :
    left.agrees other count :=
  fun index inside => (first index inside).trans (second index inside)

theorem agrees.mono {fewer : Nat} (same : left.agrees right count) (less : fewer ≤ count) :
    left.agrees right fewer :=
  fun index inside => same index (lt_of_lt_of_le inside less)

theorem agrees_succ_iff :
    left.agrees right (count + 1) ↔ left.agrees right count ∧ left.bit count = right.bit count := by
  constructor
  · intro same
    exact ⟨same.mono (Nat.le_succ count), same count (Nat.lt_succ_self count)⟩
  · rintro ⟨same, last⟩ index inside
    rcases Nat.lt_succ_iff_lt_or_eq.mp inside with earlier | rfl
    · exact same index earlier
    · exact last

theorem eq_of_agrees (same : left.agrees right 64) : left = right := by
  cases left
  cases right
  exact congrArg Rom.mk (BitVec.eq_of_getLsbD_eq same)

theorem exists_difference (left right : Rom) (count : Nat) :
    left.agrees right count ∨
      ∃ index < count, left.agrees right index ∧ left.bit index ≠ right.bit index :=
  exists_first_difference left.bit right.bit count

theorem precedes.mono {fewer : Nat} (before : left.precedes right fewer) (less : fewer ≤ count) :
    left.precedes right count := by
  obtain ⟨index, inside, step⟩ := before
  exact ⟨index, lt_of_lt_of_le inside less, step⟩

theorem order_lt_iff : left.order < right.order ↔ left.precedes right 64 :=
  reverse_lt_iff left.code right.code

theorem order_injective : Function.Injective order := by
  intro left right same
  rcases exists_difference left right 64 with equal | ⟨index, inside, equal, differ⟩
  · exact eq_of_agrees equal
  · cases zero : left.bit index with
    | false =>
        have less : left.order < right.order :=
          order_lt_iff.mpr ⟨index, inside, equal, zero, by simpa [zero] using differ.symm⟩
        exact absurd same (ne_of_lt less)
    | true =>
        have less : right.order < left.order :=
          order_lt_iff.mpr ⟨index, inside, equal.symm, by simpa [zero] using differ, zero⟩
        exact absurd same (ne_of_gt less)

theorem family_bit (rom : Rom) (index : Nat) (inside : index < 8) :
    rom.family.toBitVec.getLsbD index = rom.bit index := by
  change (BitVec.ofNat 8 (rom.code.toNat % 2 ^ 8)).getLsbD index = rom.code.getLsbD index
  rw [BitVec.getLsbD_ofNat, Nat.testBit_mod_two_pow, BitVec.testBit_toNat]
  simp [inside]

theorem family_eq_iff : left.family = right.family ↔ left.agrees right 8 := by
  constructor
  · intro same index inside
    rw [← family_bit left index inside, ← family_bit right index inside, same]
  · intro same
    apply UInt8.toBitVec_inj.mp
    apply BitVec.eq_of_getLsbD_eq
    intro index inside
    rw [family_bit left index inside, family_bit right index inside, same index inside]

theorem familyOrder_lt_iff : left.familyOrder < right.familyOrder ↔ left.precedes right 8 := by
  unfold familyOrder
  rw [reverse_lt_iff]
  constructor
  · rintro ⟨index, inside, same, zero, one⟩
    refine ⟨index, inside, ?_, ?_, ?_⟩
    · intro before earlier
      have early : before < 8 := earlier.trans inside
      rw [← family_bit left before early, ← family_bit right before early, same before earlier]
    · rw [← family_bit left index inside, zero]
    · rw [← family_bit right index inside, one]
  · rintro ⟨index, inside, same, zero, one⟩
    refine ⟨index, inside, ?_, ?_, ?_⟩
    · intro before earlier
      have early : before < 8 := earlier.trans inside
      rw [family_bit left before early, family_bit right before early, same before earlier]
    · rw [family_bit left index inside, zero]
    · rw [family_bit right index inside, one]

theorem precedes_of_family_ne (before : left.order < right.order) (other : left.family ≠ right.family) :
    left.precedes right 8 := by
  obtain ⟨index, inside, shared, low, high⟩ := order_lt_iff.mp before
  refine ⟨index, ?_, shared, low, high⟩
  by_contra outside
  exact other (family_eq_iff.mpr (shared.mono (by omega)))

theorem family_ne_zero_of_order_lt (before : left.order < right.order) (family : left.family ≠ 0) :
    right.family ≠ 0 := by
  intro zero
  have differ : left.family ≠ right.family := by rwa [zero]
  obtain ⟨index, inside, -, -, high⟩ := precedes_of_family_ne before differ
  rw [← family_bit right index inside, zero] at high
  simp at high

theorem family_eq_of_between {middle : Rom} (above : left.order < middle.order)
    (below : middle.order < right.order) (same : left.family = right.family) :
    middle.family = left.family := by
  by_contra other
  obtain ⟨index, inside, shared, low, high⟩ := precedes_of_family_ne above (Ne.symm other)
  have along : right.agrees left 8 := family_eq_iff.mp same.symm
  have greater : right.order < middle.order := by
    apply order_lt_iff.mpr
    refine ⟨index, by omega, (along.mono inside.le).trans shared, ?_, high⟩
    rw [along index inside, low]
  exact absurd (below.trans greater) (lt_irrefl _)

/-- The distinct codes of a list in the order of a search. -/
def inOrder (roms : List Rom) : List Rom :=
  roms.dedup.mergeSort fun left right => decide (left.order ≤ right.order)

@[simp] theorem mem_inOrder {rom : Rom} {roms : List Rom} : rom ∈ inOrder roms ↔ rom ∈ roms := by
  simp [inOrder]

theorem inOrder_pairwise (roms : List Rom) :
    (inOrder roms).Pairwise fun left right => left.order < right.order := by
  have decided : (inOrder roms).Pairwise fun left right => decide (left.order ≤ right.order) :=
    List.pairwise_mergeSort (by intro first second third; simpa using le_trans)
      (by intro first second; simpa using le_total first.order second.order) roms.dedup
  have sorted : (inOrder roms).Pairwise fun left right => left.order ≤ right.order :=
    decided.imp of_decide_eq_true
  have distinct : (inOrder roms).Nodup :=
    (List.mergeSort_perm roms.dedup _).nodup_iff.mpr roms.nodup_dedup
  refine (sorted.and distinct).imp ?_
  rintro left right ⟨less, differ⟩
  exact lt_of_le_of_ne less (order_injective.ne differ)

theorem inOrder_eq {roms sorted : List Rom}
    (ascending : sorted.Pairwise fun left right => left.order < right.order)
    (same : ∀ rom, rom ∈ sorted ↔ rom ∈ roms) : inOrder roms = sorted := by
  have distinct : ∀ {list : List Rom},
      (list.Pairwise fun left right => left.order < right.order) → list.Nodup :=
    fun pairs => pairs.imp fun less equal => absurd less (by rw [equal]; exact lt_irrefl _)
  have permuted : (inOrder roms).Perm sorted :=
    (List.perm_ext_iff_of_nodup (distinct (inOrder_pairwise roms)) (distinct ascending)).mpr
      fun rom => mem_inOrder.trans (same rom).symm
  have antisymmetric : ∀ left ∈ inOrder roms, ∀ right ∈ sorted,
      left.order < right.order → right.order < left.order → left = right := by
    intro left _ right _ less greater
    exact absurd (less.trans greater) (lt_irrefl _)
  exact permuted.eq_of_pairwise (fun left right listed other => antisymmetric left listed right other)
    (inOrder_pairwise roms) ascending

theorem eq_of_ascending {first second : List Rom}
    (ascending : first.Pairwise fun left right => left.order < right.order)
    (also : second.Pairwise fun left right => left.order < right.order)
    (same : ∀ rom, rom ∈ first ↔ rom ∈ second) : first = second :=
  calc
    first = inOrder second := (inOrder_eq ascending same).symm
    _ = second := inOrder_eq also fun _ => Iff.rfl

def lowest (codes : List Rom) (property : Rom → Bool) : Option Rom :=
  (inOrder codes).find? property

theorem lowest_eq_none_iff {codes : List Rom} {property : Rom → Bool} :
    lowest codes property = none ↔ ∀ code ∈ codes, property code = false := by
  simp [lowest]

theorem lowest_eq_some {codes : List Rom} {property : Rom → Bool} {code : Rom}
    (found : lowest codes property = some code) :
    code ∈ codes ∧ property code = true ∧
      ∀ other ∈ codes, property other = true → other = code ∨ code.order < other.order := by
  have sorted := inOrder_pairwise codes
  obtain ⟨holds, before, behind, split, without⟩ := List.find?_eq_some_iff_append.mp found
  have member : code ∈ inOrder codes := by rw [split]; simp
  refine ⟨mem_inOrder.mp member, holds, ?_⟩
  intro other present other_holds
  have listed : other ∈ before ++ code :: behind := split ▸ mem_inOrder.mpr present
  rw [split] at sorted
  rcases List.mem_append.mp listed with early | rest
  · have fails := without other early
    rw [other_holds] at fails
    cases fails
  · rcases List.mem_cons.mp rest with same | late
    · exact .inl same
    · exact .inr (List.rel_of_pairwise_cons (List.pairwise_append.mp sorted).2.1 late)

theorem lowest_eq_of_least {codes : List Rom} {property : Rom → Bool} {code : Rom}
    (member : code ∈ codes) (holds : property code = true)
    (least : ∀ other ∈ codes, property other = true → code = other ∨ code.order < other.order) :
    lowest codes property = some code := by
  cases found : lowest codes property with
  | none =>
      rw [lowest_eq_none_iff.mp found code member] at holds
      cases holds
  | some first =>
      obtain ⟨present, first_holds, first_least⟩ := lowest_eq_some found
      rcases first_least code member holds with same | later
      · rw [same]
      · rcases least first present first_holds with same | earlier
        · rw [same]
        · exact absurd (later.trans earlier) (lt_irrefl _)

end Rom

end SingleWire
