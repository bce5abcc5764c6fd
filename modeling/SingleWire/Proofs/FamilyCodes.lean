import Mathlib.Data.Nat.Digits.Defs
import SingleWire.Command.FamilyCode
import SingleWire.Proofs.RomText

namespace SingleWire

namespace Integer

variable {digit? : Char → Option Nat} {base limit start digit : Nat} {beyond : IntegerError}
  {char : Char} {chars : List Char} {digits : List Nat}

def valueFrom (base start : Nat) (digits : List Nat) : Nat :=
  digits.foldl (fun value digit => base * value + digit) start

abbrev Digits (digit? : Char → Option Nat) : List Char → List Nat → Prop :=
  List.Forall₂ fun char digit => digit? char = some digit

/-- Digits at the front of the characters lead past the limit. -/
def Exceeds (digit? : Char → Option Nat) (base limit start : Nat) (chars : List Char) : Prop :=
  ∃ front back digits, chars = front ++ back ∧ Digits digit? front digits ∧
    limit < valueFrom base start digits

theorem valueFrom_zero (base : Nat) (digits : List Nat) :
    valueFrom base 0 digits = Nat.ofDigits base digits.reverse := by
  rw [Nat.ofDigits_eq_foldr, List.foldr_reverse, valueFrom]
  simp only [Nat.cast_id, Nat.add_comm]

theorem le_valueFrom (positive : 0 < base) (start : Nat) (digits : List Nat) :
    start ≤ valueFrom base start digits := by
  induction digits generalizing start with
  | nil => exact Nat.le_refl start
  | cons digit rest ih =>
      calc
        start ≤ base * start := Nat.le_mul_of_pos_left start positive
        _ ≤ base * start + digit := Nat.le_add_right _ _
        _ ≤ valueFrom base (base * start + digit) rest := ih _

theorem digits_cons (read : digit? char = some digit) :
    Digits digit? (char :: chars) digits ↔
      ∃ others, digits = digit :: others ∧ Digits digit? chars others := by
  rw [Digits, List.forall₂_cons_left_iff, read]
  constructor
  · rintro ⟨first, others, same, written, rfl⟩
    cases same
    exact ⟨others, rfl, written⟩
  · rintro ⟨others, rfl, written⟩
    exact ⟨digit, others, rfl, written, rfl⟩

theorem not_digits_stray (stray : digit? char = none) : ¬ Digits digit? (char :: chars) digits := by
  rw [Digits, List.forall₂_cons_left_iff, stray]
  rintro ⟨first, others, same, -⟩
  cases same

section

variable (within : start ≤ limit)
include within

theorem not_exceeds_nil : ¬ Exceeds digit? base limit start [] := by
  rintro ⟨front, back, digits, split, written, large⟩
  obtain ⟨rfl, -⟩ := List.append_eq_nil_iff.mp split.symm
  cases written
  exact absurd large (Nat.not_lt_of_le within)

theorem not_exceeds_stray (stray : digit? char = none) :
    ¬ Exceeds digit? base limit start (char :: chars) := by
  rintro ⟨front, back, digits, split, written, large⟩
  cases front with
  | nil =>
      cases written
      exact absurd large (Nat.not_lt_of_le within)
  | cons first front =>
      obtain ⟨rfl, -⟩ := List.cons.inj split
      exact not_digits_stray stray written

theorem exceeds_cons (read : digit? char = some digit) :
    Exceeds digit? base limit start (char :: chars) ↔
      Exceeds digit? base limit (base * start + digit) chars := by
  constructor
  · rintro ⟨front, back, digits, split, written, large⟩
    cases front with
    | nil =>
        cases written
        exact absurd large (Nat.not_lt_of_le within)
    | cons first front =>
        obtain ⟨rfl, rfl⟩ := List.cons.inj split
        obtain ⟨others, rfl, rest⟩ := (digits_cons read).mp written
        exact ⟨front, back, others, rfl, rest, large⟩
  · rintro ⟨front, back, digits, rfl, written, large⟩
    exact ⟨char :: front, back, digit :: digits, rfl, .cons read written, large⟩

theorem magnitude_eq_beyond_iff (other : beyond ≠ .invalidDigit) :
    magnitude digit? base limit beyond start chars = .error beyond ↔
      Exceeds digit? base limit start chars := by
  induction chars generalizing start with
  | nil => exact iff_of_false (fun ended => by cases ended) (not_exceeds_nil within)
  | cons char rest ih =>
      rw [magnitude]
      cases read : digit? char with
      | none =>
          refine iff_of_false ?_ (not_exceeds_stray within read)
          intro stopped
          exact other (Except.error.inj stopped).symm
      | some digit =>
          rw [exceeds_cons within read]
          dsimp only
          split
          · rename_i large
            exact iff_of_true rfl ⟨[], rest, [], rfl, .nil, large⟩
          · rename_i under
            exact ih (Nat.le_of_not_lt under)

theorem magnitude_eq_ok_iff (positive : 0 < base) (value : Nat) :
    magnitude digit? base limit beyond start chars = .ok value ↔
      ∃ digits, Digits digit? chars digits ∧ valueFrom base start digits = value ∧
        value ≤ limit := by
  induction chars generalizing start with
  | nil =>
      constructor
      · intro ended
        cases ended
        exact ⟨[], .nil, rfl, within⟩
      · rintro ⟨digits, written, rfl, -⟩
        cases written
        rfl
  | cons char rest ih =>
      rw [magnitude]
      cases read : digit? char with
      | none =>
          refine iff_of_false (fun stopped => by cases stopped) ?_
          rintro ⟨digits, written, -⟩
          exact not_digits_stray read written
      | some digit =>
          simp only [digits_cons read]
          split
          · rename_i large
            refine iff_of_false (fun stopped => by cases stopped) ?_
            rintro ⟨digits, ⟨others, rfl, written⟩, rfl, small⟩
            have passed : base * start + digit ≤ valueFrom base start (digit :: others) :=
              le_valueFrom positive _ others
            omega
          · rename_i under
            rw [ih (Nat.le_of_not_lt under)]
            constructor
            · rintro ⟨others, written, reached⟩
              exact ⟨digit :: others, ⟨others, rfl, written⟩, reached⟩
            · rintro ⟨digits, ⟨others, rfl, written⟩, reached⟩
              exact ⟨others, written, reached⟩

end

def behindSign : List Char → List Char
  | '+' :: rest => rest
  | chars => chars

theorem magnitude_error_cases {error : IntegerError}
    (stopped : magnitude digit? base limit beyond start chars = .error error) :
    error = .invalidDigit ∨ error = beyond := by
  induction chars generalizing start with
  | nil => cases stopped
  | cons char rest ih =>
      rw [magnitude] at stopped
      cases read : digit? char with
      | none =>
          rw [read] at stopped
          exact .inl (Except.error.inj stopped).symm
      | some digit =>
          rw [read] at stopped
          dsimp only at stopped
          split at stopped
          · exact .inr (Except.error.inj stopped).symm
          · exact ih stopped

theorem unsigned_eq (digit? : Char → Option Nat) (base limit : Nat) (chars : List Char) :
    unsigned digit? base limit chars =
      if chars = [] then .error .empty
      else if behindSign chars = [] then .error .invalidDigit
      else magnitude digit? base limit .tooLarge 0 (behindSign chars) := by
  unfold unsigned
  split
  · rfl
  · rfl
  · rename_i rest lone
    have more : rest ≠ [] := fun none => lone (by rw [none])
    rw [if_neg (List.cons_ne_nil _ _), behindSign, if_neg more]
  · rename_i digits empty lone signed
    have kept : behindSign chars = chars := by
      unfold behindSign
      split
      · rename_i rest
        exact absurd rfl (signed rest)
      · rfl
    rw [kept, if_neg empty, if_neg empty]

theorem unsigned_error_cases {error : IntegerError}
    (refused : unsigned digit? base limit chars = .error error) :
    error = .empty ∧ chars = [] ∨ error = .invalidDigit ∨ error = .tooLarge := by
  rw [unsigned_eq] at refused
  split at refused
  · rename_i none
    exact .inl ⟨(Except.error.inj refused).symm, none⟩
  · split at refused
    · exact .inr (.inl (Except.error.inj refused).symm)
    · exact .inr (magnitude_error_cases refused)

theorem unsigned_eq_empty_iff : unsigned digit? base limit chars = .error .empty ↔ chars = [] := by
  constructor
  · intro refused
    rcases unsigned_error_cases refused with ⟨-, none⟩ | other | other
    · exact none
    · cases other
    · cases other
  · rintro rfl
    rfl

theorem unsigned_eq_tooLarge_iff :
    unsigned digit? base limit chars = .error .tooLarge ↔
      Exceeds digit? base limit 0 (behindSign chars) := by
  by_cases none : behindSign chars = []
  · rw [none, unsigned_eq, if_pos none]
    refine iff_of_false ?_ (not_exceeds_nil (Nat.zero_le limit))
    split
    · intro refused
      cases refused
    · intro refused
      cases refused
  · have some : chars ≠ [] := by
      rintro rfl
      exact none rfl
    rw [unsigned_eq, if_neg some, if_neg none]
    exact magnitude_eq_beyond_iff (Nat.zero_le limit) (by decide)

theorem unsigned_eq_ok_iff (positive : 0 < base) (value : Nat) :
    unsigned digit? base limit chars = .ok value ↔
      ∃ digits, digits ≠ [] ∧ Digits digit? (behindSign chars) digits ∧
        valueFrom base 0 digits = value ∧ value ≤ limit := by
  by_cases none : behindSign chars = []
  · rw [none, unsigned_eq, if_pos none]
    constructor
    · split
      · intro read
        cases read
      · intro read
        cases read
    · rintro ⟨digits, some, written, -⟩
      cases written
      exact absurd rfl some
  · have some : chars ≠ [] := by
      rintro rfl
      exact none rfl
    rw [unsigned_eq, if_neg some, if_neg none, magnitude_eq_ok_iff (Nat.zero_le limit) positive]
    constructor
    · rintro ⟨digits, written, reached⟩
      refine ⟨digits, ?_, written, reached⟩
      rintro rfl
      exact none (List.forall₂_nil_right_iff.mp written)
    · rintro ⟨digits, -, written, reached⟩
      exact ⟨digits, written, reached⟩

end Integer

namespace FamilyCode

def leads : List String := ["", "0x", "0X", "+", "0x+", "0X+"]

def digitsBehind (text : String) : List Char :=
  Integer.behindSign (afterPrefix text.toList)

/-- Behind what may stand before them a text has digits of these values, and nothing else. -/
def Spells (text : String) (digits : List Nat) : Prop :=
  ∃ lead ∈ leads, ∃ chars, text.toList = lead.toList ++ chars ∧ List.Forall₂ Hex.Writes chars digits

/-- A run of digits that begins where the digits of a text do has a value above 255. -/
def Overflows (text : String) : Prop :=
  ∃ lead ∈ leads, ∃ front back digits, text.toList = lead.toList ++ (front ++ back) ∧
    List.Forall₂ Hex.Writes front digits ∧ 255 < Nat.ofDigits 16 digits.reverse

variable {text : String} {lead : String} {chars front back : List Char} {digits : List Nat}

theorem exists_lead (text : String) :
    ∃ lead ∈ leads, text.toList = lead.toList ++ digitsBehind text := by
  have signed : ∀ chars, ∃ sign ∈ [[], ['+']], chars = sign ++ Integer.behindSign chars := by
    intro chars
    unfold Integer.behindSign
    split
    · exact ⟨['+'], by simp, rfl⟩
    · exact ⟨[], by simp, rfl⟩
  have prefixed : ∀ chars, ∃ opening ∈ [[], ['0', 'x'], ['0', 'X']],
      chars = opening ++ afterPrefix chars := by
    intro chars
    unfold afterPrefix
    split
    · exact ⟨['0', 'x'], by simp, rfl⟩
    · exact ⟨['0', 'X'], by simp, rfl⟩
    · exact ⟨[], by simp, rfl⟩
  obtain ⟨opening, known, split⟩ := prefixed text.toList
  obtain ⟨sign, either, rest⟩ := signed (afterPrefix text.toList)
  refine ⟨String.ofList (opening ++ sign), ?_, ?_⟩
  · simp only [List.mem_cons, List.not_mem_nil, or_false] at known either
    rcases known with rfl | rfl | rfl <;> rcases either with rfl | rfl <;> decide
  · rw [String.toList_ofList, List.append_assoc, digitsBehind, ← rest, ← split]

theorem digitsBehind_lead (known : lead ∈ leads) (split : text.toList = lead.toList ++ chars)
    (plain : ∀ char ∈ chars.take 2, Hex.isDigit char = true) : digitsBehind text = chars := by
  have unsigned : Integer.behindSign chars = chars := by
    unfold Integer.behindSign
    split
    · exact absurd (plain '+' (by simp)) (by decide)
    · rfl
  have unprefixed : afterPrefix chars = chars := by
    unfold afterPrefix
    split
    · exact absurd (plain 'x' (by simp)) (by decide)
    · exact absurd (plain 'X' (by simp)) (by decide)
    · rfl
  rw [digitsBehind, split]
  simp only [leads, List.mem_cons, List.not_mem_nil, or_false] at known
  rcases known with rfl | rfl | rfl | rfl | rfl | rfl
  · exact (congrArg Integer.behindSign unprefixed).trans unsigned
  · exact unsigned
  · exact unsigned
  · rfl
  · rfl
  · rfl

theorem digits_hex : Integer.Digits Hex.value? = List.Forall₂ Hex.Writes := by
  rw [Integer.Digits]
  simp only [Hex.value?_eq_some_iff]

theorem spells_iff : Spells text digits ↔ Integer.Digits Hex.value? (digitsBehind text) digits := by
  rw [digits_hex]
  constructor
  · rintro ⟨lead, known, chars, split, written⟩
    have plain := (Hex.exists_written_iff chars).mp ⟨digits, written⟩
    rwa [digitsBehind_lead known split fun char early => plain char (List.mem_of_mem_take early)]
  · intro written
    obtain ⟨lead, known, split⟩ := exists_lead text
    exact ⟨lead, known, digitsBehind text, split, written⟩

theorem overflows_iff : Overflows text ↔ Integer.Exceeds Hex.value? 16 255 0 (digitsBehind text) := by
  simp only [Integer.Exceeds, Integer.valueFrom_zero, digits_hex]
  constructor
  · rintro ⟨lead, known, front, back, digits, split, written, large⟩
    refine ⟨front, back, digits, digitsBehind_lead known split ?_, written, large⟩
    have small : ∀ digit ∈ digits.reverse, digit < 16 := fun digit member =>
      Hex.lt_of_written written digit (List.mem_reverse.mp member)
    have bound : Nat.ofDigits 16 digits.reverse < 16 ^ digits.reverse.length :=
      Nat.ofDigits_lt_base_pow_length (by decide) small
    -- One digit is never too large, so neither a prefix nor a sign cuts into these.
    have two : 2 ≤ front.length := by
      rw [written.length_eq]
      by_contra few
      have least : 16 ^ digits.length ≤ 16 ^ 1 := Nat.pow_le_pow_right (by decide) (by omega)
      rw [List.length_reverse] at bound
      omega
    intro char early
    rw [List.take_append_of_le_length two] at early
    exact (Hex.exists_written_iff front).mp ⟨digits, written⟩ char (List.mem_of_mem_take early)
  · rintro ⟨front, back, digits, split, written, large⟩
    obtain ⟨lead, known, whole⟩ := exists_lead text
    exact ⟨lead, known, front, back, digits, split ▸ whole, written, large⟩

theorem afterPrefix_eq_nil_iff : afterPrefix text.toList = [] ↔ text ∈ ["", "0x", "0X"] := by
  constructor
  · intro none
    have split : text.toList ∈ [[], ['0', 'x'], ['0', 'X']] := by
      unfold afterPrefix at none
      split at none
      · rename_i rest same
        rw [same, none]
        simp
      · rename_i rest same
        rw [same, none]
        simp
      · rw [none]
        simp
    rw [← String.ofList_toList (s := text)]
    simp only [List.mem_cons, List.not_mem_nil, or_false] at split
    rcases split with same | same | same <;> rw [same] <;> decide
  · intro known
    simp only [List.mem_cons, List.not_mem_nil, or_false] at known
    rcases known with rfl | rfl | rfl <;> rfl

theorem read_eq_ok_iff (text : String) (value : UInt8) :
    read text = .ok value ↔
      ∃ digits, digits ≠ [] ∧ Spells text digits ∧
        Nat.ofDigits 16 digits.reverse = value.toNat := by
  have behind : Integer.behindSign (afterPrefix text.toList) = digitsBehind text := rfl
  rw [read, map_eq_ok_iff]
  simp only [Integer.unsigned_eq_ok_iff (by decide : 0 < 16), behind, ← spells_iff,
    Integer.valueFrom_zero]
  constructor
  · rintro ⟨total, ⟨digits, some, written, rfl, small⟩, rfl⟩
    refine ⟨digits, some, written, ?_⟩
    rw [UInt8.toNat_ofNat', Nat.mod_eq_of_lt (by omega)]
  · rintro ⟨digits, some, written, same⟩
    have small : value.toNat ≤ 255 := Nat.le_of_lt_succ value.toNat_lt
    exact ⟨value.toNat, ⟨digits, some, written, same, small⟩, UInt8.ofNat_toNat⟩

theorem read_eq_empty_iff (text : String) :
    read text = .error .empty ↔ text ∈ ["", "0x", "0X"] := by
  rw [read, map_eq_error_iff, Integer.unsigned_eq_empty_iff, afterPrefix_eq_nil_iff]

theorem read_eq_tooLarge_iff (text : String) : read text = .error .tooLarge ↔ Overflows text := by
  rw [read, map_eq_error_iff, Integer.unsigned_eq_tooLarge_iff, ← digitsBehind, overflows_iff]

theorem read_ne_tooSmall (text : String) : read text ≠ .error .tooSmall := by
  intro refused
  rw [read, map_eq_error_iff] at refused
  rcases Integer.unsigned_error_cases refused with ⟨other, -⟩ | other | other
  · cases other
  · cases other
  · cases other

theorem Spells.overflows (written : Spells text digits)
    (large : 255 < Nat.ofDigits 16 digits.reverse) : Overflows text := by
  obtain ⟨lead, known, chars, split, written⟩ := written
  exact ⟨lead, known, chars, [], digits, by rw [List.append_nil, split], written, large⟩

theorem exists_read_iff (text : String) :
    (∃ value, read text = .ok value) ↔
      ∃ digits, digits ≠ [] ∧ Spells text digits ∧ Nat.ofDigits 16 digits.reverse ≤ 255 := by
  constructor
  · rintro ⟨value, ok⟩
    obtain ⟨digits, some, written, same⟩ := (read_eq_ok_iff text value).mp ok
    exact ⟨digits, some, written, same ▸ Nat.le_of_lt_succ value.toNat_lt⟩
  · rintro ⟨digits, some, written, small⟩
    refine ⟨UInt8.ofNat (Nat.ofDigits 16 digits.reverse), ?_⟩
    refine (read_eq_ok_iff text _).mpr ⟨digits, some, written, ?_⟩
    rw [UInt8.toNat_ofNat', Nat.mod_eq_of_lt (by omega)]

theorem Spells.read_cases (written : Spells text digits) (some : digits ≠ []) :
    (∃ value, read text = .ok value) ∨ read text = .error .tooLarge := by
  by_cases small : Nat.ofDigits 16 digits.reverse ≤ 255
  · exact .inl ((exists_read_iff text).mpr ⟨digits, some, written, small⟩)
  · have overflows := written.overflows (Nat.lt_of_not_le small)
    exact .inr ((read_eq_tooLarge_iff text).mpr overflows)

theorem read_eq_invalidDigit_iff (text : String) :
    read text = .error .invalidDigit ↔
      text ∉ ["", "0x", "0X"] ∧ ¬ Overflows text ∧ ¬ ∃ digits, digits ≠ [] ∧ Spells text digits := by
  rw [← read_eq_empty_iff, ← read_eq_tooLarge_iff]
  constructor
  · intro stray
    rw [stray]
    refine ⟨by simp, by simp, ?_⟩
    rintro ⟨digits, some, written⟩
    rcases written.read_cases some with ⟨value, ok⟩ | large
    · cases stray.symm.trans ok
    · cases stray.symm.trans large
  · rintro ⟨more, under, other⟩
    cases outcome : read text with
    | ok value =>
        obtain ⟨digits, some, written, -⟩ := (read_eq_ok_iff text value).mp outcome
        exact absurd ⟨digits, some, written⟩ other
    | error error =>
        cases error with
        | empty => exact absurd outcome more
        | tooLarge => exact absurd outcome under
        | tooSmall => exact absurd outcome (read_ne_tooSmall text)
        | invalidDigit => rfl

/-- A text reads as a family code exactly if it has digits of this value, one at least, behind an
optional prefix and an optional plus sign. Any other text is refused: as empty if nothing stands
behind the prefix, as too large if the digits pass 255, whatever comes behind them, and otherwise
because what stands there is not made of digits. -/
theorem read_outcomes (text : String) :
    (∀ value : UInt8, read text = .ok value ↔
      ∃ digits, digits ≠ [] ∧ Spells text digits ∧
        Nat.ofDigits 16 digits.reverse = value.toNat) ∧
    ((∃ error, read text = .error error) ↔
      ¬ ∃ digits, digits ≠ [] ∧ Spells text digits ∧ Nat.ofDigits 16 digits.reverse ≤ 255) ∧
    (read text = .error .empty ↔ text ∈ ["", "0x", "0X"]) ∧
    (read text = .error .tooLarge ↔ Overflows text) ∧
    (read text = .error .invalidDigit ↔
      text ∉ ["", "0x", "0X"] ∧ ¬ Overflows text ∧ ¬ ∃ digits, digits ≠ [] ∧ Spells text digits) := by
  refine ⟨read_eq_ok_iff text, ?_, read_eq_empty_iff text, read_eq_tooLarge_iff text,
    read_eq_invalidDigit_iff text⟩
  rw [← exists_read_iff]
  cases read text with
  | ok value => simp
  | error error => simp

theorem read_outcomes_leading_zeros : read "0X+0000fF" = .ok 255 := by
  refine ((read_outcomes _).1 255).mpr ⟨[0, 0, 0, 0, 15, 15], by decide, ?_, by decide⟩
  refine ⟨"0X+", by decide, ['0', '0', '0', '0', 'f', 'F'], by decide, ?_⟩
  have zero : Hex.Writes '0' 0 := .inl rfl
  exact .cons zero (.cons zero (.cons zero (.cons zero (.cons (.inl rfl) (.cons (.inr rfl) .nil)))))

/-- A second prefix, a minus sign, and a value that is too large before a stray character. -/
example : read "0x0x10" = .error .invalidDigit ∧ read "-28" = .error .invalidDigit ∧
    read "100z" = .error .tooLarge := by
  decide

end FamilyCode

end SingleWire
