import Mathlib.Data.List.Forall2
import SingleWire.Proofs.Bytes
import SingleWire.Rom.Text

namespace SingleWire

namespace Hex

def lowerCase : List Char :=
  ['0', '1', '2', '3', '4', '5', '6', '7', '8', '9', 'a', 'b', 'c', 'd', 'e', 'f']

def upperCase : List Char :=
  ['0', '1', '2', '3', '4', '5', '6', '7', '8', '9', 'A', 'B', 'C', 'D', 'E', 'F']

/-- The character is the digit of this value, in one case or the other. -/
def Writes (char : Char) (value : Nat) : Prop :=
  lowerCase[value]? = some char ∨ upperCase[value]? = some char

def isDigit (char : Char) : Bool :=
  lowerCase.contains char || upperCase.contains char

theorem digit_eq {value : Nat} (small : value < 16) : digit value = lowerCase.getD value '0' := by
  have table : ∀ v : Fin 16, digit v = lowerCase.getD v '0' := by decide
  exact table ⟨value, small⟩

theorem Writes.lt {char : Char} {value : Nat} (writes : Writes char value) : value < 16 := by
  rcases writes with lower | upper
  · exact (List.getElem?_eq_some_iff.mp lower).1
  · exact (List.getElem?_eq_some_iff.mp upper).1

theorem forall_ascii (property : Char → Prop)
    (table : ∀ code < 128, property (Char.ofNat code)) {char : Char} (ascii : char.toNat < 128) :
    property char := by
  have entry := table char.toNat ascii
  rwa [Char.ofNat_toNat] at entry

theorem toNat_lt_of_value? {char : Char} {value : Nat} (read : value? char = some value) :
    char.toNat < 128 := by
  have below : ∀ top : Char, top.toNat < 128 → char ≤ top → char.toNat < 128 := by
    intro top ascii under
    exact lt_of_le_of_lt under ascii
  unfold value? at read
  split at read
  · next range => exact below '9' (by decide) range.2
  · split at read
    · next range => exact below 'f' (by decide) range.2
    · split at read
      · next range => exact below 'F' (by decide) range.2
      · cases read

theorem value?_eq_some_iff (char : Char) (value : Nat) :
    value? char = some value ↔ Writes char value := by
  constructor
  · intro read
    have written : ∀ found ∈ value? char,
        lowerCase[found]? = some char ∨ upperCase[found]? = some char :=
      forall_ascii (fun char => ∀ found ∈ value? char,
        lowerCase[found]? = some char ∨ upperCase[found]? = some char)
        (by decide +kernel) (toNat_lt_of_value? read)
    exact written value read
  · intro writes
    have table : ∀ v : Fin 16, ∀ written ∈ [lowerCase[v.val]?, upperCase[v.val]?],
        written.bind value? = some v.val := by decide +kernel
    have entry := table ⟨value, writes.lt⟩
    rcases writes with lower | upper
    · simpa [lower] using entry lowerCase[value]? (by simp)
    · simpa [upper] using entry upperCase[value]? (by simp)

theorem isDigit_iff (char : Char) : isDigit char = true ↔ ∃ value, Writes char value := by
  rw [isDigit, Bool.or_eq_true, List.contains_iff_mem, List.contains_iff_mem, List.mem_iff_getElem?,
    List.mem_iff_getElem?, ← exists_or]
  rfl

theorem Writes.unique {char : Char} {first second : Nat} (one : Writes char first)
    (other : Writes char second) : first = second := by
  rw [← value?_eq_some_iff] at one other
  exact Option.some.inj (one.symm.trans other)

theorem lt_of_written {chars : List Char} {values : List Nat}
    (written : List.Forall₂ Writes chars values) : ∀ value ∈ values, value < 16 := by
  induction written with
  | nil => simp
  | cons writes _ ih => exact List.forall_mem_cons.mpr ⟨writes.lt, ih⟩

theorem exists_written_iff (chars : List Char) :
    (∃ values, List.Forall₂ Writes chars values) ↔ ∀ char ∈ chars, isDigit char = true := by
  induction chars with
  | nil => exact iff_of_true ⟨[], .nil⟩ (by simp)
  | cons char rest ih =>
      rw [List.forall_mem_cons, ← ih, isDigit_iff]
      constructor
      · rintro ⟨values, written⟩
        cases written with
        | cons writes others => exact ⟨⟨_, writes⟩, _, others⟩
      · rintro ⟨⟨value, writes⟩, values, others⟩
        exact ⟨value :: values, .cons writes others⟩

theorem value?_eq_none_iff (char : Char) : value? char = none ↔ isDigit char = false := by
  rw [← Bool.not_eq_true, isDigit_iff, Option.eq_none_iff_forall_ne_some]
  simp [value?_eq_some_iff]

theorem writes_of_toLower {char : Char} {value : Nat}
    (same : lowerCase[value]? = some char.toLower) : Writes char value := by
  by_cases ascii : char.toNat < 128
  · have small : value < 16 := (List.getElem?_eq_some_iff.mp same).1
    exact forall_ascii (fun char => ∀ v < 16, lowerCase[v]? = some char.toLower →
      lowerCase[v]? = some char ∨ upperCase[v]? = some char)
      (by decide +kernel) ascii value small same
  · have kept : char.toLower = char := by
      apply dif_neg
      intro upper
      exact ascii (lt_of_le_of_lt upper.2 (by decide : 'Z'.toNat < 128))
    rw [kept] at same
    exact .inl same

end Hex

section

variable {ε α β : Type} {read : Except ε α} {build : α → β}

theorem map_eq_ok_iff {built : β} :
    read.map build = .ok built ↔ ∃ found, read = .ok found ∧ build found = built := by
  cases read <;> simp [Except.map]

theorem map_eq_error_iff {error : ε} :
    read.map build = .error error ↔ read = .error error := by
  cases read <;> simp [Except.map]

end

namespace Rom

def halvesOf (bytes : List UInt8) : List Nat :=
  bytes.flatMap fun byte => [byte.toNat / 16, byte.toNat % 16]

/-- What is left of a text without its colons and hyphens. -/
def digitsOf (text : String) : List Char :=
  text.toList.filter fun char => char ≠ ':' ∧ char ≠ '-'

/-- A character that is neither separator nor digit stands behind at most `room` digits. -/
def Offends (chars : List Char) (room : Nat) : Prop :=
  ∃ front char back, chars = front ++ char :: back ∧ (char ≠ ':' ∧ char ≠ '-') ∧
    Hex.isDigit char = false ∧ front.countP Hex.isDigit ≤ room

def spelling (rom : Rom) : List Char :=
  rom.bytes.flatMap fun byte =>
    [Hex.lowerCase.getD (byte.toNat / 16) '0', Hex.lowerCase.getD (byte.toNat % 16) '0']

theorem text_eq (rom : Rom) : rom.text = String.ofList rom.spelling := by
  have halves : ∀ byte : UInt8, Hex.ofByte byte =
      [Hex.lowerCase.getD (byte.toNat / 16) '0', Hex.lowerCase.getD (byte.toNat % 16) '0'] := by
    intro byte
    have small : byte.toNat < 256 := byte.toNat_lt
    rw [Hex.ofByte, Hex.digit_eq (by omega), Hex.digit_eq (by omega)]
  rw [text, Hex.ofBytes, spelling, funext halves]

theorem spelling_eq (rom : Rom) :
    rom.spelling.map some = (halvesOf rom.bytes).map fun half => Hex.lowerCase[half]? := by
  have digit : ∀ half < 16, some (Hex.lowerCase.getD half '0') = Hex.lowerCase[half]? := by decide
  rw [spelling, halvesOf, List.map_flatMap, List.map_flatMap]
  congr 1
  funext byte
  have small : byte.toNat < 256 := byte.toNat_lt
  simp only [List.map_cons, List.map_nil, digit (byte.toNat / 16) (by omega),
    digit (byte.toNat % 16) (by omega)]

theorem mem_lowerCase_of_mem_spelling {rom : Rom} {char : Char} (member : char ∈ rom.spelling) :
    char ∈ Hex.lowerCase := by
  have written : some char ∈ rom.spelling.map some := List.mem_map_of_mem member
  rw [spelling_eq] at written
  obtain ⟨half, -, entry⟩ := List.mem_map.mp written
  exact List.mem_of_getElem? entry

theorem isSeparator_eq_false_iff {char : Char} :
    isSeparator char = false ↔ char ≠ ':' ∧ char ≠ '-' := by
  simp [isSeparator]

theorem digitsOf_eq (text : String) :
    digitsOf text = text.toList.filter fun char => !isSeparator char := by
  apply List.filter_congr
  intro char _
  rw [Bool.eq_iff_iff]
  simp [isSeparator]

theorem isDigit_separator {char : Char} (separator : isSeparator char = true) :
    Hex.isDigit char = false := by
  rw [isSeparator, Bool.or_eq_true, beq_iff_eq, beq_iff_eq] at separator
  rcases separator with rfl | rfl
  · decide
  · decide

theorem isSeparator_digit {char : Char} {value : Nat} (writes : Hex.Writes char value) :
    isSeparator char = false := by
  have digit := (Hex.isDigit_iff char).mpr ⟨value, writes⟩
  by_contra separator
  rw [isDigit_separator (Bool.eq_true_of_not_eq_false separator)] at digit
  cases digit

section

variable {char : Char} {chars : List Char} {room : Nat}

theorem readDigits_separator (separator : isSeparator char = true) :
    readDigits (char :: chars) room = readDigits chars room := by
  conv_lhs => unfold readDigits
  rw [if_pos separator]

theorem readDigits_stray (letter : isSeparator char = false) (stray : Hex.isDigit char = false) :
    readDigits (char :: chars) room = .error .digit := by
  unfold readDigits
  rw [if_neg (by simp [letter]), (Hex.value?_eq_none_iff char).mpr stray]

theorem readDigits_full {value : Nat} (writes : Hex.Writes char value) :
    readDigits (char :: chars) 0 = .error .length := by
  unfold readDigits
  rw [if_neg (by simp [isSeparator_digit writes]), (Hex.value?_eq_some_iff char value).mpr writes]

theorem readDigits_digit {value : Nat} (writes : Hex.Writes char value) :
    readDigits (char :: chars) (room + 1) = (readDigits chars room).map (value :: ·) := by
  conv_lhs => unfold readDigits
  rw [if_neg (by simp [isSeparator_digit writes]), (Hex.value?_eq_some_iff char value).mpr writes]

end

theorem character_cases (char : Char) :
    isSeparator char = true ∨ (∃ value, Hex.Writes char value) ∨
      isSeparator char = false ∧ Hex.isDigit char = false := by
  cases separator : isSeparator char with
  | true => exact .inl rfl
  | false =>
      cases digit : Hex.isDigit char with
      | true => exact .inr (.inl ((Hex.isDigit_iff char).mp digit))
      | false => exact .inr (.inr ⟨rfl, rfl⟩)

theorem readDigits_eq_ok_iff (chars : List Char) (room : Nat) (values : List Nat) :
    readDigits chars room = .ok values ↔
      values.length = room ∧
        List.Forall₂ Hex.Writes (chars.filter fun char => !isSeparator char) values := by
  induction chars generalizing room values with
  | nil => cases room <;> cases values <;> simp [readDigits]
  | cons char rest ih =>
      rcases character_cases char with separator | ⟨value, writes⟩ | ⟨letter, stray⟩
      · rw [readDigits_separator separator, ih, List.filter_cons_of_neg (by simp [separator])]
      · rw [List.filter_cons_of_pos (by simp [isSeparator_digit writes])]
        cases room with
        | zero =>
            rw [readDigits_full writes]
            cases values <;> simp
        | succ room =>
            rw [readDigits_digit writes, map_eq_ok_iff]
            constructor
            · rintro ⟨others, read, rfl⟩
              obtain ⟨length, written⟩ := (ih room others).mp read
              exact ⟨by rw [List.length_cons, length], .cons writes written⟩
            · rintro ⟨length, written⟩
              cases written with
              | cons first others =>
                  obtain rfl := first.unique writes
                  exact ⟨_, (ih room _).mpr ⟨by simpa using length, others⟩, rfl⟩
      · rw [readDigits_stray letter stray, List.filter_cons_of_pos (by simp [letter])]
        constructor
        · intro ok
          cases ok
        · rintro ⟨_, written⟩
          cases written with
          | cons writes _ =>
              have digit := (Hex.isDigit_iff char).mpr ⟨_, writes⟩
              rw [stray] at digit
              cases digit

theorem offends_cons {char : Char} {chars : List Char} {room : Nat}
    (harmless : isSeparator char = true ∨ Hex.isDigit char = true) :
    Offends (char :: chars) room ↔
      ∃ front stray back, chars = front ++ stray :: back ∧ (stray ≠ ':' ∧ stray ≠ '-') ∧
        Hex.isDigit stray = false ∧
          front.countP Hex.isDigit + (if Hex.isDigit char then 1 else 0) ≤ room := by
  constructor
  · rintro ⟨front, stray, back, split, letter, other, few⟩
    cases front with
    | nil =>
        obtain ⟨rfl, rfl⟩ := List.cons.inj split
        rw [isSeparator_eq_false_iff.mpr letter, other] at harmless
        simp at harmless
    | cons first front =>
        obtain ⟨rfl, rfl⟩ := List.cons.inj split
        exact ⟨front, stray, back, rfl, letter, other, by rwa [List.countP_cons] at few⟩
  · rintro ⟨front, stray, back, rfl, letter, other, few⟩
    exact ⟨char :: front, stray, back, rfl, letter, other, by rwa [List.countP_cons]⟩

theorem readDigits_eq_digit_iff (chars : List Char) (room : Nat) :
    readDigits chars room = .error .digit ↔ Offends chars room := by
  induction chars generalizing room with
  | nil => cases room <;> simp [readDigits, Offends]
  | cons char rest ih =>
      rcases character_cases char with separator | ⟨value, writes⟩ | ⟨letter, stray⟩
      · rw [readDigits_separator separator, ih, offends_cons (.inl separator),
          isDigit_separator separator]
        rfl
      · have digit := (Hex.isDigit_iff char).mpr ⟨value, writes⟩
        rw [offends_cons (.inr digit), digit]
        cases room with
        | zero =>
            rw [readDigits_full writes]
            simp
        | succ room =>
            rw [readDigits_digit writes, map_eq_error_iff, ih]
            simp only [if_true, Nat.add_le_add_iff_right]
            rfl
      · rw [readDigits_stray letter stray]
        exact iff_of_true rfl
          ⟨[], char, rest, rfl, isSeparator_eq_false_iff.mp letter, stray, Nat.zero_le _⟩

theorem joinHalves_halvesOf (bytes : List UInt8) : joinHalves (halvesOf bytes) = bytes := by
  induction bytes with
  | nil => rfl
  | cons byte rest ih =>
      have whole : 16 * (byte.toNat / 16) + byte.toNat % 16 = byte.toNat := Nat.div_add_mod _ _
      change UInt8.ofNat _ :: joinHalves (halvesOf rest) = _
      rw [whole, ih, UInt8.ofNat_toNat]

theorem halvesOf_joinHalves {count : Nat} {values : List Nat} (even : values.length = 2 * count)
    (small : ∀ value ∈ values, value < 16) :
    (joinHalves values).length = count ∧ halvesOf (joinHalves values) = values := by
  induction count generalizing values with
  | zero =>
      obtain rfl : values = [] := List.eq_nil_of_length_eq_zero even
      exact ⟨rfl, rfl⟩
  | succ count ih =>
      obtain ⟨high, low, rest, rfl⟩ : ∃ high low rest, values = high :: low :: rest := by
        match values, even with
        | high :: low :: rest, _ => exact ⟨high, low, rest, rfl⟩
      have first : high < 16 := small high (by simp)
      have second : low < 16 := small low (by simp)
      obtain ⟨length, same⟩ := ih (by simpa [Nat.mul_add] using even) fun value member =>
        small value (by simp [member])
      have byte : (UInt8.ofNat (16 * high + low)).toNat = 16 * high + low := by
        rw [UInt8.toNat_ofNat', Nat.mod_eq_of_lt (by omega)]
      have upper : (16 * high + low) / 16 = high := by omega
      have lower : (16 * high + low) % 16 = low := by omega
      refine ⟨by rw [joinHalves, List.length_cons, length], ?_⟩
      change _ :: _ :: halvesOf (joinHalves rest) = _
      rw [same, byte, upper, lower]

theorem length_halvesOf (bytes : List UInt8) : (halvesOf bytes).length = 2 * bytes.length := by
  simp [halvesOf, List.length_flatMap, Nat.mul_comm]

section

variable {text : String} {rom : Rom}

theorem parse_eq_ok_iff :
    parse text = .ok rom ↔ List.Forall₂ Hex.Writes (digitsOf text) (halvesOf rom.bytes) := by
  rw [parse, map_eq_ok_iff, digitsOf_eq]
  constructor
  · rintro ⟨values, read, rfl⟩
    obtain ⟨length, written⟩ := (readDigits_eq_ok_iff _ _ _).mp read
    obtain ⟨eight, same⟩ := @halvesOf_joinHalves 8 values length (Hex.lt_of_written written)
    rwa [bytes_ofBytes _ eight, same]
  · intro written
    have sixteen : (halvesOf rom.bytes).length = 16 := by rw [length_halvesOf, length_bytes]
    refine ⟨_, (readDigits_eq_ok_iff _ _ _).mpr ⟨sixteen, written⟩, ?_⟩
    rw [joinHalves_halvesOf, ofBytes_bytes]

theorem exists_parse_iff : (∃ rom, parse text = .ok rom) ↔
    (digitsOf text).length = 16 ∧ ∀ char ∈ digitsOf text, Hex.isDigit char = true := by
  rw [← Hex.exists_written_iff]
  constructor
  · rintro ⟨rom, ok⟩
    have written := parse_eq_ok_iff.mp ok
    exact ⟨by rw [written.length_eq, length_halvesOf, length_bytes], _, written⟩
  · rintro ⟨sixteen, values, written⟩
    have length : values.length = 16 := by rw [← written.length_eq, sixteen]
    rw [digitsOf_eq] at written
    exact ⟨_, map_eq_ok_iff.mpr ⟨values, (readDigits_eq_ok_iff _ _ _).mpr ⟨length, written⟩, rfl⟩⟩

theorem parse_eq_digit_iff : parse text = .error .digit ↔ Offends text.toList 16 := by
  rw [← readDigits_eq_digit_iff, parse, map_eq_error_iff]

theorem parse_of_toLower (same : (digitsOf text).map Char.toLower = rom.text.toList) :
    parse text = .ok rom := by
  rw [text_eq, String.toList_ofList] at same
  have entries : (digitsOf text).map (fun char => some char.toLower) =
      (halvesOf rom.bytes).map fun half => Hex.lowerCase[half]? := by
    rw [← spelling_eq, ← same, List.map_map]
    rfl
  rw [← List.forall₂_eq_eq_eq, List.forall₂_map_left_iff, List.forall₂_map_right_iff] at entries
  exact parse_eq_ok_iff.mpr (entries.imp fun _ _ entry => Hex.writes_of_toLower entry.symm)

theorem parse_text (rom : Rom) : parse rom.text = .ok rom := by
  have table : (Hex.lowerCase.all fun char => !isSeparator char && char.toLower == char) = true := by
    decide
  have plain : ∀ char ∈ rom.spelling, isSeparator char = false ∧ char.toLower = char := by
    intro char member
    simpa using List.all_eq_true.mp table char (mem_lowerCase_of_mem_spelling member)
  apply parse_of_toLower
  rw [digitsOf_eq, text_eq, String.toList_ofList]
  have kept : (rom.spelling.filter fun char => !isSeparator char) = rom.spelling := by
    apply List.filter_eq_self.mpr
    intro char member
    simp [(plain char member).1]
  calc
    _ = rom.spelling.map id := by
      rw [kept]
      exact List.map_congr_left fun char member => (plain char member).2
    _ = rom.spelling := List.map_id _

end

/-- A text reads as a code exactly if its characters that are no separators are the digits of the
code, of either case; so every spelling of a code reads as this code, and a text of sixteen digits
as some code. Any other text is refused: because of a character that is neither, if one stands
before a seventeenth digit, and otherwise for its length. -/
theorem parse_outcomes (text : String) :
    (∀ rom : Rom, parse text = .ok rom ↔
      List.Forall₂ Hex.Writes (digitsOf text) (halvesOf rom.bytes)) ∧
    ((∃ rom, parse text = .ok rom) ↔
      (digitsOf text).length = 16 ∧ ∀ char ∈ digitsOf text, Hex.isDigit char = true) ∧
    (∀ rom : Rom, parse rom.text = .ok rom ∧
      ((digitsOf text).map Char.toLower = rom.text.toList → parse text = .ok rom)) ∧
    (parse text = .error .digit ↔ Offends text.toList 16) ∧
    (parse text = .error .length ↔
      (¬ ∃ rom, parse text = .ok rom) ∧ ¬ Offends text.toList 16) := by
  refine ⟨fun _ => parse_eq_ok_iff, exists_parse_iff, ?_, parse_eq_digit_iff, ?_⟩
  · intro rom
    exact ⟨parse_text rom, parse_of_toLower⟩
  · rw [← parse_eq_digit_iff]
    rcases parse text with error | rom
    · cases error <;> simp
    · simp

theorem parse_outcomes_mixed_spelling :
    parse "02:1C-b8:0100--0000:A2-" = .ok ⟨0xa200000001b81c02⟩ := by
  apply ((parse_outcomes _).2.2.1 _).2
  decide +kernel

end Rom

end SingleWire
