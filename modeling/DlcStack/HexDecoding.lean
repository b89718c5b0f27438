import DlcStack.Utf8Slices
import Mathlib.Tactic.Common

/-!
# Reading hexadecimal texts

`decode_hex` takes a text apart two bytes at a time and gives each part to the parser
of integers, which also knows signs.  A cut inside of a character is a panic.
-/

namespace DlcStack

namespace AttestorClient

open Utf8

/-- `IntErrorKind` -/
inductive ParseIntError where
  | empty
  | invalidDigit
  | posOverflow
  deriving DecidableEq, Repr

inductive DecodeHexError where
  | oddLength
  | parseInt (error : ParseIntError)
  deriving DecidableEq, Repr

def ParseIntError.display : ParseIntError → String
  | empty => "cannot parse integer from empty string"
  | invalidDigit => "invalid digit found in string"
  | posOverflow => "number too large to fit in target type"

def DecodeHexError.display : DecodeHexError → String
  | oddLength => "input string has an odd number of bytes"
  | parseInt error => error.display

/-- `char::to_digit(16)` -/
def toDigit16 (char : Char) : Option Nat :=
  if '0'.toNat ≤ char.toNat ∧ char.toNat ≤ '9'.toNat then
    some (char.toNat - '0'.toNat)
  else if 'a'.toNat ≤ char.toNat ∧ char.toNat ≤ 'f'.toNat then
    some (char.toNat - 'a'.toNat + 10)
  else if 'A'.toNat ≤ char.toNat ∧ char.toNat ≤ 'F'.toNat then
    some (char.toNat - 'A'.toNat + 10)
  else none

/-- The loop of `from_str_radix` over the digits. -/
def addDigits (result : UInt8) : List Char → Except ParseIntError UInt8
  | [] => .ok result
  | char :: rest =>
      match toDigit16 char with
      | none => .error .invalidDigit
      | some digit =>
          if result.toNat * 16 + digit < UInt8.size then
            addDigits (UInt8.ofNat (result.toNat * 16 + digit)) rest
          else .error .posOverflow

/-- `u8::from_str_radix(text, 16)` -/
def fromStrRadix16 : List Char → Except ParseIntError UInt8
  | [] => .error .empty
  | ['+'] => .error .invalidDigit
  | ['-'] => .error .invalidDigit
  | '+' :: digits => addDigits 0 digits
  | digits => addDigits 0 digits

/-- The byte that the two bytes from `start` on spell. -/
def readPair (chars : List Char) (start : Nat) : ExceptT DecodeHexError Option UInt8 :=
  ExceptT.mk ((slice? chars start (start + 2)).map fun pair =>
    (fromStrRadix16 pair).mapError .parseInt)

/-- `decode_hex`; there is no answer after a panic. -/
def decodeHex (s : String) : Option (Except DecodeHexError (List UInt8)) :=
  if s.utf8ByteSize % 2 ≠ 0 then some (.error .oddLength)
  else ((List.range' 0 (s.utf8ByteSize / 2) 2).mapM (readPair s.toList)).run

/-! ## One pair -/

/-- The byte of two characters that the parser of integers accepts. -/
def pairByte? (first second : Char) : Option UInt8 :=
  if first = '+' then (toDigit16 second).map UInt8.ofNat
  else (toDigit16 first).bind fun high =>
    (toDigit16 second).map fun low => UInt8.ofNat (16 * high + low)

theorem toDigit16_lt {char : Char} {digit : Nat} (isDigit : toDigit16 char = some digit) :
    digit < 16 ∧ char.toNat < 128 := by
  unfold toDigit16 at isDigit
  have values : '0'.toNat = 48 ∧ '9'.toNat = 57 ∧ 'a'.toNat = 97 ∧ 'f'.toNat = 102 ∧
      'A'.toNat = 65 ∧ 'F'.toNat = 70 := by
    decide
  split_ifs at isDigit <;>
    · obtain rfl := Option.some.inj isDigit
      omega

theorem utf8Size_of_ascii {char : Char} (ascii : char.toNat < 128) :
    char.utf8Size = 1 := by
  rw [Char.utf8Size_eq_one_iff, UInt32.le_iff_toNat_le]
  exact Nat.le_of_lt_succ ascii

/-- Both characters of an accepted pair are single bytes. -/
theorem utf8Size_of_pairByte {first second : Char} {byte : UInt8}
    (accepted : pairByte? first second = some byte) :
    first.utf8Size = 1 ∧ second.utf8Size = 1 := by
  unfold pairByte? at accepted
  split_ifs at accepted with sign
  · obtain ⟨low, isLow, -⟩ := Option.map_eq_some_iff.mp accepted
    exact ⟨sign ▸ rfl, utf8Size_of_ascii (toDigit16_lt isLow).2⟩
  · obtain ⟨high, isHigh, accepted⟩ := Option.bind_eq_some_iff.mp accepted
    obtain ⟨low, isLow, -⟩ := Option.map_eq_some_iff.mp accepted
    exact ⟨utf8Size_of_ascii (toDigit16_lt isHigh).2,
      utf8Size_of_ascii (toDigit16_lt isLow).2⟩

/-- A single digit after a value below sixteen. -/
theorem addDigits_last (high : Nat) (small : high < 16) (char : Char) :
    (addDigits (UInt8.ofNat high) [char]).toOption =
      (toDigit16 char).map fun low => UInt8.ofNat (16 * high + low) := by
  have value : (UInt8.ofNat high).toNat = high := UInt8.toNat_ofNat_of_lt' (by
    change high < 256
    omega)
  cases isDigit : toDigit16 char with
  | none => simp [addDigits, isDigit, Except.toOption]
  | some low =>
      have lowSmall := (toDigit16_lt isDigit).1
      have fits : high * 16 + low < UInt8.size := by
        change high * 16 + low < 256
        omega
      simp [addDigits, isDigit, value, fits, Except.toOption, Nat.mul_comm]

/-- The parser of integers on two characters. -/
theorem fromStrRadix16_pair (first second : Char) :
    (fromStrRadix16 [first, second]).toOption = pairByte? first second := by
  unfold pairByte?
  split_ifs with sign
  · subst sign
    have last := addDigits_last 0 (by decide) second
    simpa [fromStrRadix16] using last
  · have digits : fromStrRadix16 [first, second] = addDigits 0 [first, second] := by
      simp [fromStrRadix16, sign]
    rw [digits]
    cases isDigit : toDigit16 first with
    | none => simp [addDigits, isDigit, Except.toOption]
    | some high =>
        have small := (toDigit16_lt isDigit).1
        have fits : high < UInt8.size := by
          change high < 256
          omega
        rw [Option.bind_some, ← addDigits_last high small second, addDigits]
        simp [isDigit, fits]

/-- Two bytes that the parser of integers accepts are two characters. -/
theorem fromStrRadix16_eq_ok_iff {pair : List Char} (two : byteLength pair = 2)
    {byte : UInt8} :
    fromStrRadix16 pair = .ok byte ↔
      ∃ first second, pair = [first, second] ∧ pairByte? first second = some byte := by
  have returned : fromStrRadix16 pair = .ok byte ↔
      (fromStrRadix16 pair).toOption = some byte := by
    cases fromStrRadix16 pair <;> simp [Except.toOption]
  rw [returned]
  rcases pair with _ | ⟨first, _ | ⟨second, _ | ⟨third, rest⟩⟩⟩
  · cases two
  · -- one character of two bytes is not a digit
    have wide : first.utf8Size = 2 := two
    have noDigit : toDigit16 first = none := by
      cases isDigit : toDigit16 first with
      | none => rfl
      | some digit =>
          rw [utf8Size_of_ascii (toDigit16_lt isDigit).2] at wide
          cases wide
    have noSign : first ≠ '+' ∧ first ≠ '-' := by
      constructor
      all_goals
        rintro rfl
        cases wide
    simp [fromStrRadix16, noSign, addDigits, noDigit, Except.toOption]
  · rw [fromStrRadix16_pair]
    simp
  · have positive := And.intro first.utf8Size_pos
      (And.intro second.utf8Size_pos third.utf8Size_pos)
    simp only [byteLength] at two
    omega

/-! ## The loop -/

/-- The parser of integers reads consecutive pairs as bytes. -/
inductive Reads : List Char → List UInt8 → Prop
  | done : Reads [] []
  | pair {first second : Char} {rest : List Char} {byte : UInt8} {bytes : List UInt8}
      (accepted : pairByte? first second = some byte) (others : Reads rest bytes) :
      Reads (first :: second :: rest) (byte :: bytes)

/-- How the loop ends on the rest of the text. -/
inductive Decodes : List Char → Option (Except DecodeHexError (List UInt8)) → Prop
  | done : Decodes [] (some (.ok []))
  | panics {rest : List Char} (more : rest ≠ []) (cut : splitAt? 2 rest = none) :
      Decodes rest none
  | refuses {pair later : List Char} {error : ParseIntError}
      (two : byteLength pair = 2) (refused : fromStrRadix16 pair = .error error) :
      Decodes (pair ++ later) (some (.error (.parseInt error)))
  | reads {first second : Char} {rest : List Char} {byte : UInt8}
      {answer : Option (Except DecodeHexError (List UInt8))}
      (accepted : pairByte? first second = some byte) (others : Decodes rest answer) :
      Decodes (first :: second :: rest) (answer.map fun result => result.map (byte :: ·))

theorem readPair_run (front rest : List Char) :
    (readPair (front ++ rest) (byteLength front)).run =
      (splitAt? 2 rest).map fun parts => (fromStrRadix16 parts.1).mapError .parseInt := by
  unfold readPair
  rw [ExceptT.run_mk, slice?_append, Option.map_map]
  rfl

theorem run_cons {ε α : Type} (program : ExceptT ε Option (List α)) (first : α) :
    (program >>= fun others => pure (first :: others)).run =
      program.run.map fun result => result.map (first :: ·) := by
  rw [ExceptT.run_bind]
  cases program.run with
  | none => rfl
  | some result => cases result <;> rfl

/-- The loop over the offsets takes the rest of the text apart. -/
theorem decodes_range (count : Nat) (front rest : List Char)
    (even : byteLength rest = 2 * count) :
    Decodes rest (((List.range' (byteLength front) count 2).mapM
      (readPair (front ++ rest))).run) := by
  induction count generalizing front rest with
  | zero =>
      obtain rfl := byteLength_eq_zero even
      exact .done
  | succ count ih =>
      rw [List.range'_succ, List.mapM_cons, ExceptT.run_bind, readPair_run]
      cases split : splitAt? 2 rest with
      | none =>
          apply Decodes.panics _ split
          rintro rfl
          simp [byteLength] at even
      | some parts =>
          obtain ⟨pair, later⟩ := parts
          obtain ⟨rfl, two⟩ := splitAt?_eq_some_iff.mp split
          cases parsed : fromStrRadix16 pair with
          | error error =>
              simp only [Option.map_some, parsed]
              exact .refuses two parsed
          | ok byte =>
              obtain ⟨first, second, rfl, accepted⟩ := (fromStrRadix16_eq_ok_iff two).mp parsed
              have others := ih (front ++ [first, second]) later (by
                rw [byteLength_append] at even
                omega)
              rw [byteLength_append, two, List.append_assoc] at others
              simp only [Option.map_some, parsed, Except.mapError, Option.bind_eq_bind,
                Option.bind_some]
              rw [run_cons]
              exact .reads accepted others

/-- The loop comes to a cut inside of a character. -/
def Slips (chars : List Char) : Prop :=
  ∃ front rest bytes, chars = front ++ rest ∧ Reads front bytes ∧ rest ≠ [] ∧
    splitAt? 2 rest = none

/-- A first pair that is accepted is split off. -/
theorem splitAt?_of_pairByte {first second : Char} {byte : UInt8}
    (accepted : pairByte? first second = some byte) (rest : List Char) :
    splitAt? 2 (first :: second :: rest) = some ([first, second], rest) := by
  obtain ⟨firstSize, secondSize⟩ := utf8Size_of_pairByte accepted
  exact splitAt?_eq_some_iff.mpr ⟨rfl, by simp [byteLength, firstSize, secondSize]⟩

/-- A text that goes on after some pairs slips where the rest does. -/
theorem slips_cons_iff {first second : Char} {rest : List Char} {byte : UInt8}
    (accepted : pairByte? first second = some byte) :
    Slips (first :: second :: rest) ↔ Slips rest := by
  constructor
  · rintro ⟨front, back, bytes, same, reads, more, cut⟩
    cases reads with
    | done =>
        obtain rfl : first :: second :: rest = back := same
        rw [splitAt?_of_pairByte accepted] at cut
        cases cut
    | pair accepted' others =>
        simp only [List.cons_append, List.cons.injEq] at same
        exact ⟨_, _, _, same.2.2, others, more, cut⟩
  · rintro ⟨front, back, bytes, rfl, reads, more, cut⟩
    exact ⟨_, _, _, rfl, .pair accepted reads, more, cut⟩

/-- A text that begins with an accepted pair does not begin with another one. -/
theorem fromStrRadix16_of_split {chars pair later front rest : List Char}
    {bytes : List UInt8} (split : splitAt? 2 chars = some (pair, later))
    (same : chars = front ++ rest) (reads : Reads front bytes) (more : front ≠ []) :
    ∃ byte, fromStrRadix16 pair = .ok byte := by
  cases reads with
  | done => exact absurd rfl more
  | @pair first second _ byte _ accepted others =>
      rw [same, List.cons_append, List.cons_append, splitAt?_of_pairByte accepted] at split
      obtain ⟨rfl, rfl⟩ := Prod.mk.inj (Option.some.inj split)
      have sizes := utf8Size_of_pairByte accepted
      have two : byteLength [first, second] = 2 := by simp [byteLength, sizes]
      exact ⟨byte, (fromStrRadix16_eq_ok_iff two).mpr ⟨first, second, rfl, accepted⟩⟩

/-- No accepted pairs begin a text whose first pair is refused. -/
theorem eq_nil_of_refused {pair later front rest : List Char} {bytes : List UInt8}
    {error : ParseIntError} (two : byteLength pair = 2)
    (refused : fromStrRadix16 pair = .error error)
    (same : pair ++ later = front ++ rest) (reads : Reads front bytes) : front = [] := by
  by_contra more
  have split : splitAt? 2 (pair ++ later) = some (pair, later) :=
    splitAt?_eq_some_iff.mpr ⟨rfl, two⟩
  obtain ⟨byte, read⟩ := fromStrRadix16_of_split split same reads more
  rw [refused] at read
  cases read

/-- The loop returns the bytes of accepted pairs. -/
theorem Decodes.ok_iff {rest : List Char}
    {answer : Option (Except DecodeHexError (List UInt8))} (decodes : Decodes rest answer)
    (bytes : List UInt8) : answer = some (.ok bytes) ↔ Reads rest bytes := by
  induction decodes generalizing bytes with
  | done =>
      constructor
      · rintro ⟨⟩
        exact .done
      · rintro ⟨⟩
        rfl
  | panics more cut =>
      constructor
      · rintro ⟨⟩
      · rintro (_ | ⟨accepted, others⟩)
        · exact absurd rfl more
        · rw [splitAt?_of_pairByte accepted] at cut
          cases cut
  | @refuses pair later error two refused =>
      constructor
      · rintro ⟨⟩
      · intro reads
        have empty := eq_nil_of_refused two refused (List.append_nil _).symm reads
        obtain ⟨rfl, -⟩ := List.append_eq_nil_iff.mp empty
        cases two
  | @reads first second rest byte answer accepted others ih =>
      constructor
      · intro answered
        obtain ⟨result, isAnswer, mapped⟩ := Option.map_eq_some_iff.mp answered
        cases result with
        | error error => cases mapped
        | ok tail =>
            obtain rfl := Except.ok.inj mapped
            exact .pair accepted ((ih tail).mp isAnswer)
      · intro reads
        cases reads with
        | pair accepted' others =>
            rw [accepted] at accepted'
            obtain rfl := Option.some.inj accepted'
            rw [(ih _).mpr others]
            rfl

/-- The loop has no answer for a text that slips. -/
theorem Decodes.none_iff {rest : List Char}
    {answer : Option (Except DecodeHexError (List UInt8))} (decodes : Decodes rest answer) :
    answer = none ↔ Slips rest := by
  induction decodes with
  | done =>
      constructor
      · rintro ⟨⟩
      · rintro ⟨front, rest, bytes, same, -, more, -⟩
        exact absurd (List.append_eq_nil_iff.mp same.symm).2 more
  | panics more cut => exact ⟨fun _ => ⟨[], _, [], rfl, .done, more, cut⟩, fun _ => rfl⟩
  | @refuses pair later error two refused =>
      constructor
      · rintro ⟨⟩
      · rintro ⟨front, rest, bytes, same, reads, -, cut⟩
        have split : splitAt? 2 (pair ++ later) = some (pair, later) :=
          splitAt?_eq_some_iff.mpr ⟨rfl, two⟩
        obtain rfl := eq_nil_of_refused two refused same reads
        rw [same, List.nil_append, cut] at split
        cases split
  | @reads first second rest byte answer accepted others ih =>
      rw [Option.map_eq_none_iff, ih, slips_cons_iff accepted]

theorem Reads.byteLength {chars : List Char} {bytes : List UInt8}
    (reads : Reads chars bytes) : byteLength chars = 2 * bytes.length := by
  induction reads with
  | done => rfl
  | pair accepted others ih =>
      obtain ⟨firstSize, secondSize⟩ := utf8Size_of_pairByte accepted
      simp only [Utf8.byteLength, firstSize, secondSize, ih, List.length_cons]
      omega

theorem decodes_decodeHex {s : String} (even : s.utf8ByteSize % 2 = 0) :
    Decodes s.toList (decodeHex s) := by
  have count : byteLength s.toList = 2 * (s.utf8ByteSize / 2) := by
    rw [byteLength_toList]
    omega
  have decodes := decodes_range (s.utf8ByteSize / 2) [] s.toList count
  rw [List.nil_append] at decodes
  rw [decodeHex, if_neg (by omega)]
  exact decodes

theorem decodeHex_of_odd {s : String} (odd : s.utf8ByteSize % 2 = 1) :
    decodeHex s = some (.error .oddLength) := by
  rw [decodeHex, if_pos (by omega)]

/-- Bytes are returned exactly for a text of accepted pairs. -/
theorem decodeHex_eq_ok_iff (s : String) (bytes : List UInt8) :
    decodeHex s = some (.ok bytes) ↔ Reads s.toList bytes := by
  rcases Nat.mod_two_eq_zero_or_one s.utf8ByteSize with even | odd
  · exact (decodes_decodeHex even).ok_iff bytes
  · rw [decodeHex_of_odd odd]
    constructor
    · rintro ⟨⟩
    · intro reads
      have length := reads.byteLength
      rw [byteLength_toList] at length
      omega

/-- There is no answer exactly for an even text that slips. -/
theorem decodeHex_eq_none_iff (s : String) :
    decodeHex s = none ↔ s.utf8ByteSize % 2 = 0 ∧ Slips s.toList := by
  rcases Nat.mod_two_eq_zero_or_one s.utf8ByteSize with even | odd
  · rw [(decodes_decodeHex even).none_iff]
    simp [even]
  · rw [decodeHex_of_odd odd]
    simp [odd]

/-! ## Hexadecimal texts -/

/-- An even number of hexadecimal digits, and the values of the consecutive pairs. -/
inductive HexPairs : List Char → List UInt8 → Prop
  | done : HexPairs [] []
  | pair {first second : Char} {high low : Nat} {rest : List Char} {bytes : List UInt8}
      (isHigh : toDigit16 first = some high) (isLow : toDigit16 second = some low)
      (others : HexPairs rest bytes) :
      HexPairs (first :: second :: rest) (UInt8.ofNat (16 * high + low) :: bytes)

/-- A pair without a sign is two digits. -/
theorem pairByte?_unsigned {first : Char} (unsigned : '+' ≠ first) {second : Char}
    {byte : UInt8} :
    pairByte? first second = some byte ↔
      ∃ high low, toDigit16 first = some high ∧ toDigit16 second = some low ∧
        UInt8.ofNat (16 * high + low) = byte := by
  simp only [pairByte?, if_neg unsigned.symm, Option.bind_eq_some_iff,
    Option.map_eq_some_iff, exists_and_left]

/-- The pairs of a hexadecimal text are those that are read without a sign. -/
theorem hexPairs_iff {chars : List Char} {bytes : List UInt8} :
    HexPairs chars bytes ↔ Reads chars bytes ∧ '+' ∉ chars := by
  have noSign {char : Char} {digit : Nat} (isDigit : toDigit16 char = some digit) :
      '+' ≠ char := by
    rintro rfl
    cases isDigit
  constructor
  · intro pairs
    induction pairs with
    | done => exact ⟨.done, List.not_mem_nil⟩
    | pair isHigh isLow others ih =>
        have accepted := (pairByte?_unsigned (noSign isHigh)).mpr
          ⟨_, _, isHigh, isLow, rfl⟩
        refine ⟨.pair accepted ih.1, ?_⟩
        simp [noSign isHigh, noSign isLow, ih.2]
  · rintro ⟨reads, unsigned⟩
    induction reads with
    | done => exact .done
    | pair accepted others ih =>
        simp only [List.mem_cons, not_or] at unsigned
        obtain ⟨high, low, isHigh, isLow, rfl⟩ :=
          (pairByte?_unsigned unsigned.1).mp accepted
        exact .pair isHigh isLow (ih unsigned.2.2)

/-- The text is decoded as a hexadecimal text, or refused. -/
def DecodesHex (s : String) : Prop :=
  (∃ answer, decodeHex s = some answer) ∧
    ∀ bytes, decodeHex s = some (.ok bytes) ↔ HexPairs s.toList bytes

/-- All pairs are accepted, one of them with a sign, or the pairs up to a cut inside of a
character are. -/
def Misread (s : String) : Prop :=
  (∃ bytes, Reads s.toList bytes ∧ '+' ∈ s.toList) ∨ Slips s.toList

/-- The texts that are not misread are those that the loop never gets to and those
without signs and without cuts inside of a character. -/
theorem decodesHex_iff (s : String) :
    DecodesHex s ↔ s.utf8ByteSize % 2 = 1 ∨ ¬ Misread s := by
  unfold DecodesHex Misread
  simp only [← Option.ne_none_iff_exists', Ne, decodeHex_eq_none_iff, decodeHex_eq_ok_iff,
    hexPairs_iff]
  rcases Nat.mod_two_eq_zero_or_one s.utf8ByteSize with even | odd
  · simp only [even, true_and, Nat.zero_ne_one, false_or]
    constructor
    · rintro ⟨noSlip, pairs⟩ (⟨bytes, read, sign⟩ | slip)
      · exact ((pairs bytes).mp read).2 sign
      · exact noSlip slip
    · intro notMisread
      constructor
      · exact fun slip => notMisread (.inr slip)
      · intro bytes
        constructor
        · intro read
          exact ⟨read, fun sign => notMisread (.inl ⟨bytes, read, sign⟩)⟩
        · exact And.left
  · -- nothing is read of a text with an odd number of bytes
    have unread (bytes : List UInt8) : ¬ Reads s.toList bytes := by
      intro reads
      have length := reads.byteLength
      rw [byteLength_toList] at length
      omega
    simp [odd, unread]

/-- A sign is read as part of a byte. -/
theorem not_decodesHex : ¬ ∀ s, DecodesHex s := by
  intro always
  have decoded : decodeHex "+f" = some (.ok [15]) := by
    decide +kernel
  have pairs := ((always "+f").2 [15]).mp decoded
  exact (hexPairs_iff.mp pairs).2 (by decide +kernel)

end AttestorClient

end DlcStack
