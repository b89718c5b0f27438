import Mathlib.Data.List.Basic
import Mathlib.Data.Vector.Basic
import Mathlib.Tactic.Common

/-!
# Self-delimiting texts

A text codec writes values as characters that say themselves where they end, so
that codecs can be put one after the other: pairs, options, sums, lists and
whatever is built of them are written and read back without separators.
-/

/-- How values are written, and read from the front of a text. -/
structure TextCodec (α : Type) where
  encode : α → List Char
  decode : List Char → Option (α × List Char)
  /-- What was written is read back, whatever follows it. -/
  decode_encode : ∀ value rest, decode (encode value ++ rest) = some (value, rest)

namespace TextCodec

variable {α β : Type}

/-- The text of one value. -/
def toText (codec : TextCodec α) (value : α) : String :=
  String.ofList (codec.encode value)

/-- Read a text that holds one value and nothing else. -/
def ofText? (codec : TextCodec α) (text : String) : Option α :=
  match codec.decode text.toList with
  | some (value, []) => some value
  | _ => none

@[simp]
theorem ofText?_toText (codec : TextCodec α) (value : α) :
    codec.ofText? (codec.toText value) = some value := by
  have read := codec.decode_encode value []
  rw [List.append_nil] at read
  simp [ofText?, toText, read]

/-- The three bytes of a character's number. -/
def bytesOfChar (value : Char) : List UInt8 :=
  [UInt8.ofNat value.toNat, UInt8.ofNat (value.toNat / 256),
    UInt8.ofNat (value.toNat / 65536)]

def charsOfBytes : List UInt8 → List Char
  | low :: middle :: high :: rest =>
      Char.ofNat (low.toNat + 256 * middle.toNat + 65536 * high.toNat) ::
        charsOfBytes rest
  | _ => []

theorem charsOfBytes_flatMap (text : List Char) :
    charsOfBytes (text.flatMap bytesOfChar) = text := by
  induction text with
  | nil => rfl
  | cons value text ih =>
      have small : value.toNat < 16777216 := by
        have := value.valid
        simp only [UInt32.isValidChar, Nat.isValidChar] at this
        change value.val.toNat < _
        omega
      have number : value.toNat % 256 + 256 * (value.toNat / 256 % 256) +
          65536 * (value.toNat / 65536 % 256) = value.toNat := by omega
      simp [bytesOfChar, charsOfBytes, ih, number]

/-- The bytes of one value. -/
def toBytes (codec : TextCodec α) (value : α) : List UInt8 :=
  (codec.encode value).flatMap bytesOfChar

def ofBytes? (codec : TextCodec α) (bytes : List UInt8) : Option α :=
  match codec.decode (charsOfBytes bytes) with
  | some (value, []) => some value
  | _ => none

@[simp]
theorem ofBytes?_toBytes (codec : TextCodec α) (value : α) :
    codec.ofBytes? (codec.toBytes value) = some value := by
  have read := codec.decode_encode value []
  rw [List.append_nil] at read
  simp [ofBytes?, toBytes, charsOfBytes_flatMap, read]

/-- What is read of a text, or an error. -/
def readText (codec : TextCodec α) (text : String) : Except String α :=
  match codec.ofText? text with
  | some value => .ok value
  | none => .error "unexpected end of file"

@[simp]
theorem readText_toText (codec : TextCodec α) (value : α) :
    codec.readText (codec.toText value) = .ok value := by
  simp [readText]

/-- What is read of bytes, or an error. -/
def readBytes (codec : TextCodec α) (bytes : List UInt8) : Except String α :=
  match codec.ofBytes? bytes with
  | some value => .ok value
  | none => .error "unexpected end of file"

@[simp]
theorem readBytes_toBytes (codec : TextCodec α) (value : α) :
    codec.readBytes (codec.toBytes value) = .ok value := by
  simp [readBytes]

/-! ## Basic values -/

def unit : TextCodec Unit where
  encode _ := []
  decode text := some ((), text)
  decode_encode _ _ := rfl

def char : TextCodec Char where
  encode value := [value]
  decode
    | [] => none
    | value :: rest => some (value, rest)
  decode_encode _ _ := rfl

/-- The number of strokes in front of a point. -/
def readStrokes : List Char → Option (Nat × List Char)
  | [] => none
  | mark :: rest =>
      if mark = '.' then some (0, rest)
      else (readStrokes rest).map fun (count, rest) => (count + 1, rest)

theorem readStrokes_replicate (count : Nat) (rest : List Char) :
    readStrokes (List.replicate count '|' ++ '.' :: rest) = some (count, rest) := by
  induction count with
  | zero => simp [readStrokes]
  | succ count ih => simp [List.replicate_succ, readStrokes, ih]

/-- Numbers are written in strokes. -/
def nat : TextCodec Nat where
  encode value := List.replicate value '|' ++ ['.']
  decode := readStrokes
  decode_encode value rest := by
    rw [List.append_assoc]
    exact readStrokes_replicate value rest

/-! ## Composition -/

/-- Write values of one type as values of another. -/
def via (codec : TextCodec β) (write : α → β) (read : β → α)
    (read_write : ∀ value, read (write value) = value) : TextCodec α where
  encode value := codec.encode (write value)
  decode text := (codec.decode text).map fun (value, rest) => (read value, rest)
  decode_encode value rest := by simp [codec.decode_encode, read_write]

/-- One value after the other. -/
def pair (first : TextCodec α) (second : TextCodec β) : TextCodec (α × β) where
  encode value := first.encode value.1 ++ second.encode value.2
  decode text := do
    let (left, text) ← first.decode text
    let (right, text) ← second.decode text
    return ((left, right), text)
  decode_encode value rest := by
    simp [List.append_assoc, first.decode_encode, second.decode_encode]

/-- A value of one type or of another, after a mark. -/
def sum (first : TextCodec α) (second : TextCodec β) : TextCodec (α ⊕ β) where
  encode
    | .inl value => '<' :: first.encode value
    | .inr value => '>' :: second.encode value
  decode
    | [] => none
    | mark :: text =>
        if mark = '<' then (first.decode text).map fun (value, rest) => (.inl value, rest)
        else (second.decode text).map fun (value, rest) => (.inr value, rest)
  decode_encode value rest := by
    cases value with
    | inl value => simp [first.decode_encode]
    | inr value => simp [second.decode_encode]

def option (codec : TextCodec α) : TextCodec (Option α) :=
  (unit.sum codec).via
    (fun
      | none => .inl ()
      | some value => .inr value)
    (fun
      | .inl _ => none
      | .inr value => some value)
    (fun value => by cases value <;> rfl)

/-- Read as many values as are counted. -/
def readMany (codec : TextCodec α) : Nat → List Char → Option (List α × List Char)
  | 0, text => some ([], text)
  | count + 1, text => do
      let (value, text) ← codec.decode text
      let (values, text) ← readMany codec count text
      return (value :: values, text)

theorem readMany_flatMap (codec : TextCodec α) (values : List α) (rest : List Char) :
    codec.readMany values.length (values.flatMap codec.encode ++ rest) =
      some (values, rest) := by
  induction values with
  | nil => rfl
  | cons value values ih =>
      simp [readMany, List.append_assoc, codec.decode_encode, ih]

/-- A list is written after its length. -/
def list (codec : TextCodec α) : TextCodec (List α) where
  encode values := nat.encode values.length ++ values.flatMap codec.encode
  decode text := do
    let (count, text) ← nat.decode text
    codec.readMany count text
  decode_encode values rest := by
    simp [List.append_assoc, nat.decode_encode, readMany_flatMap]

/-- Values of a table are written by their place in it. -/
def short [DecidableEq α] (codec : TextCodec α) (table : List α) : TextCodec α where
  encode value :=
    match table.idxOf? value with
    | some index => '#' :: nat.encode index
    | none => '-' :: codec.encode value
  decode
    | [] => none
    | mark :: text =>
        if mark = '#' then do
          let (index, rest) ← nat.decode text
          let value ← table[index]?
          return (value, rest)
        else codec.decode text
  decode_encode value rest := by
    cases place : table.idxOf? value with
    | none => simp [codec.decode_encode]
    | some index =>
        obtain ⟨bound, same, _⟩ := List.idxOf?_eq_some_iff.mp place
        have found : table[index]? = some value := List.getElem?_eq_some_iff.mpr ⟨bound, same⟩
        simp [nat.decode_encode, found]

def string : TextCodec String :=
  char.list.via String.toList String.ofList fun _ => String.ofList_toList

def bool : TextCodec Bool :=
  (unit.sum unit).via
    (fun
      | false => .inl ()
      | true => .inr ())
    (fun
      | .inl _ => false
      | .inr _ => true)
    (fun value => by cases value <;> rfl)

def int : TextCodec Int :=
  (nat.sum nat).via
    (fun
      | .ofNat value => .inl value
      | .negSucc value => .inr value)
    (fun
      | .inl value => .ofNat value
      | .inr value => .negSucc value)
    (fun value => by cases value <;> rfl)

/-- A byte is written as the character with its number. -/
def uint8 : TextCodec UInt8 :=
  char.via (fun byte => Char.ofNat byte.toNat) (fun value => UInt8.ofNat value.toNat)
    fun byte => by
      have all : ∀ number < 256, (Char.ofNat number).toNat = number := by decide +kernel
      have small : byte.toNat < 256 := byte.toNat_lt
      simp [all _ small]

/-- A vector is written without its length. -/
def vector {size : Nat} [Inhabited α] (codec : TextCodec α) :
    TextCodec (Vector α size) where
  encode values := values.toList.flatMap codec.encode
  decode text := (codec.readMany size text).map fun (values, rest) =>
    (Vector.ofFn fun index => values.getD index default, rest)
  decode_encode values rest := by
    have read := codec.readMany_flatMap values.toList rest
    rw [Vector.length_toList] at read
    simp only [read, Option.map_some, Option.some.injEq, Prod.mk.injEq, and_true]
    ext index bound
    simp

end TextCodec
