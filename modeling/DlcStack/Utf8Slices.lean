import Mathlib.Data.List.Basic

/-!
# Slices by bytes

A text is a list of characters, each of one to four bytes.  A byte offset cuts it in
two only where it is between two characters.
-/

namespace Utf8

/-- The number of bytes of a text. -/
def byteLength : List Char → Nat
  | [] => 0
  | char :: rest => char.utf8Size + byteLength rest

/-- The text before and after a number of bytes. -/
def splitAt? : Nat → List Char → Option (List Char × List Char)
  | 0, chars => some ([], chars)
  | _ + 1, [] => none
  | bytes + 1, char :: rest =>
      if char.utf8Size ≤ bytes + 1 then
        (splitAt? (bytes + 1 - char.utf8Size) rest).map (Prod.map (char :: ·) id)
      else none

/-- The text between two byte offsets. -/
def slice? (chars : List Char) (start stop : Nat) : Option (List Char) :=
  (splitAt? start chars).bind fun parts =>
    (splitAt? (stop - start) parts.2).map Prod.fst

@[simp]
theorem byteLength_append (front back : List Char) :
    byteLength (front ++ back) = byteLength front + byteLength back := by
  induction front with
  | nil => simp [byteLength]
  | cons char front ih =>
      simp only [List.cons_append, byteLength, ih]
      omega

theorem byteLength_eq_zero {chars : List Char} (empty : byteLength chars = 0) :
    chars = [] := by
  cases chars with
  | nil => rfl
  | cons char rest =>
      have positive := char.utf8Size_pos
      simp only [byteLength] at empty
      omega

/-- The bytes of a string are those of its characters. -/
theorem byteLength_toList (text : String) : byteLength text.toList = text.utf8ByteSize := by
  have encoded (chars : List Char) : chars.utf8Encode.size = byteLength chars := by
    induction chars with
    | nil => rfl
    | cons char rest ih =>
        rw [List.utf8Encode_cons, ByteArray.size_append, ih, byteLength]
        simp [List.utf8Encode_singleton]
  rw [← encoded, String.utf8Encode_toList]
  rfl

/-- A split after the whole characters in front. -/
theorem splitAt?_byteLength (front back : List Char) :
    splitAt? (byteLength front) (front ++ back) = some (front, back) := by
  induction front with
  | nil => simp [byteLength, splitAt?]
  | cons char front ih =>
      have positive := char.utf8Size_pos
      obtain ⟨more, size⟩ : ∃ more, byteLength (char :: front) = more + 1 :=
        ⟨byteLength (char :: front) - 1, by simp only [byteLength]; omega⟩
      have rest : more + 1 - char.utf8Size = byteLength front := by
        simp only [byteLength] at size
        omega
      have fits : char.utf8Size ≤ more + 1 := by
        simp only [byteLength] at size
        omega
      rw [size, List.cons_append, splitAt?, if_pos fits, rest, ih]
      rfl

/-- A split is made of two texts, the first with so many bytes. -/
theorem splitAt?_eq_some_iff {bytes : Nat} {chars front back : List Char} :
    splitAt? bytes chars = some (front, back) ↔
      chars = front ++ back ∧ byteLength front = bytes := by
  constructor
  · intro split
    induction chars generalizing bytes front with
    | nil =>
        cases bytes with
        | zero =>
            obtain ⟨rfl, rfl⟩ := Prod.mk.inj (Option.some.inj split)
            exact ⟨rfl, rfl⟩
        | succ bytes => cases split
    | cons char rest ih =>
        cases bytes with
        | zero =>
            obtain ⟨rfl, rfl⟩ := Prod.mk.inj (Option.some.inj split)
            exact ⟨rfl, rfl⟩
        | succ bytes =>
            rw [splitAt?] at split
            split_ifs at split with fits
            obtain ⟨⟨before, after⟩, inner, same⟩ := Option.map_eq_some_iff.mp split
            obtain ⟨rfl, rfl⟩ := Prod.mk.inj same
            obtain ⟨rfl, size⟩ := ih inner
            refine ⟨rfl, ?_⟩
            simp only [byteLength]
            omega
  · rintro ⟨rfl, rfl⟩
    exact splitAt?_byteLength front back

/-- A slice that starts after whole characters. -/
theorem slice?_append (front back : List Char) (bytes : Nat) :
    slice? (front ++ back) (byteLength front) (byteLength front + bytes) =
      (splitAt? bytes back).map Prod.fst := by
  simp [slice?, splitAt?_byteLength]

end Utf8
