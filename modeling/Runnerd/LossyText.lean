import Mathlib.Data.List.Basic

/-!
Text that is read from bytes which need not be UTF-8. Each byte that does not begin the
encoding of a rune is read as U+FFFD, so the text is longer than the bytes where there is
one, and cannot be told from text that has U+FFFD there.
-/

namespace Runnerd.LossyText

def replacement : Char := '\ufffd'

def encode (text : List Char) : List UInt8 := text.flatMap String.utf8EncodeChar

/-- The rune that the bytes begin with. -/
def firstRune (bytes : List UInt8) : Option Char := bytes.toByteArray.utf8DecodeChar? 0

def decode (bytes : List UInt8) : List Char :=
  match bytes with
  | [] => []
  | byte :: rest =>
      match firstRune (byte :: rest) with
      | none => replacement :: decode rest
      | some rune => rune :: decode (rest.drop (rune.utf8Size - 1))
termination_by bytes.length
decreasing_by
  · simp
  · simp only [List.length_drop, List.length_cons]
    omega

/-- The bytes are the encoding of some text. -/
def Valid (bytes : List UInt8) : Prop := ∃ text, bytes = encode text

@[simp] theorem encode_nil : encode [] = [] := rfl

@[simp] theorem encode_cons (rune : Char) (text : List Char) :
    encode (rune :: text) = String.utf8EncodeChar rune ++ encode text := rfl

@[simp] theorem encode_append (one two : List Char) : encode (one ++ two) = encode one ++ encode two :=
  List.flatMap_append

@[simp] theorem decode_nil : decode [] = [] := by
  rw [decode]

theorem firstRune_encode (rune : Char) (rest : List UInt8) :
    firstRune (String.utf8EncodeChar rune ++ rest) = some rune := by
  rw [firstRune, List.toByteArray_append]
  exact ByteArray.utf8DecodeChar?_utf8EncodeChar_append

/-- Bytes that begin with a rune begin with its encoding. -/
theorem firstRune_split {bytes : List UInt8} {rune : Char} (first : firstRune bytes = some rune) :
    bytes = String.utf8EncodeChar rune ++ bytes.drop rune.utf8Size := by
  obtain ⟨rest, same⟩ := ByteArray.exists_of_utf8DecodeChar?_eq_some first
  have lists : bytes = String.utf8EncodeChar rune ++ rest.data.toList := by
    simpa using congrArg (fun array => array.data.toList) same
  have size : (String.utf8EncodeChar rune).length = rune.utf8Size := String.length_utf8EncodeChar rune
  rw [lists, List.drop_left' size]

theorem decode_rune (rune : Char) (rest : List UInt8) :
    decode (String.utf8EncodeChar rune ++ rest) = rune :: decode rest := by
  have size : (String.utf8EncodeChar rune).length = rune.utf8Size := String.length_utf8EncodeChar rune
  have first := firstRune_encode rune rest
  cases bytes : String.utf8EncodeChar rune with
  | nil =>
      rw [bytes] at size
      exact absurd size.symm (Nat.ne_of_gt rune.utf8Size_pos)
  | cons byte tail =>
      rw [bytes] at first size
      rw [List.cons_append] at first ⊢
      rw [decode]
      simp only [first]
      rw [← size, List.length_cons, Nat.add_sub_cancel, List.drop_left]

@[simp] theorem decode_encode (text : List Char) : decode (encode text) = text := by
  induction text with
  | nil => simp
  | cons rune text ih => rw [encode_cons, decode_rune, ih]

theorem length_replacement : (String.utf8EncodeChar replacement).length = 3 := by
  decide

/-- Reading never makes bytes fewer, and leaves them as they are where it does not make
them more. -/
theorem encode_decode (bytes : List UInt8) : bytes.length ≤ (encode (decode bytes)).length ∧
    ((encode (decode bytes)).length = bytes.length → encode (decode bytes) = bytes) := by
  induction bytes using decode.induct with
  | case1 => simp
  | case2 byte rest none_ ih =>
      rw [decode]
      simp only [none_, encode_cons, List.length_append, length_replacement, List.length_cons]
      omega
  | case3 byte rest rune first ih =>
      have split_ := firstRune_split first
      have size : (String.utf8EncodeChar rune).length = rune.utf8Size :=
        String.length_utf8EncodeChar rune
      have tail : (byte :: rest).drop rune.utf8Size = rest.drop (rune.utf8Size - 1) := by
        obtain ⟨more, eq⟩ := Nat.exists_eq_succ_of_ne_zero (Nat.ne_of_gt rune.utf8Size_pos)
        rw [eq, List.drop_succ_cons, Nat.succ_sub_one]
      rw [tail] at split_
      rw [decode]
      simp only [first, encode_cons]
      rw [split_]
      simp only [List.length_append]
      refine ⟨by omega, fun same => ?_⟩
      rw [ih.2 (by omega)]

theorem valid_iff {bytes : List UInt8} : Valid bytes ↔ encode (decode bytes) = bytes := by
  constructor
  · rintro ⟨text, rfl⟩
    rw [decode_encode]
  · intro same
    exact ⟨_, same.symm⟩

theorem pieces_longer (pieces : List (List UInt8)) :
    pieces.flatten.length ≤ (encode (pieces.flatMap decode)).length := by
  induction pieces with
  | nil => simp
  | cons piece pieces ih =>
      have longer := (encode_decode piece).1
      simp only [List.flatten_cons, List.flatMap_cons, encode_append, List.length_append]
      omega

/-- Pieces that are read one by one give back the bytes where each of them is text. -/
theorem pieces_iff (pieces : List (List UInt8)) :
    encode (pieces.flatMap decode) = pieces.flatten ↔ ∀ piece ∈ pieces, Valid piece := by
  constructor
  · intro same
    induction pieces with
    | nil => simp
    | cons piece pieces ih =>
        rw [List.flatMap_cons, encode_append, List.flatten_cons] at same
        have lengths := congrArg List.length same
        have longer := (encode_decode piece).1
        have rest := pieces_longer pieces
        simp only [List.length_append] at lengths
        -- No piece can make up for another that has grown.
        have own := (encode_decode piece).2 (by omega)
        rw [own, List.append_cancel_left_eq] at same
        simp only [List.mem_cons, forall_eq_or_imp]
        exact ⟨valid_iff.mpr own, ih same⟩
  · intro valid
    induction pieces with
    | nil => simp
    | cons piece pieces ih =>
        rw [List.flatMap_cons, encode_append, valid_iff.mp (valid piece (by simp)),
          ih fun other member => valid other (by simp [member]), List.flatten_cons]

end Runnerd.LossyText
