import Mathlib.Data.List.Basic
import Mathlib.Data.List.DropRight
import Mathlib.Data.List.GetD
import Mathlib.Data.List.Nodup

/-!
Base64 over bytes: an alphabet of sixty-four letters, the sixes of bits of a byte
string, and both ends of the coding with and without padding. Line breaks between
letters are skipped by the reader, and the bits that a last letter has too many
are dropped.
-/

namespace Runnerd.Base64

abbrev Bytes := List UInt8

def newline : UInt8 := 10
def carriageReturn : UInt8 := 13
def padding : UInt8 := 61

structure Alphabet where
  letters : Bytes
  sixtyFour : letters.length = 64
  distinct : letters.Nodup
  plain : newline ∉ letters ∧ carriageReturn ∉ letters ∧ padding ∉ letters

section Sixes

/-- The values of the letters that the bytes are written as. -/
def sixes : Bytes → List Nat
  | [] => []
  | [a] => [a.toNat / 4, a.toNat % 4 * 16]
  | [a, b] => [a.toNat / 4, a.toNat % 4 * 16 + b.toNat / 16, b.toNat % 16 * 4]
  | a :: b :: c :: rest =>
      a.toNat / 4 :: (a.toNat % 4 * 16 + b.toNat / 16) ::
        (b.toNat % 16 * 4 + c.toNat / 64) :: c.toNat % 64 :: sixes rest

def first (x y : Nat) : UInt8 := UInt8.ofNat (x * 4 + y / 16)
def second (y z : Nat) : UInt8 := UInt8.ofNat (y % 16 * 16 + z / 4)
def third (z w : Nat) : UInt8 := UInt8.ofNat (z % 4 * 64 + w)

/-- A single letter left over holds no byte. -/
def octets : List Nat → Option Bytes
  | [] => some []
  | [_] => none
  | [x, y] => some [first x y]
  | [x, y, z] => some [first x y, second y z]
  | x :: y :: z :: w :: rest =>
      (octets rest).map fun bytes => first x y :: second y z :: third z w :: bytes

theorem byte_below (byte : UInt8) : byte.toNat < 256 := byte.toNat_lt

theorem first_sixes (a : UInt8) (low : Nat) (small : low < 16) :
    first (a.toNat / 4) (a.toNat % 4 * 16 + low) = a := by
  have below := byte_below a
  have value : a.toNat / 4 * 4 + (a.toNat % 4 * 16 + low) / 16 = a.toNat := by omega
  rw [first, value, UInt8.ofNat_toNat]

theorem second_sixes (a b : UInt8) (low : Nat) (small : low < 4) :
    second (a.toNat % 4 * 16 + b.toNat / 16) (b.toNat % 16 * 4 + low) = b := by
  have below := byte_below b
  have value : (a.toNat % 4 * 16 + b.toNat / 16) % 16 * 16 + (b.toNat % 16 * 4 + low) / 4 =
      b.toNat := by omega
  rw [second, value, UInt8.ofNat_toNat]

theorem third_sixes (b c : UInt8) :
    third (b.toNat % 16 * 4 + c.toNat / 64) (c.toNat % 64) = c := by
  have below := byte_below c
  have value : (b.toNat % 16 * 4 + c.toNat / 64) % 4 * 64 + c.toNat % 64 = c.toNat := by omega
  rw [third, value, UInt8.ofNat_toNat]

theorem octets_sixes (bytes : Bytes) : octets (sixes bytes) = some bytes := by
  induction bytes using sixes.induct with
  | case1 => rfl
  | case2 a =>
      have only := first_sixes a 0 (by omega)
      simp only [Nat.add_zero] at only
      simp only [sixes, octets, only]
  | case3 a b =>
      have below := byte_below b
      have one := first_sixes a (b.toNat / 16) (by omega)
      have two := second_sixes a b 0 (by omega)
      simp only [Nat.add_zero] at two
      simp only [sixes, octets, one, two]
  | case4 a b c rest ih =>
      have belowB := byte_below b
      have belowC := byte_below c
      have one := first_sixes a (b.toNat / 16) (by omega)
      have two := second_sixes a b (c.toNat / 64) (by omega)
      simp only [sixes, octets, ih, Option.map_some, one, two, third_sixes b c]

theorem sixes_below (bytes : Bytes) : ∀ value ∈ sixes bytes, value < 64 := by
  induction bytes using sixes.induct with
  | case1 => simp [sixes]
  | case2 a =>
      have below := byte_below a
      simp only [sixes, List.mem_cons, List.not_mem_nil, or_false, forall_eq_or_imp, forall_eq]
      omega
  | case3 a b =>
      have belowA := byte_below a
      have belowB := byte_below b
      simp only [sixes, List.mem_cons, List.not_mem_nil, or_false, forall_eq_or_imp, forall_eq]
      omega
  | case4 a b c rest ih =>
      have belowA := byte_below a
      have belowB := byte_below b
      have belowC := byte_below c
      simp only [sixes, List.mem_cons, forall_eq_or_imp]
      exact ⟨by omega, by omega, by omega, by omega, ih⟩

end Sixes

section Alphabets

def byteOf (rune : Char) : UInt8 := UInt8.ofNat rune.toNat

def standardLetters : Bytes :=
  "ABCDEFGHIJKLMNOPQRSTUVWXYZabcdefghijklmnopqrstuvwxyz0123456789+/".toList.map byteOf

def urlLetters : Bytes :=
  "ABCDEFGHIJKLMNOPQRSTUVWXYZabcdefghijklmnopqrstuvwxyz0123456789-_".toList.map byteOf

theorem standardLetters_length : standardLetters.length = 64 := by decide

theorem standardLetters_nodup : standardLetters.Nodup := by decide

theorem standardLetters_plain : newline ∉ standardLetters ∧ carriageReturn ∉ standardLetters ∧
    padding ∉ standardLetters := by decide

theorem urlLetters_length : urlLetters.length = 64 := by decide

theorem urlLetters_nodup : urlLetters.Nodup := by decide

theorem urlLetters_plain : newline ∉ urlLetters ∧ carriageReturn ∉ urlLetters ∧
    padding ∉ urlLetters := by decide

def standard : Alphabet :=
  ⟨standardLetters, standardLetters_length, standardLetters_nodup, standardLetters_plain⟩

def url : Alphabet := ⟨urlLetters, urlLetters_length, urlLetters_nodup, urlLetters_plain⟩

end Alphabets

section Letters
variable (alphabet : Alphabet)

def Alphabet.letter (value : Nat) : UInt8 := alphabet.letters.getD value 0

def Alphabet.value (letter : UInt8) : Option Nat :=
  if letter ∈ alphabet.letters then some (alphabet.letters.idxOf letter) else none

def values : Bytes → Option (List Nat)
  | [] => some []
  | letter :: rest =>
      match alphabet.value letter, values rest with
      | some value, some more => some (value :: more)
      | _, _ => none

theorem Alphabet.letter_mem {value : Nat} (small : value < 64) :
    alphabet.letter value ∈ alphabet.letters := by
  have inside : value < alphabet.letters.length := by
    rw [alphabet.sixtyFour]
    exact small
  rw [letter, List.getD_eq_getElem _ _ inside]
  exact List.getElem_mem inside

theorem Alphabet.value_letter {value : Nat} (small : value < 64) :
    alphabet.value (alphabet.letter value) = some value := by
  have inside : value < alphabet.letters.length := by
    rw [alphabet.sixtyFour]
    exact small
  rw [Alphabet.value, if_pos (alphabet.letter_mem small), letter, List.getD_eq_getElem _ _ inside,
    alphabet.distinct.idxOf_getElem value inside]

theorem values_letters {sextets : List Nat} (small : ∀ value ∈ sextets, value < 64) :
    values alphabet (sextets.map alphabet.letter) = some sextets := by
  induction sextets with
  | nil => rfl
  | cons value rest ih =>
      have head := alphabet.value_letter (small value List.mem_cons_self)
      have tail := ih fun later member => small later (List.mem_cons_of_mem value member)
      simp only [List.map_cons, values, head, tail]

/-- What `RawEncoding.EncodeToString` writes. -/
def encodeRaw (bytes : Bytes) : Bytes := (sixes bytes).map alphabet.letter

def isBreak (byte : UInt8) : Bool := byte == newline || byte == carriageReturn

def dropBreaks (text : Bytes) : Bytes := text.filter fun byte => !isBreak byte

/-- What `RawEncoding.DecodeString` reads. -/
def decodeRaw (text : Bytes) : Option Bytes :=
  (values alphabet (dropBreaks text)).bind octets

theorem encodeRaw_letters (bytes : Bytes) :
    ∀ byte ∈ encodeRaw alphabet bytes, byte ∈ alphabet.letters := by
  intro byte member
  obtain ⟨value, listed, rfl⟩ := List.mem_map.mp member
  exact alphabet.letter_mem (sixes_below bytes value listed)

theorem Alphabet.letter_not_break {byte : UInt8} (member : byte ∈ alphabet.letters) :
    isBreak byte = false := by
  have apart : byte ≠ newline ∧ byte ≠ carriageReturn := by
    constructor
    · rintro rfl
      exact alphabet.plain.1 member
    · rintro rfl
      exact alphabet.plain.2.1 member
  simp [isBreak, apart]

theorem dropBreaks_letters {text : Bytes} (lettered : ∀ byte ∈ text, byte ∈ alphabet.letters) :
    dropBreaks text = text := by
  rw [dropBreaks, List.filter_eq_self]
  intro byte member
  simp [alphabet.letter_not_break (lettered byte member)]

theorem decodeRaw_encodeRaw (bytes : Bytes) :
    decodeRaw alphabet (encodeRaw alphabet bytes) = some bytes := by
  rw [decodeRaw, dropBreaks_letters alphabet (encodeRaw_letters alphabet bytes), encodeRaw,
    values_letters alphabet (sixes_below bytes)]
  exact octets_sixes bytes

theorem encodeRaw_injective : Function.Injective (encodeRaw alphabet) := by
  intro one two same
  have read := decodeRaw_encodeRaw alphabet one
  rw [same, decodeRaw_encodeRaw] at read
  exact (Option.some.inj read).symm

theorem encodeRaw_nil_iff (bytes : Bytes) : encodeRaw alphabet bytes = [] ↔ bytes = [] := by
  constructor
  · intro empty
    exact encodeRaw_injective alphabet (empty.trans rfl)
  · rintro rfl
    rfl

end Letters

section Padded
variable (alphabet : Alphabet)

/-- The `=` signs that fill the last group of four. -/
def pads (bytes : Bytes) : Bytes :=
  match bytes.length % 3 with
  | 1 => [padding, padding]
  | 2 => [padding]
  | _ => []

/-- What `Encoding.EncodeToString` writes. -/
def encode (bytes : Bytes) : Bytes := encodeRaw alphabet bytes ++ pads bytes

def isPad (byte : UInt8) : Bool := byte == padding

/-- A reader of padded text: whole groups of four, with no more than two signs at the end. -/
def decode (text : Bytes) : Option Bytes :=
  let text := dropBreaks text
  let written := text.rdropWhile isPad
  if text.length % 4 = 0 ∧ text.length ≤ written.length + 2 then
    (values alphabet written).bind octets
  else none

theorem length_sixes (bytes : Bytes) :
    (sixes bytes).length % 4 = (if bytes.length % 3 = 0 then 0 else bytes.length % 3 + 1) := by
  induction bytes using sixes.induct with
  | case1 => rfl
  | case2 a => rfl
  | case3 a b => rfl
  | case4 a b c rest ih =>
      simp only [sixes, List.length_cons, Nat.add_assoc]
      rw [Nat.add_mod_right, Nat.add_mod_right, ih]

theorem length_encode (bytes : Bytes) : (encode alphabet bytes).length % 4 = 0 := by
  have rest := length_sixes bytes
  have written : (encodeRaw alphabet bytes).length = (sixes bytes).length := by simp [encodeRaw]
  have remainder : bytes.length % 3 = 0 ∨ bytes.length % 3 = 1 ∨ bytes.length % 3 = 2 := by omega
  rw [encode, List.length_append, written]
  rcases remainder with whole | one | two
  · rw [if_pos whole] at rest
    simp [pads, whole, rest]
  · rw [if_neg (by omega), one] at rest
    simp only [pads, one, List.length_cons, List.length_nil]
    omega
  · rw [if_neg (by omega), two] at rest
    simp only [pads, two, List.length_cons, List.length_nil]
    omega

theorem pads_all (bytes : Bytes) : ∀ byte ∈ pads bytes, byte = padding := by
  intro byte member
  unfold pads at member
  split at member <;> simp_all

theorem length_pads (bytes : Bytes) : (pads bytes).length ≤ 2 := by
  unfold pads
  split <;> simp

theorem encode_plain (bytes : Bytes) :
    ∀ byte ∈ encode alphabet bytes, byte ∈ alphabet.letters ∨ byte = padding := by
  intro byte member
  rcases List.mem_append.mp member with written | pad
  · exact Or.inl (encodeRaw_letters alphabet bytes byte written)
  · exact Or.inr (pads_all bytes byte pad)

theorem rdropWhile_pads {written signs : Bytes} (filled : ∀ byte ∈ signs, isPad byte = true)
    (bare : ∀ byte ∈ written, isPad byte = false) : (written ++ signs).rdropWhile isPad = written := by
  induction signs using List.reverseRecOn with
  | nil =>
      rw [List.append_nil, List.rdropWhile_eq_self_iff]
      intro nonempty
      simp [bare _ (List.getLast_mem nonempty)]
  | append_singleton signs sign ih =>
      rw [← List.append_assoc, List.rdropWhile_concat_pos _ _ _ (filled sign (by simp))]
      exact ih fun byte member => filled byte (List.mem_append_left _ member)

theorem decode_encode (bytes : Bytes) : decode alphabet (encode alphabet bytes) = some bytes := by
  have unbroken : dropBreaks (encode alphabet bytes) = encode alphabet bytes := by
    rw [dropBreaks, List.filter_eq_self]
    intro byte member
    rcases encode_plain alphabet bytes byte member with lettered | rfl
    · simp [alphabet.letter_not_break lettered]
    · rfl
  have written : (encode alphabet bytes).rdropWhile isPad = encodeRaw alphabet bytes := by
    apply rdropWhile_pads
    · intro byte member
      simp [isPad, pads_all bytes byte member]
    · intro byte member
      have lettered := encodeRaw_letters alphabet bytes byte member
      have apart : byte ≠ padding := by
        rintro rfl
        exact alphabet.plain.2.2 lettered
      simp [isPad, apart]
  have whole := length_encode alphabet bytes
  have filled := length_pads bytes
  have long : (encode alphabet bytes).length ≤ (encodeRaw alphabet bytes).length + 2 := by
    simp only [encode, List.length_append]
    omega
  simp only [decode, unbroken, written, whole, long, and_self, if_true]
  rw [encodeRaw, values_letters alphabet (sixes_below bytes)]
  exact octets_sixes bytes

end Padded
end Runnerd.Base64
