import Mathlib.Data.List.Basic

/-!
Boxes of an authenticated cipher: a nonce of fixed length with what the cipher sealed
under it. A box is opened by cutting the nonce off again.
-/

namespace Runnerd.SealedBytes

abbrev Bytes := List UInt8

/-- An authenticated cipher without associated data. Under one key and nonce there is one
sealed form of a plaintext, and nothing else opens to it. -/
structure Aead where
  Key : Type
  nonceSize : Nat
  sealUnder : Key → Bytes → Bytes → Bytes
  openUnder : Key → Bytes → Bytes → Option Bytes
  openUnder_sealUnder : ∀ key nonce plain, openUnder key nonce (sealUnder key nonce plain) = some plain
  authentic : ∀ key nonce cipher plain,
    openUnder key nonce cipher = some plain → cipher = sealUnder key nonce plain
  tagged : ∀ key nonce plain, sealUnder key nonce plain ≠ []

inductive Refusal where
  | truncated
  | unauthenticated
  deriving DecidableEq

section Boxes
variable (aead : Aead)

/-- Nonces of the length that the cipher asks for. -/
def Nonce : Type := { bytes : Bytes // bytes.length = aead.nonceSize }

def box (key : aead.Key) (nonce : Nonce aead) (plain : Bytes) : Bytes :=
  nonce.val ++ aead.sealUnder key nonce.val plain

def openBox (key : aead.Key) (raw : Bytes) : Except Refusal Bytes :=
  if raw.length ≤ aead.nonceSize then .error .truncated
  else
    match aead.openUnder key (raw.take aead.nonceSize) (raw.drop aead.nonceSize) with
    | none => .error .unauthenticated
    | some plain => .ok plain

theorem openBox_box (key : aead.Key) (nonce : Nonce aead) (plain : Bytes) :
    openBox aead key (box aead key nonce plain) = .ok plain := by
  have long : 0 < (aead.sealUnder key nonce.val plain).length :=
    List.length_pos_iff.mpr (aead.tagged key nonce.val plain)
  have beyond : ¬ (box aead key nonce plain).length ≤ aead.nonceSize := by
    rw [box, List.length_append, nonce.property]
    omega
  have front : (box aead key nonce plain).take aead.nonceSize = nonce.val :=
    List.take_left' nonce.property
  have back : (box aead key nonce plain).drop aead.nonceSize = aead.sealUnder key nonce.val plain :=
    List.drop_left' nonce.property
  rw [openBox, if_neg beyond, front, back, aead.openUnder_sealUnder]

/-- Only boxes open. -/
theorem openBox_iff (key : aead.Key) (raw plain : Bytes) :
    openBox aead key raw = .ok plain ↔ ∃ nonce, raw = box aead key nonce plain := by
  constructor
  · intro opened
    unfold openBox at opened
    by_cases short : raw.length ≤ aead.nonceSize
    · simp [short] at opened
    · rw [if_neg short] at opened
      cases read : aead.openUnder key (raw.take aead.nonceSize) (raw.drop aead.nonceSize) with
      | none => simp [read] at opened
      | some found =>
          simp only [read, Except.ok.injEq] at opened
          subst opened
          have cipher := aead.authentic _ _ _ _ read
          have sized : (raw.take aead.nonceSize).length = aead.nonceSize := by
            rw [List.length_take]
            omega
          have split : raw = box aead key ⟨raw.take aead.nonceSize, sized⟩ found := by
            unfold box
            rw [← cipher, List.take_append_drop]
          exact ⟨_, split⟩
  · rintro ⟨nonce, rfl⟩
    exact openBox_box aead key nonce plain

end Boxes

section Trials

/-- One sealing of a cipher, for trials. -/
structure Sealing where
  key : Bytes
  nonce : Bytes
  plain : Bytes
  cipher : Bytes
  filled : cipher ≠ []
  unmarked : cipher.head? ≠ some 0

namespace Sealing
variable (sealing : Sealing)

/-- The cipher that has this sealing, and marks all other plaintexts with a zero. -/
def sealWith (key nonce plain : Bytes) : Bytes :=
  if (key, nonce, plain) = (sealing.key, sealing.nonce, sealing.plain) then sealing.cipher
  else 0 :: plain

def openWith (key nonce cipher : Bytes) : Option Bytes :=
  if cipher.head? = some 0 then
    if (key, nonce, cipher.tail) = (sealing.key, sealing.nonce, sealing.plain) then none
    else some cipher.tail
  else if (key, nonce, cipher) = (sealing.key, sealing.nonce, sealing.cipher) then
    some sealing.plain
  else none

theorem openWith_sealWith (key nonce plain : Bytes) :
    sealing.openWith key nonce (sealing.sealWith key nonce plain) = some plain := by
  by_cases own : (key, nonce, plain) = (sealing.key, sealing.nonce, sealing.plain)
  · have parts := own
    simp only [Prod.mk.injEq] at parts
    obtain ⟨rfl, rfl, rfl⟩ := parts
    simp [sealWith, openWith, sealing.unmarked]
  · simp only [sealWith, own, if_false, openWith, List.head?_cons, if_true, List.tail_cons]

theorem openWith_authentic (key nonce cipher plain : Bytes)
    (opened : sealing.openWith key nonce cipher = some plain) :
    cipher = sealing.sealWith key nonce plain := by
  unfold openWith at opened
  by_cases mark : cipher.head? = some 0
  · rw [if_pos mark] at opened
    by_cases own : (key, nonce, cipher.tail) = (sealing.key, sealing.nonce, sealing.plain)
    · simp [own] at opened
    · rw [if_neg own, Option.some.injEq] at opened
      subst opened
      rw [sealWith, if_neg own]
      exact List.eq_cons_of_mem_head? mark
  · rw [if_neg mark] at opened
    by_cases own : (key, nonce, cipher) = (sealing.key, sealing.nonce, sealing.cipher)
    · rw [if_pos own, Option.some.injEq] at opened
      simp only [Prod.mk.injEq] at own
      obtain ⟨rfl, rfl, rfl⟩ := own
      rw [sealWith, ← opened, if_pos rfl]
    · simp [own] at opened

theorem sealWith_tagged (key nonce plain : Bytes) : sealing.sealWith key nonce plain ≠ [] := by
  unfold sealWith
  split
  · exact sealing.filled
  · exact List.cons_ne_nil 0 plain

def aead : Aead where
  Key := Bytes
  nonceSize := sealing.nonce.length
  sealUnder := sealing.sealWith
  openUnder := sealing.openWith
  openUnder_sealUnder := sealing.openWith_sealWith
  authentic := sealing.openWith_authentic
  tagged := sealing.sealWith_tagged

end Sealing
end Trials

end Runnerd.SealedBytes
