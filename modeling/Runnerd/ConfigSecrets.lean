import Runnerd.Base64
import Runnerd.SealedBytes
import Runnerd.Urls

/-!
`internal/config/secret.go` and the `-obfuscate-config-value` of `cmd/runnerd/main.go`: the
form in which a configuration file holds a value that is not to be read in passing. The
key of the form is part of the program.
-/

namespace Runnerd.ConfigSecrets
open SealedBytes
open Urls (Text code ascii)

inductive RevealError where
  | unsupported
  | encoding
  | truncated
  | authentication
  deriving DecidableEq

inductive ObfuscateError where
  | tooLong
  | empty
  deriving DecidableEq

def obfuscatedSecretPrefix : Text := ascii "RUNNERD_ENC(v1:"
def obfuscatedSecretSuffix : Text := ascii ")"

def hasPrefix (text front : Text) : Bool := front.isPrefixOf text

def hasSuffix (text back : Text) : Bool := back.isSuffixOf text

def trimPrefix (text front : Text) : Text :=
  if hasPrefix text front then text.drop front.length else text

def trimSuffix (text back : Text) : Text :=
  if hasSuffix text back then text.take (text.length - back.length) else text

section Forms
variable (aead : Aead) (obfuscationKey : aead.Key)

def obfuscateSecret (nonce : Nonce aead) (plaintext : Text) : Text :=
  obfuscatedSecretPrefix ++
    (Base64.encodeRaw Base64.url (box aead obfuscationKey nonce plaintext) ++
      obfuscatedSecretSuffix)

def revealError : Refusal → RevealError
  | .truncated => .truncated
  | .unauthenticated => .authentication

def revealObfuscatedSecret (value : Text) : Except RevealError Text :=
  if hasPrefix value (ascii "RUNNERD_ENC(") = false then .ok value
  else if hasPrefix value obfuscatedSecretPrefix = false ∨
      hasSuffix value obfuscatedSecretSuffix = false then .error .unsupported
  else
    match Base64.decodeRaw Base64.url
        (trimSuffix (trimPrefix value obfuscatedSecretPrefix) obfuscatedSecretSuffix) with
    | none => .error .encoding
    | some raw =>
        match openBox aead obfuscationKey raw with
        | .error refusal => .error (revealError refusal)
        | .ok plaintext => .ok plaintext

def maxSecretBytes : Nat := 1048576

def isLineEnd (c : UInt8) : Bool := c == code '\r' || c == code '\n'

/-- What `-obfuscate-config-value` prints for what it reads. -/
def writeObfuscatedConfigValue (nonce : Nonce aead) (input : Text) : Except ObfuscateError Text :=
  if maxSecretBytes < input.length then .error .tooLong
  else
    let value := input.rdropWhile isLineEnd
    if value = [] then .error .empty
    else .ok (obfuscateSecret aead obfuscationKey nonce value ++ [code '\n'])

theorem hasPrefix_append (front rest : Text) : hasPrefix (front ++ rest) front = true :=
  List.isPrefixOf_iff_prefix.mpr (List.prefix_append front rest)

theorem trimPrefix_append (front rest : Text) : trimPrefix (front ++ rest) front = rest := by
  rw [trimPrefix, if_pos (hasPrefix_append front rest), List.drop_left]

theorem hasSuffix_append (rest back : Text) : hasSuffix (rest ++ back) back = true :=
  List.isSuffixOf_iff_suffix.mpr (List.suffix_append rest back)

theorem trimSuffix_append (rest back : Text) : trimSuffix (rest ++ back) back = rest := by
  have long : (rest ++ back).length - back.length = rest.length := by simp
  rw [trimSuffix, if_pos (hasSuffix_append rest back), long, List.take_left]

theorem obfuscated_marked (rest : Text) :
    hasPrefix (obfuscatedSecretPrefix ++ rest) (ascii "RUNNERD_ENC(") = true := by
  have front : obfuscatedSecretPrefix = ascii "RUNNERD_ENC(" ++ ascii "v1:" := rfl
  rw [front, List.append_assoc]
  exact hasPrefix_append _ _

theorem reveal_obfuscateSecret (nonce : Nonce aead) (plaintext : Text) :
    revealObfuscatedSecret aead obfuscationKey (obfuscateSecret aead obfuscationKey nonce plaintext) =
      .ok plaintext := by
  have closed : hasSuffix (obfuscateSecret aead obfuscationKey nonce plaintext)
      obfuscatedSecretSuffix = true := by
    rw [obfuscateSecret, ← List.append_assoc]
    exact hasSuffix_append _ _
  rw [revealObfuscatedSecret, closed]
  simp only [obfuscateSecret, obfuscated_marked, hasPrefix_append, trimPrefix_append,
    trimSuffix_append, Base64.decodeRaw_encodeRaw, openBox_box, Bool.true_eq_false, or_self,
    if_false]

theorem prefix_unbroken : code '\n' ∉ obfuscatedSecretPrefix := by decide

theorem suffix_unbroken : code '\n' ∉ obfuscatedSecretSuffix := by decide

theorem obfuscateSecret_line (nonce : Nonce aead) (plaintext : Text) :
    code '\n' ∉ obfuscateSecret aead obfuscationKey nonce plaintext := by
  intro member
  rcases List.mem_append.mp member with front | later
  · exact prefix_unbroken front
  · rcases List.mem_append.mp later with letters | back
    · exact Base64.url.plain.1 (Base64.encodeRaw_letters Base64.url _ _ letters)
    · exact suffix_unbroken back

/-- The tool prints one line, and a configuration file with that line's value is read as
what the tool was given, without the line ends after it. It refuses only too long an
input, and one with nothing else than line ends. -/
theorem config_value_round_trip (nonce : Nonce aead) (input : Text) :
    (input.length ≤ maxSecretBytes ∧ input.rdropWhile isLineEnd ≠ [] ↔
        ∃ printed, writeObfuscatedConfigValue aead obfuscationKey nonce input = .ok printed) ∧
      ∀ printed, writeObfuscatedConfigValue aead obfuscationKey nonce input = .ok printed →
        ∃ value, printed = value ++ [code '\n'] ∧ code '\n' ∉ value ∧
          revealObfuscatedSecret aead obfuscationKey value = .ok (input.rdropWhile isLineEnd) := by
  by_cases long : maxSecretBytes < input.length
  · have refused : writeObfuscatedConfigValue aead obfuscationKey nonce input = .error .tooLong :=
      if_pos long
    have beyond : ¬ input.length ≤ maxSecretBytes := by omega
    simp [refused, beyond]
  · have within : input.length ≤ maxSecretBytes := by omega
    by_cases empty : input.rdropWhile isLineEnd = []
    · simp [writeObfuscatedConfigValue, long, empty]
    · have printed : writeObfuscatedConfigValue aead obfuscationKey nonce input =
          .ok (obfuscateSecret aead obfuscationKey nonce (input.rdropWhile isLineEnd) ++
            [code '\n']) := by
        rw [writeObfuscatedConfigValue, if_neg long]
        exact if_neg empty
      constructor
      · exact ⟨fun _ => ⟨_, printed⟩, fun _ => ⟨within, empty⟩⟩
      · intro shown same
        rw [printed, Except.ok.injEq] at same
        exact ⟨_, same.symm, obfuscateSecret_line aead obfuscationKey nonce _,
          reveal_obfuscateSecret aead obfuscationKey nonce _⟩

/-- A value of a configuration file is plain, or it is a box of the program's key, or it is
refused: no other text is taken for the secret it stands for. -/
theorem reveal_only (value plaintext : Text)
    (read : revealObfuscatedSecret aead obfuscationKey value = .ok plaintext) :
    hasPrefix value (ascii "RUNNERD_ENC(") = false ∧ plaintext = value ∨
      ∃ raw nonce, Base64.decodeRaw Base64.url
          (trimSuffix (trimPrefix value obfuscatedSecretPrefix) obfuscatedSecretSuffix) = some raw ∧
        raw = box aead obfuscationKey nonce plaintext := by
  unfold revealObfuscatedSecret at read
  by_cases unmarked : hasPrefix value (ascii "RUNNERD_ENC(") = false
  · rw [if_pos unmarked, Except.ok.injEq] at read
    exact Or.inl ⟨unmarked, read.symm⟩
  · right
    rw [if_neg unmarked] at read
    split at read
    · cases read
    · cases decoded : Base64.decodeRaw Base64.url
          (trimSuffix (trimPrefix value obfuscatedSecretPrefix) obfuscatedSecretSuffix) with
      | none => simp [decoded] at read
      | some raw =>
          simp only [decoded] at read
          cases opened : openBox aead obfuscationKey raw with
          | error refusal => simp [opened] at read
          | ok found =>
              simp only [opened, Except.ok.injEq] at read
              subst read
              obtain ⟨nonce, boxed⟩ := (openBox_iff aead _ raw found).mp opened
              exact ⟨raw, nonce, rfl, boxed⟩

end Forms
end Runnerd.ConfigSecrets
