import Runnerd.Base64
import Runnerd.LossyText
import Runnerd.SealedBytes
import Runnerd.ServiceResolution
import Runnerd.Urls

/-!
`internal/server/secretbox.go` and `internal/config/secret.go`: the text forms of sealed
secrets. AES-GCM and SHA-256 are parameters, with the laws that `SealedBytes.Aead` states;
base64 is modelled.
-/

namespace Runnerd.SecretBox
open GoText SealedBytes

section Texts

/-- The bytes of a string. -/
def bytesOf (text : String) : SealedBytes.Bytes := LossyText.encode text.toList

/-- The string of bytes that are all below 128. -/
def textOf (bytes : SealedBytes.Bytes) : String :=
  String.ofList (bytes.map fun byte => Char.ofNat byte.toNat)

/-- `string(bytes)`; bytes that are no text read as U+FFFD. -/
def stringOf (bytes : SealedBytes.Bytes) : String := String.ofList (LossyText.decode bytes)

theorem stringOf_bytesOf (text : String) : stringOf (bytesOf text) = text := by
  rw [stringOf, bytesOf, LossyText.decode_encode, String.ofList_toList]

end Texts

section Secrets
variable (aead : Aead) (sum256 : SealedBytes.Bytes → aead.Key) (corruptInput : String → GoError)

def secretCipher (keyMaterial : String) : Except GoError aead.Key :=
  let keyMaterial := trimSpace keyMaterial
  if keyMaterial = "" then
    .error { message := "auth.encryption_key is required to encrypt secrets" }
  else .ok (sum256 (bytesOf keyMaterial))

def encryptSecret (nonce : Nonce aead) (plaintext keyMaterial : String) : Except GoError String :=
  let plaintext := trimSpace plaintext
  if plaintext = "" then .error { message := "secret is required" }
  else
    match secretCipher aead sum256 keyMaterial with
    | .error err => .error err
    | .ok key =>
        .ok (encryptedSecretPrefix ++
          textOf (Base64.encodeRaw Base64.url (box aead key nonce (bytesOf plaintext))))

def refusalError : Refusal → GoError
  | .truncated => { message := "encrypted secret is truncated" }
  | .unauthenticated => { message := "cipher: message authentication failed" }

/-- `decryptSecret` from behind the prefix on. -/
def openSealed (keyMaterial sealed : String) : Except GoError String :=
  match secretCipher aead sum256 keyMaterial with
  | .error err => .error err
  | .ok key =>
      match Base64.decodeRaw Base64.url (bytesOf sealed) with
      | none => .error (corruptInput sealed)
      | some raw =>
          match openBox aead key raw with
          | .error refusal => .error (refusalError refusal)
          | .ok plaintext => .ok (stringOf plaintext)

/-- A server whose cipher is this one. -/
def Opens (lookups : Lookups) (keyMaterial : String) : Prop :=
  lookups.openSealed = openSealed aead sum256 corruptInput keyMaterial

end Secrets

section Letters

def letterRune (byte : UInt8) : Char := Char.ofNat byte.toNat

theorem url_letters_ascii : ∀ byte ∈ Base64.url.letters,
    String.utf8EncodeChar (letterRune byte) = [byte] ∧ isSpace (letterRune byte) = false := by
  have all : Base64.url.letters.all (fun byte =>
      String.utf8EncodeChar (letterRune byte) == [byte] && !isSpace (letterRune byte)) = true := by
    decide
  intro byte member
  simpa using List.all_eq_true.mp all byte member

theorem bytesOf_textOf {bytes : SealedBytes.Bytes}
    (lettered : ∀ byte ∈ bytes, byte ∈ Base64.url.letters) :
    bytesOf (textOf bytes) = bytes := by
  rw [bytesOf, textOf, String.toList_ofList]
  induction bytes with
  | nil => rfl
  | cons byte rest ih =>
      have head := (url_letters_ascii byte (lettered byte List.mem_cons_self)).1
      have tail := ih fun later member => lettered later (List.mem_cons_of_mem byte member)
      rw [List.map_cons, LossyText.encode_cons, tail]
      exact congrArg (· ++ rest) head

theorem textOf_solid {bytes : SealedBytes.Bytes}
    (lettered : ∀ byte ∈ bytes, byte ∈ Base64.url.letters) :
    ∀ rune ∈ (textOf bytes).toList, isSpace rune = false := by
  intro rune member
  rw [textOf, String.toList_ofList] at member
  obtain ⟨byte, listed, rfl⟩ := List.mem_map.mp member
  exact (url_letters_ascii byte (lettered byte listed)).2

theorem prefix_solid : ∀ rune ∈ encryptedSecretPrefix.toList, isSpace rune = false := by
  intro rune member
  have solid : encryptedSecretPrefix.toList.all (fun rune => !isSpace rune) = true := by decide
  simpa using List.all_eq_true.mp solid rune member

/-- The stored form has no blank in it, so no trimming changes it. -/
theorem stored_trimmed {bytes : SealedBytes.Bytes}
    (lettered : ∀ byte ∈ bytes, byte ∈ Base64.url.letters) :
    trimSpace (encryptedSecretPrefix ++ textOf bytes) = encryptedSecretPrefix ++ textOf bytes := by
  have plain : ∀ rune ∈ (encryptedSecretPrefix ++ textOf bytes).toList, isSpace rune = false := by
    intro rune member
    rw [String.toList_append, List.mem_append] at member
    rcases member with front | back
    · exact prefix_solid rune front
    · exact textOf_solid lettered rune back
  rw [trimSpace, trimRunes_of_trimmed _ (trimmed_of_plain plain), String.ofList_toList]

theorem hasPrefix_append (front rest : String) : hasPrefix (front ++ rest) front = true := by
  rw [hasPrefix, String.toList_append, List.isPrefixOf_iff_prefix]
  exact List.prefix_append _ _

theorem trimPrefix_append (front rest : String) : trimPrefix (front ++ rest) front = rest := by
  rw [trimPrefix, if_pos (hasPrefix_append front rest), String.toList_append, List.drop_left,
    String.ofList_toList]

theorem hasPrefix_split {text front : String} (starts : hasPrefix text front = true) :
    text = front ++ trimPrefix text front := by
  have runes : front.toList <+: text.toList := List.isPrefixOf_iff_prefix.mp starts
  obtain ⟨rest, split⟩ := runes
  have whole : text = front ++ String.ofList rest := by
    apply String.toList_inj.mp
    rw [String.toList_append, String.toList_ofList, split]
  rw [whole, trimPrefix_append]

end Letters

section Secrecy
variable (aead : Aead) (sum256 : SealedBytes.Bytes → aead.Key) (corruptInput : String → GoError)

theorem secretCipher_ok {keyMaterial : String} (given : trimSpace keyMaterial ≠ "") :
    secretCipher aead sum256 keyMaterial = .ok (sum256 (bytesOf (trimSpace keyMaterial))) :=
  if_neg given

theorem encryptSecret_ok {nonce : Nonce aead} {plaintext keyMaterial stored : String}
    (kept : encryptSecret aead sum256 nonce plaintext keyMaterial = .ok stored) :
    trimSpace plaintext ≠ "" ∧ trimSpace keyMaterial ≠ "" ∧
      stored = encryptedSecretPrefix ++ textOf (Base64.encodeRaw Base64.url
        (box aead (sum256 (bytesOf (trimSpace keyMaterial))) nonce
          (bytesOf (trimSpace plaintext)))) := by
  unfold encryptSecret at kept
  by_cases blank : trimSpace plaintext = ""
  · simp [blank] at kept
  · by_cases unkeyed : trimSpace keyMaterial = ""
    · simp [blank, secretCipher, unkeyed] at kept
    · simp only [blank, if_false, secretCipher_ok aead sum256 unkeyed, Except.ok.injEq] at kept
      exact ⟨blank, unkeyed, kept.symm⟩

/-- A stored secret is one that the tables take as it is. -/
theorem encryptSecret_stored {nonce : Nonce aead} {plaintext keyMaterial stored : String}
    (kept : encryptSecret aead sum256 nonce plaintext keyMaterial = .ok stored) :
    trimSpace stored = stored ∧ stored ≠ "" := by
  obtain ⟨-, -, rfl⟩ := encryptSecret_ok aead sum256 kept
  constructor
  · exact stored_trimmed (Base64.encodeRaw_letters Base64.url _)
  · intro empty
    have runes := congrArg String.toList empty
    simp [encryptedSecretPrefix] at runes

/-- It opens to the trimmed plaintext under any spelling of the key that trims to the
same text. -/
theorem decryptSecret_stored {nonce : Nonce aead} {plaintext keyMaterial stored keyLater : String}
    {lookups : Lookups} (kept : encryptSecret aead sum256 nonce plaintext keyMaterial = .ok stored)
    (same : trimSpace keyLater = trimSpace keyMaterial)
    (opens : Opens aead sum256 corruptInput lookups keyLater) :
    decryptSecret lookups stored = .ok (trimSpace plaintext) := by
  obtain ⟨-, keyed, rfl⟩ := encryptSecret_ok aead sum256 kept
  have lettered := Base64.encodeRaw_letters Base64.url
    (box aead (sum256 (bytesOf (trimSpace keyMaterial))) nonce (bytesOf (trimSpace plaintext)))
  have keyedLater : trimSpace keyLater ≠ "" := by
    rw [same]
    exact keyed
  rw [decryptSecret, stored_trimmed lettered, if_neg (by simp [hasPrefix_append]),
    trimPrefix_append, opens, openSealed, secretCipher_ok aead sum256 keyedLater, same]
  simp only [bytesOf_textOf lettered, Base64.decodeRaw_encodeRaw, openBox_box, stringOf_bytesOf]

/-- A stored secret is one that the tables take as it is, and it opens to the trimmed
plaintext under any spelling of the key that trims to the same text. -/
theorem secret_round_trip (lookups : Lookups) (nonce : Nonce aead)
    (plaintext keyMaterial stored keyLater : String)
    (kept : encryptSecret aead sum256 nonce plaintext keyMaterial = .ok stored)
    (same : trimSpace keyLater = trimSpace keyMaterial)
    (opens : Opens aead sum256 corruptInput lookups keyLater) :
    trimSpace stored = stored ∧ stored ≠ "" ∧
      decryptSecret lookups stored = .ok (trimSpace plaintext) := by
  have solid := encryptSecret_stored aead sum256 kept
  exact ⟨solid.1, solid.2, decryptSecret_stored aead sum256 corruptInput kept same opens⟩

theorem octoCipher_unmarked : (21 :: [149, 189, 131, 34, 143, 208, 12, 155, 124, 174, 115, 128, 71,
    244, 70, 76, 244, 89, 161, 84, 41, 239] : SealedBytes.Bytes).head? ≠ some 0 := by decide

/-- AES-GCM on `e2b_key` under the digest of `octo-key`. -/
def octoSealing : Sealing where
  key := [201, 230, 138, 5, 68, 155, 213, 90, 154, 107, 148, 73, 108, 110, 105, 37, 236, 128, 110,
    226, 160, 227, 223, 170, 178, 52, 40, 11, 113, 184, 129, 16]
  nonce := [11, 22, 33, 44, 55, 66, 77, 88, 99, 110, 121, 132]
  plain := [101, 50, 98, 95, 107, 101, 121]
  cipher := [21, 149, 189, 131, 34, 143, 208, 12, 155, 124, 174, 115, 128, 71, 244, 70, 76, 244, 89,
    161, 84, 41, 239]
  filled := List.cons_ne_nil _ _
  unmarked := octoCipher_unmarked

def octoSum256 (_text : SealedBytes.Bytes) : octoSealing.aead.Key := octoSealing.key

def octoCorruptInput (_text : String) : GoError := { message := "illegal base64 data" }

/-- A server that has nothing but its key. -/
def octoLookups : Lookups where
  preference _ := .error .notFound
  secret _ := .error .notFound
  linkedToAccount _ _ := .ok false
  scopeForAccountLogin _ := .ok none
  scopeForPersonalInstallation _ := .ok none
  serviceDefault := .error .notFound
  installationOwner _ := .error .notFound
  audienceContains _ := .ok false
  openSealed := openSealed octoSealing.aead octoSum256 octoCorruptInput " octo-key\n"
  newClient _ _ := none

theorem octo_secret :
    encryptSecret octoSealing.aead octoSum256 ⟨octoSealing.nonce, rfl⟩ " e2b_key " "octo-key" =
        .ok "v1:CxYhLDdCTVhjbnmEFZW9gyKP0AybfK5zgEf0Rkz0WaFUKe8" ∧
      decryptSecret octoLookups "v1:CxYhLDdCTVhjbnmEFZW9gyKP0AybfK5zgEf0Rkz0WaFUKe8" =
        .ok (trimSpace " e2b_key ") := by
  have kept : encryptSecret octoSealing.aead octoSum256 ⟨octoSealing.nonce, rfl⟩ " e2b_key "
      "octo-key" = .ok "v1:CxYhLDdCTVhjbnmEFZW9gyKP0AybfK5zgEf0Rkz0WaFUKe8" := by
    decide +kernel
  have opened := secret_round_trip octoSealing.aead octoSum256 octoCorruptInput octoLookups _
    " e2b_key " "octo-key" _ " octo-key\n" kept (by decide) rfl
  exact ⟨kept, opened.2.2⟩

/-- Whatever opens is a box of the same key: the prefix, base64, a nonce, and what the
cipher makes of the plaintext's bytes under it. -/
theorem decryptSecret_box (lookups : Lookups) {keyMaterial ciphertext plaintext : String}
    (opens : Opens aead sum256 corruptInput lookups keyMaterial)
    (opened : decryptSecret lookups ciphertext = .ok plaintext) :
    ∃ text raw nonce bytes, trimSpace ciphertext = encryptedSecretPrefix ++ text ∧
      Base64.decodeRaw Base64.url (bytesOf text) = some raw ∧
      raw = box aead (sum256 (bytesOf (trimSpace keyMaterial))) nonce bytes ∧
      plaintext = stringOf bytes := by
  unfold decryptSecret at opened
  by_cases starts : hasPrefix (trimSpace ciphertext) encryptedSecretPrefix = true
  · simp only [starts, Bool.true_eq_false, if_false] at opened
    rw [opens, openSealed] at opened
    by_cases unkeyed : trimSpace keyMaterial = ""
    · simp [secretCipher, unkeyed] at opened
    · rw [secretCipher_ok aead sum256 unkeyed] at opened
      simp only at opened
      cases read : Base64.decodeRaw Base64.url
          (bytesOf (trimPrefix (trimSpace ciphertext) encryptedSecretPrefix)) with
      | none => simp [read] at opened
      | some raw =>
          simp only [read] at opened
          cases inner : openBox aead (sum256 (bytesOf (trimSpace keyMaterial))) raw with
          | error refusal => simp [inner] at opened
          | ok bytes =>
              simp only [inner, Except.ok.injEq] at opened
              obtain ⟨nonce, boxed⟩ := (openBox_iff aead _ raw bytes).mp inner
              exact ⟨_, raw, nonce, bytes, hasPrefix_split starts, read, boxed, opened.symm⟩
  · simp [starts] at opened

end Secrecy
end Runnerd.SecretBox
