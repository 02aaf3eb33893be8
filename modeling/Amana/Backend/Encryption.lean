import Mathlib
import Amana.Lib.Encodings
import Amana.Lib.Joined

/-!
# Encrypted texts

`encryption.service.ts` encrypts the personal data of a trade, decrypts it, and rotates it to
another version of the key.  The version stands in front of the encrypted text, which is told from a
plain one by its look alone.  What went in comes out of any number of rotations exactly when it is
not empty and every version can be told: of all but the last one that it looks like `v1`, of the
last one that it has no colon (`rotated_reads_iff`).
-/

namespace Amana.Backend.Encryption

open Lib Lib.Bytes Lib.Encodings

/-! ## The source -/

/-- What is used of node's `crypto`: SHA-256, `pbkdf2Sync` with 200,000 rounds of it for keys of 32
bytes, and AES-256-GCM with the encrypted bytes and the tag apart. -/
structure Crypto where
  sha256 : List UInt8 → List UInt8
  pbkdf2 : List UInt8 → List UInt8 → List UInt8
  cipher : List UInt8 → List UInt8 → List UInt8 → List UInt8 × List UInt8
  decipher : List UInt8 → List UInt8 → List UInt8 × List UInt8 → Except String (List UInt8)

/-- Random bytes for one encryption. -/
abbrev Iv := {bs : List UInt8 // bs.length = 12}

structure Crypto.Lawful (crypto : Crypto) : Prop where
  length_sha256 : ∀ bs, (crypto.sha256 bs).length = 32
  length_pbkdf2 : ∀ password salt, (crypto.pbkdf2 password salt).length = 32
  length_encrypted : ∀ key iv plain, (crypto.cipher key iv plain).1.length = plain.length
  length_tag : ∀ key iv plain, (crypto.cipher key iv plain).2.length = 16
  decipher_cipher : ∀ key (iv : Iv) plain, key.length = 32 →
    crypto.decipher key iv (crypto.cipher key iv plain) = .ok plain

structure EncryptionService where
  crypto : Crypto
  masterSecret : String

/-- The parts of an encrypted text. -/
structure Payload where
  keyVersion : List Char
  saltHex : List Char
  ivHex : List Char
  ciphertextHex : List Char
  tagHex : List Char

def parsePayload (ciphertext : String) : Except String Payload :=
  match ciphertext.toList.splitOn ':' with
  | [keyVersion, saltHex, ivHex, ciphertextHex, tagHex] =>
    if keyVersion = [] ∨ saltHex = [] ∨ ivHex = [] ∨ ciphertextHex = [] ∨ tagHex = [] then
      .error "Invalid encrypted payload"
    else .ok { keyVersion, saltHex, ivHex, ciphertextHex, tagHex }
  | _ => .error "Invalid encrypted payload"

/-- `/^v\d+$/i`. -/
def isKeyVersion (text : List Char) : Bool :=
  match text with
  | v :: digits => (v == 'v' || v == 'V') && !digits.isEmpty && digits.all Char.isDigit
  | [] => false

/-- `/^[0-9a-f]+$/i`. -/
def isHexText (text : List Char) : Bool := !text.isEmpty && text.all fun c => (digitValue c).isSome

/-- The parts of the pattern exclude the colon that stands between them. -/
def isEncryptedPayload (value : String) : Bool :=
  match value.toList.splitOn ':' with
  | [keyVersion, saltHex, ivHex, ciphertextHex, tagHex] =>
    isKeyVersion keyVersion && isHexText saltHex && isHexText ivHex && isHexText ciphertextHex &&
      isHexText tagHex
  | _ => false

variable (service : EncryptionService)

def saltFor (tradeId keyVersion : String) : List UInt8 :=
  service.crypto.sha256 (utf8 (service.masterSecret ++ ":" ++ tradeId ++ ":" ++ keyVersion))

def deriveKey (tradeId keyVersion : String) : List UInt8 :=
  service.crypto.pbkdf2 (utf8 service.masterSecret) (saltFor service tradeId keyVersion)

def encrypt (plaintext tradeId keyVersion : String) (iv : Iv) : String :=
  let encrypted := service.crypto.cipher (deriveKey service tradeId keyVersion) iv (utf8 plaintext)
  String.ofList ([':'].intercalate [keyVersion.toList, toHex (saltFor service tradeId keyVersion),
    toHex iv, toHex encrypted.1, toHex encrypted.2])

def decrypt (ciphertext tradeId : String) : Except String String := do
  let payload ← parsePayload ciphertext
  let key := deriveKey service tradeId (String.ofList payload.keyVersion)
  let plain ← service.crypto.decipher key (fromHex payload.ivHex)
    (fromHex payload.ciphertextHex, fromHex payload.tagHex)
  return decodeUtf8 plain

def rotateCiphertext (ciphertext tradeId newVersion : String) (iv : Iv) : Except String String :=
  if !isEncryptedPayload ciphertext then .ok (encrypt service ciphertext tradeId newVersion iv)
  else do
    let plaintext ← decrypt service ciphertext tradeId
    return encrypt service plaintext tradeId newVersion iv

/-- The key version an encryption is asked for, and its random bytes. -/
structure KeyUse where
  keyVersion : String
  iv : Iv

/-- An encrypted text after one rotation after the other. -/
def rotateAll (ciphertext tradeId : String) (uses : List KeyUse) : Except String String :=
  uses.foldlM (fun text use => rotateCiphertext service text tradeId use.keyVersion use.iv)
    ciphertext

/-! ## One encrypted text -/

variable {service : EncryptionService} {plaintext tradeId keyVersion : String} {iv : Iv}

/-- A version that can be read back from the front of an encrypted text. -/
def Readable (keyVersion : String) : Prop := keyVersion ≠ "" ∧ ':' ∉ keyVersion.toList

instance (keyVersion : String) : Decidable (Readable keyVersion) :=
  inferInstanceAs (Decidable (_ ∧ _))

theorem colon_not_mem_toHex (bs : List UInt8) : ':' ∉ toHex bs := fun h => by
  have hdigit := isSome_of_mem_toHex h
  revert hdigit
  decide

theorem utf8_ne_nil {s : String} (h : s ≠ "") : utf8 s ≠ [] :=
  fun hnil => h (utf8_injective (by rw [hnil]; rfl))

theorem isHexText_toHex_iff {bs : List UInt8} : isHexText (toHex bs) = true ↔ bs ≠ [] := by
  have hall : (toHex bs).all (fun c => (digitValue c).isSome) = true :=
    List.all_eq_true.2 fun c hc => isSome_of_mem_toHex hc
  simp [isHexText, hall]

theorem isHexText_toHex {bs : List UInt8} (h : bs ≠ []) : isHexText (toHex bs) = true :=
  isHexText_toHex_iff.2 h

theorem Iv.ne_nil (iv : Iv) : iv.1 ≠ [] :=
  List.ne_nil_of_length_pos (by rw [iv.2]; decide)

theorem Crypto.Lawful.saltFor_ne_nil (lawful : service.crypto.Lawful) (tradeId keyVersion : String) :
    saltFor service tradeId keyVersion ≠ [] :=
  List.ne_nil_of_length_pos (by rw [saltFor, lawful.length_sha256]; decide)

theorem Crypto.Lawful.tag_ne_nil {crypto : Crypto} (lawful : crypto.Lawful) (key iv plain) :
    (crypto.cipher key iv plain).2 ≠ [] :=
  List.ne_nil_of_length_pos (by rw [lawful.length_tag]; decide)

/-- Nothing is encrypted exactly where there is nothing to encrypt. -/
theorem Crypto.Lawful.encrypted_eq_nil_iff {crypto : Crypto} (lawful : crypto.Lawful) (key iv) :
    (crypto.cipher key iv (utf8 plaintext)).1 = [] ↔ plaintext = "" := by
  rw [← List.length_eq_zero_iff, lawful.length_encrypted, List.length_eq_zero_iff]
  exact ⟨fun h => by_contra fun hne => utf8_ne_nil hne h, fun h => by rw [h]; rfl⟩

/-- The parts an encrypted text is made of. -/
def encryptedParts (service : EncryptionService) (plaintext tradeId keyVersion : String) (iv : Iv) :
    List (List UInt8) :=
  [saltFor service tradeId keyVersion, iv,
    (service.crypto.cipher (deriveKey service tradeId keyVersion) iv (utf8 plaintext)).1,
    (service.crypto.cipher (deriveKey service tradeId keyVersion) iv (utf8 plaintext)).2]

theorem splitOn_encrypt : (encrypt service plaintext tradeId keyVersion iv).toList.splitOn ':' =
    keyVersion.toList.splitOn ':' ++
      (encryptedParts service plaintext tradeId keyVersion iv).map toHex := by
  let parts := (encryptedParts service plaintext tradeId keyVersion iv).map toHex
  have hparts : ([':'].intercalate parts).splitOn ':' = parts :=
    List.splitOn_intercalate ':' (by simp [parts, encryptedParts, colon_not_mem_toHex])
      (by simp [parts, encryptedParts])
  rw [encrypt, String.toList_ofList, Joined.intercalate_cons _ _ (by simp),
    List.splitOn_append_cons_self]
  exact congrArg _ hparts

theorem length_splitOn {text : List Char} (h : ':' ∈ text) : 2 ≤ (text.splitOn ':').length := by
  obtain ⟨before, after, rfl⟩ := List.append_of_mem h
  have hbefore := List.length_pos_iff.2 (List.splitOn_ne_nil ':' before)
  have hafter := List.length_pos_iff.2 (List.splitOn_ne_nil ':' after)
  rw [List.splitOn_append_cons_self, List.length_append]
  omega

/-- An encrypted text is parsed exactly when its version can be read back and there is anything in
it. -/
theorem parsePayload_encrypt (lawful : service.crypto.Lawful) :
    parsePayload (encrypt service plaintext tradeId keyVersion iv) =
      if Readable keyVersion ∧ plaintext ≠ "" then
        .ok { keyVersion := keyVersion.toList
              saltHex := toHex (saltFor service tradeId keyVersion)
              ivHex := toHex iv
              ciphertextHex := toHex (service.crypto.cipher (deriveKey service tradeId keyVersion) iv
                (utf8 plaintext)).1
              tagHex := toHex (service.crypto.cipher (deriveKey service tradeId keyVersion) iv
                (utf8 plaintext)).2 }
      else .error "Invalid encrypted payload" := by
  rw [parsePayload, splitOn_encrypt]
  by_cases hcolon : ':' ∈ keyVersion.toList
  · rw [if_neg fun h => h.1.2 hcolon]
    split
    · next heq =>
      have hlength := congrArg List.length heq
      have htwo := length_splitOn hcolon
      simp [encryptedParts] at hlength
      omega
    · rfl
  · have hsalt := mt toHex_eq_nil_iff.1 (lawful.saltFor_ne_nil tradeId keyVersion)
    have hiv := mt toHex_eq_nil_iff.1 iv.ne_nil
    have htag := mt toHex_eq_nil_iff.1 (lawful.tag_ne_nil
      (deriveKey service tradeId keyVersion) iv (utf8 plaintext))
    have hencrypted : toHex (service.crypto.cipher (deriveKey service tradeId keyVersion) iv
        (utf8 plaintext)).1 = [] ↔ plaintext = "" := by
      rw [toHex_eq_nil_iff, lawful.encrypted_eq_nil_iff]
    rw [List.splitOn_eq_singleton hcolon]
    simp only [encryptedParts, List.map_cons, List.map_nil, List.singleton_append, hsalt, hiv, htag,
      hencrypted, false_or, or_false, String.toList_eq_nil_iff]
    by_cases hversion : keyVersion = ""
    · simp [hversion, Readable]
    · by_cases hplain : plaintext = "" <;> simp [hversion, hplain, Readable, hcolon]

theorem decrypt_encrypt (lawful : service.crypto.Lawful) :
    decrypt service (encrypt service plaintext tradeId keyVersion iv) tradeId =
      if Readable keyVersion ∧ plaintext ≠ "" then .ok plaintext
      else .error "Invalid encrypted payload" := by
  rw [decrypt, parsePayload_encrypt lawful]
  split
  · simp only [bind, Except.bind, String.ofList_toList, fromHex_toHex]
    have hdecipher := lawful.decipher_cipher (deriveKey service tradeId keyVersion) iv
      (utf8 plaintext) (lawful.length_pbkdf2 _ _)
    rw [Prod.mk.eta, hdecipher]
    simp only [decodeUtf8_utf8]
    rfl
  · rfl

theorem Readable.of_isKeyVersion (h : isKeyVersion keyVersion.toList = true) :
    Readable keyVersion := by
  rw [Readable, ne_eq, ← String.toList_eq_nil_iff]
  cases hlist : keyVersion.toList with
  | nil => simp [hlist, isKeyVersion] at h
  | cons v digits =>
    simp only [hlist, isKeyVersion, Bool.and_eq_true, Bool.or_eq_true, beq_iff_eq,
      List.all_eq_true] at h
    obtain ⟨⟨hv, -⟩, hdigits⟩ := h
    refine ⟨List.cons_ne_nil v digits, ?_⟩
    rw [List.mem_cons, not_or]
    refine ⟨?_, fun hmem => absurd (hdigits _ hmem) (by decide)⟩
    rintro rfl
    simp at hv

/-- An encrypted text looks like one exactly when its version looks like `v1` and there is anything
in it. -/
theorem isEncryptedPayload_encrypt (lawful : service.crypto.Lawful)
    (plaintext tradeId keyVersion : String) (iv : Iv) :
    isEncryptedPayload (encrypt service plaintext tradeId keyVersion iv) = true ↔
      isKeyVersion keyVersion.toList = true ∧ plaintext ≠ "" := by
  rw [isEncryptedPayload, splitOn_encrypt]
  by_cases hcolon : ':' ∈ keyVersion.toList
  · have hfalse : ¬ isKeyVersion keyVersion.toList = true :=
      fun h => (Readable.of_isKeyVersion h).2 hcolon
    split
    · next heq =>
      have hlength := congrArg List.length heq
      have htwo := length_splitOn hcolon
      simp [encryptedParts] at hlength
      omega
    · simp [hfalse]
  · have hsalt := isHexText_toHex (lawful.saltFor_ne_nil tradeId keyVersion)
    have hiv := isHexText_toHex iv.ne_nil
    have htag := isHexText_toHex (lawful.tag_ne_nil (deriveKey service tradeId keyVersion) iv
      (utf8 plaintext))
    rw [List.splitOn_eq_singleton hcolon]
    simp only [encryptedParts, List.map_cons, List.map_nil, List.singleton_append, hsalt, hiv, htag,
      Bool.and_true, Bool.and_eq_true, and_congr_right_iff]
    rw [isHexText_toHex_iff, ne_eq, lawful.encrypted_eq_nil_iff]
    exact fun _ => Iff.rfl

/-! ## Rotations -/

variable {use : KeyUse} {uses : List KeyUse}

/-- What is in the encrypted text after rotations: a text that is not taken for an encrypted one is
encrypted once more. -/
def contents (service : EncryptionService) (tradeId : String) :
    String → KeyUse → List KeyUse → String
  | plaintext, _, [] => plaintext
  | plaintext, use, next :: uses =>
    contents service tradeId
      (if isKeyVersion use.keyVersion.toList ∧ plaintext ≠ "" then plaintext
        else encrypt service plaintext tradeId use.keyVersion use.iv) next uses

theorem rotateCiphertext_encrypt (lawful : service.crypto.Lawful) (next : KeyUse) :
    rotateCiphertext service (encrypt service plaintext tradeId keyVersion iv) tradeId
        next.keyVersion next.iv =
      .ok (encrypt service (if isKeyVersion keyVersion.toList ∧ plaintext ≠ "" then plaintext
        else encrypt service plaintext tradeId keyVersion iv) tradeId next.keyVersion next.iv) := by
  have hlook := isEncryptedPayload_encrypt lawful plaintext tradeId keyVersion iv
  by_cases h : isKeyVersion keyVersion.toList ∧ plaintext ≠ ""
  · have hread : Readable keyVersion ∧ plaintext ≠ "" := ⟨Readable.of_isKeyVersion h.1, h.2⟩
    simp only [rotateCiphertext, hlook.2 h, Bool.not_true, Bool.false_eq_true, if_false,
      decrypt_encrypt lawful, if_pos h, if_pos hread]
    rfl
  · rw [if_neg h, rotateCiphertext, Bool.eq_false_iff.2 fun hl => h (hlook.1 hl)]
    rfl

theorem rotateAll_encrypt (lawful : service.crypto.Lawful) :
    rotateAll service (encrypt service plaintext tradeId use.keyVersion use.iv) tradeId uses =
      .ok (encrypt service (contents service tradeId plaintext use uses) tradeId
        (uses.getLastD use).keyVersion (uses.getLastD use).iv) := by
  induction uses generalizing plaintext use with
  | nil => rfl
  | cons next uses ih =>
    rw [rotateAll, List.foldlM_cons, rotateCiphertext_encrypt lawful, List.getLastD_cons]
    exact ih

theorem length_encrypt (lawful : service.crypto.Lawful)
    (plaintext tradeId keyVersion : String) (iv : Iv) :
    (encrypt service plaintext tradeId keyVersion iv).length =
      keyVersion.length + 2 * (utf8 plaintext).length + 124 := by
  rw [← String.length_toList, ← keyVersion.length_toList, encrypt, String.toList_ofList,
    List.intercalate]
  simp only [List.intersperse]
  simp [saltFor, lawful.length_sha256, lawful.length_encrypted, lawful.length_tag, iv.2]
  omega

/-- An encrypted text is longer than what is in it. -/
theorem length_lt_length_encrypt (lawful : service.crypto.Lawful)
    (plaintext tradeId keyVersion : String) (iv : Iv) :
    (utf8 plaintext).length <
      (utf8 (encrypt service plaintext tradeId keyVersion iv)).length := by
  have hlength := length_encrypt lawful plaintext tradeId keyVersion iv
  have hle := length_le_length_utf8 (encrypt service plaintext tradeId keyVersion iv)
  omega

theorem length_le_length_contents (lawful : service.crypto.Lawful)
    (plaintext tradeId : String) (use : KeyUse) (uses : List KeyUse) :
    (utf8 plaintext).length ≤ (utf8 (contents service tradeId plaintext use uses)).length := by
  induction uses generalizing plaintext use with
  | nil => exact le_rfl
  | cons next uses ih =>
    rw [contents]
    refine le_trans ?_ (ih ..)
    split
    · exact le_rfl
    · exact (length_lt_length_encrypt lawful plaintext tradeId use.keyVersion use.iv).le

/-- What went in is in there as long as no encrypted text was taken for a plain one. -/
theorem contents_eq_iff (lawful : service.crypto.Lawful) (tradeId : String) (use : KeyUse)
    (uses : List KeyUse) (hplain : plaintext ≠ "") :
    contents service tradeId plaintext use uses = plaintext ↔
      ∀ v ∈ (use :: uses).dropLast, isKeyVersion v.keyVersion.toList = true := by
  induction uses generalizing use with
  | nil => simp [contents]
  | cons next uses ih =>
    rw [contents, List.dropLast_cons_of_ne_nil (List.cons_ne_nil next uses), List.forall_mem_cons]
    by_cases h : isKeyVersion use.keyVersion.toList = true
    · rw [if_pos ⟨h, hplain⟩, ih, and_iff_right h]
    · have hlt := length_lt_length_encrypt lawful plaintext tradeId use.keyVersion use.iv
      rw [if_neg fun hk => h hk.1]
      refine iff_of_false (fun heq => ?_) fun hall => h hall.1
      have hle := length_le_length_contents lawful
        (encrypt service plaintext tradeId use.keyVersion use.iv) tradeId next uses
      rw [heq] at hle
      omega

/-- What is encrypted and rotated any number of times is decrypted to what it was exactly when there
is anything in it, every version but the last one looks like `v1`, and the last one can be read
back. -/
theorem rotated_reads_iff (lawful : service.crypto.Lawful) (plaintext tradeId : String)
    (use : KeyUse) (uses : List KeyUse) :
    (do let ciphertext ← rotateAll service
          (encrypt service plaintext tradeId use.keyVersion use.iv) tradeId uses
        decrypt service ciphertext tradeId) = .ok plaintext ↔
      plaintext ≠ "" ∧ Readable (uses.getLastD use).keyVersion ∧
        ∀ v ∈ (use :: uses).dropLast, isKeyVersion v.keyVersion.toList = true := by
  rw [rotateAll_encrypt lawful]
  simp only [bind, Except.bind, decrypt_encrypt lawful]
  have hread (p : Prop) [Decidable p] (text error : String) :
      (if p then Except.ok text else .error error) = .ok plaintext ↔ p ∧ text = plaintext := by
    split <;> simp_all
  rw [hread]
  by_cases hplain : plaintext = ""
  · simp [hplain]
  · rw [and_iff_right hplain, ← contents_eq_iff lawful tradeId use uses hplain]
    constructor
    · rintro ⟨⟨hlast, -⟩, heq⟩
      exact ⟨hlast, heq⟩
    · rintro ⟨hlast, heq⟩
      exact ⟨⟨hlast, heq.symm ▸ hplain⟩, heq⟩

/-- A cipher that leaves the bytes as they are. -/
def Crypto.clear : Crypto where
  sha256 _ := List.replicate 32 0
  pbkdf2 _ _ := List.replicate 32 0
  cipher _ _ plain := (plain, List.replicate 16 0)
  decipher _ _ encrypted := .ok encrypted.1

theorem Crypto.clear_lawful : Crypto.clear.Lawful where
  length_sha256 _ := rfl
  length_pbkdf2 _ _ := rfl
  length_encrypted _ _ _ := rfl
  length_tag _ _ _ := rfl
  decipher_cipher _ _ _ _ := rfl

def Iv.zeros : Iv := ⟨List.replicate 12 0, rfl⟩

theorem rotated_reads_twice :
    (do let ciphertext ← rotateAll ⟨.clear, "secret"⟩
          (encrypt ⟨.clear, "secret"⟩ "Jo" "TRD-1" "v1" .zeros) "TRD-1"
          [⟨"v2", .zeros⟩, ⟨"next", .zeros⟩]
        decrypt ⟨.clear, "secret"⟩ ciphertext "TRD-1") = .ok "Jo" :=
  (rotated_reads_iff Crypto.clear_lawful "Jo" "TRD-1" ⟨"v1", .zeros⟩
    [⟨"v2", .zeros⟩, ⟨"next", .zeros⟩]).2 ⟨by decide, by decide, by decide⟩

end Amana.Backend.Encryption
