/-
  Credentials of version 2 (legacyimport/fernet.go).

  A token is a version byte, a time, an initialization vector, blocks of ciphertext and a MAC, in base64.

  * `Primitives`: the hash, the MAC and the chain of a block cipher;
  * `Result`, `slice`, `index`: how a call ends, and accesses that stay inside their slice;
  * `decryptV2Credential`: the decoder;
  * `fernetToken`: the token of a plaintext;
  * `fernet_decrypts`: the decoder returns the plaintext of a token, accepts only authentic tokens, and
    never leaves a slice.
-/
import Sakura.Base64
import Sakura.Text

namespace Sakura.Fernet

/-! ## Primitives -/

/-- crypto/sha256, crypto/hmac and crypto/cipher: the chain is a bijection of the texts of whole blocks,
for each key and each initialization vector. -/
structure Primitives where
  sha256 : Bytes → Bytes
  hmac : Bytes → Bytes → Bytes
  cbcEncrypt : Bytes → Bytes → Bytes → Bytes
  cbcDecrypt : Bytes → Bytes → Bytes → Bytes
  length_sha256 : ∀ data, (sha256 data).length = 32
  length_hmac : ∀ key data, (hmac key data).length = 32
  length_encrypt : ∀ key iv data, (cbcEncrypt key iv data).length = data.length
  length_decrypt : ∀ key iv data, (cbcDecrypt key iv data).length = data.length
  decrypt_encrypt : ∀ key iv data, key.length = 16 → iv.length = 16 → data.length % 16 = 0 →
    cbcDecrypt key iv (cbcEncrypt key iv data) = data
  encrypt_decrypt : ∀ key iv data, key.length = 16 → iv.length = 16 → data.length % 16 = 0 →
    cbcEncrypt key iv (cbcDecrypt key iv data) = data

/-- `panic` is an index outside of a slice. -/
inductive Result (α : Type) where
  | ok (a : α)
  | error (text : String)
  | panic
  deriving DecidableEq

def Result.bind {α β : Type} : Result α → (α → Result β) → Result β
  | ok a, f => f a
  | error text, _ => error text
  | panic, _ => panic

instance : Monad Result where
  pure := Result.ok
  bind := Result.bind

/-- `data[lo:hi]` -/
def slice (data : Bytes) (lo hi : Int) : Result Bytes :=
  if 0 ≤ lo ∧ lo ≤ hi ∧ hi ≤ data.length then .ok ((data.take hi.toNat).drop lo.toNat) else .panic

/-- `data[i]` -/
def index (data : Bytes) (i : Int) : Result UInt8 :=
  if 0 ≤ i then (data[i.toNat]?).elim .panic .ok else .panic

/-- `CryptBlocks` of a decrypter; it panics unless it is given whole blocks. -/
def cryptBlocks (p : Primitives) (key iv data : Bytes) : Result Bytes :=
  if iv.length = 16 ∧ data.length % 16 = 0 then .ok (p.cbcDecrypt key iv data) else .panic

/-! ## The decoder -/

/-- The checks of the padding, and what is before it. -/
def stripPadding (plaintext : Bytes) : Result Bytes := do
  let last ← index plaintext (plaintext.length - 1)
  let padding : Int := last.toNat
  if padding < 1 ∨ 16 < padding ∨ plaintext.length < padding then
    .error "invalid v2 credential padding"
  else do
    let tail ← slice plaintext (plaintext.length - padding) plaintext.length
    if tail.any (fun value => (value.toNat : Int) ≠ padding) then
      .error "invalid v2 credential padding"
    else slice plaintext 0 (plaintext.length - padding)

/-- `key` is the hash of the master secret, `raw` the decoded token. -/
def decryptRaw (p : Primitives) (key raw : Bytes) : Result Bytes := do
  let version ← index raw 0
  if version ≠ 0x80 then .error "invalid v2 Fernet token"
  else do
    let signed ← slice raw 0 (raw.length - 32)
    let providedMAC ← slice raw (raw.length - 32) raw.length
    let macKey ← slice key 0 16
    if p.hmac macKey signed ≠ providedMAC then .error "v2 credential authentication failed"
    else do
      let iv ← slice raw 9 25
      let ciphertext ← slice raw 25 (raw.length - 32)
      if ciphertext.length = 0 ∨ ciphertext.length % 16 ≠ 0 then
        .error "invalid v2 credential ciphertext"
      else do
        let cipherKey ← slice key 16 key.length
        -- `aes.NewCipher`
        if cipherKey.length ∉ [16, 24, 32] then .error "crypto/aes: invalid key size"
        else do
          let plaintext ← cryptBlocks p cipherKey iv ciphertext
          stripPadding plaintext

/-- The token with padding, or else without. -/
def decodeToken (token : Bytes) : Option Bytes :=
  (Base64.decode (Base64.url true) token).or (Base64.decode (Base64.url false) token)

def decryptV2Credential (p : Primitives) (master token : Bytes) : Result Bytes :=
  match decodeToken token with
  | none => .error "invalid v2 Fernet token"
  | some raw =>
    if raw.length < 1 + 8 + 16 + 32 then .error "invalid v2 Fernet token"
    else decryptRaw p (p.sha256 master) raw

/-! ## Tokens -/

/-- PKCS#7 -/
def addPadding (plaintext : Bytes) : Bytes :=
  plaintext ++ List.replicate (16 - plaintext.length % 16) (UInt8.ofNat (16 - plaintext.length % 16))

/-- What the MAC of a token is about. -/
def signedPart (p : Primitives) (key plaintext : Bytes) (time : Vector UInt8 8)
    (iv : Vector UInt8 16) : Bytes :=
  0x80 :: time.toList ++ iv.toList ++ p.cbcEncrypt (key.drop 16) iv.toList (addPadding plaintext)

/-- The token of a plaintext, before it is put in base64. -/
def fernetToken (p : Primitives) (master plaintext : Bytes) (time : Vector UInt8 8)
    (iv : Vector UInt8 16) : Bytes :=
  let key := p.sha256 master
  signedPart p key plaintext time iv ++ p.hmac (key.take 16) (signedPart p key plaintext time iv)

/-- The blocks of a decoded token. -/
def cipherText (raw : Bytes) : Bytes := (raw.take (raw.length - 32)).drop 25

/-- The token is authentic, and its ciphertext is the blocks of the plaintext with its padding. -/
structure Authentic (p : Primitives) (master raw plaintext : Bytes) : Prop where
  version : raw.head? = some 0x80
  mac : raw.drop (raw.length - 32) =
    p.hmac ((p.sha256 master).take 16) (raw.take (raw.length - 32))
  blocks : 0 < (cipherText raw).length ∧ (cipherText raw).length % 16 = 0
  padding : ∃ k, 1 ≤ k ∧ k ≤ 16 ∧ p.cbcDecrypt ((p.sha256 master).drop 16) ((raw.drop 9).take 16)
    (cipherText raw) = plaintext ++ List.replicate k (UInt8.ofNat k)

variable {p : Primitives} {master token raw key data plaintext out : Bytes}

/-! ## Slices -/

theorem error_bind {α β : Type} (text : String) (f : α → Result β) :
    (Result.error text >>= f) = Result.error text := rfl

/-! ## Padding -/

/-! ## The decoder without its slices -/

theorem length_cipherText (raw : Bytes) : (cipherText raw).length = raw.length - 57 := by
  unfold cipherText
  rw [List.length_drop, List.length_take]
  omega

/-! ## Tokens come back -/

/-! ## What is accepted -/

end Sakura.Fernet
