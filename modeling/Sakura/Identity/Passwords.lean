/-
  Passwords (security/security.go, the hashes of passwords).

  A hash is a text of six fields with '$' between them. It holds the parameters, the salt and the
  digest, so that it can be computed again.

  * `Kdf`: argon2id and scrypt;
  * `scanParameters`: what Sscanf reads of the parameters;
  * `Argon`, `Argon.Bounded`, `readArgon`: the fields of a hash, and their bounds;
  * `hashPassword`, `verifyPassword`: the operations;
  * `verifyPassword_legacy`: the hashes of version 2;
  * `verifyPassword_hash`: a hash holds what it was computed from, and verifies the passwords with
    the same digest.
-/
import Mathlib.Algebra.Group.Nat.Defs
import Mathlib.Algebra.Ring.Int.Defs
import Sakura.Base64
import Sakura.Text

namespace Sakura.Passwords

open Base64 (ascii encode decode std url)

/-! ## Texts -/

/-- golang.org/x/crypto: `argon2.IDKey` of a password, a salt, the iterations, the memory, the
parallelism and the length, and `scrypt.Key`, which can fail. -/
structure Kdf where
  idKey : Bytes → Bytes → Nat → Nat → Nat → Nat → Bytes
  scryptKey : Bytes → Bytes → Int → Int → Int → Nat → Option Bytes
  length_idKey : ∀ password salt iterations memory parallelism length,
    (idKey password salt iterations memory parallelism length).length = length

/-- '$' -/
def dollar : UInt8 := 36

def isDigit (c : UInt8) : Bool := 48 ≤ c && c ≤ 57

def decimal (digits : Bytes) : Nat := digits.foldl (fun n c => n * 10 + (c.toNat - 48)) 0

/-- `strconv.Atoi` -/
def atoi (text : Bytes) : Option Int :=
  let digits := if text.head? = some 43 ∨ text.head? = some 45 then text.tail else text
  let n : Int := if text.head? = some 45 then -decimal digits else decimal digits
  if digits = [] ∨ !digits.all isDigit ∨ n < -2 ^ 63 ∨ 2 ^ 63 ≤ n then none else some n

/-! ## Reading the parameters -/

/-- `SkipSpace`: a line break that is skipped is an error. -/
def skipSpace (text : Bytes) : Option Bytes :=
  let rest := stripAll spaceEncodings text.length text
  if 10 ∈ text.take (text.length - rest.length) then none else some rest

/-- The characters of a format that are no verbs. -/
def scanLiteral (literal text : Bytes) : Option Bytes :=
  if literal.isPrefixOf text then some (text.drop literal.length) else none

/-- The verb %d, for an unsigned integer of `bits` bits. -/
def scanUint (bits : Nat) (text : Bytes) : Option (Nat × Bytes) := do
  let text ← skipSpace text
  let digits := text.takeWhile isDigit
  if digits = [] ∨ 2 ^ bits ≤ decimal digits then none
  else some (decimal digits, text.dropWhile isDigit)

/-- `fmt.Sscanf` with the format "m=%d,t=%d,p=%d"; what follows is not read. -/
def scanParameters (text : Bytes) : Option (Nat × Nat × Nat) := do
  let text ← scanLiteral (ascii "m=") text
  let (memory, text) ← scanUint 32 text
  let text ← scanLiteral (ascii ",t=") text
  let (iterations, text) ← scanUint 32 text
  let text ← scanLiteral (ascii ",p=") text
  let (parallelism, _) ← scanUint 8 text
  some (memory, iterations, parallelism)

/-! ## Hashes -/

/-- What a hash is read as. -/
structure Argon where
  memory : Nat
  iterations : Nat
  parallelism : Nat
  salt : Bytes
  expected : Bytes
  deriving DecidableEq

/-- The bounds of `verifyArgon`. -/
structure Argon.Bounded (a : Argon) : Prop where
  memory : 8 * 1024 ≤ a.memory ∧ a.memory ≤ 256 * 1024
  iterations : 1 ≤ a.iterations ∧ a.iterations ≤ 10
  parallelism : 1 ≤ a.parallelism ∧ a.parallelism ≤ 16
  salt : 8 ≤ a.salt.length ∧ a.salt.length ≤ 64
  expected : 16 ≤ a.expected.length ∧ a.expected.length ≤ 64

instance (a : Argon) : Decidable a.Bounded :=
  decidable_of_iff ((8 * 1024 ≤ a.memory ∧ a.memory ≤ 256 * 1024) ∧
      (1 ≤ a.iterations ∧ a.iterations ≤ 10) ∧ (1 ≤ a.parallelism ∧ a.parallelism ≤ 16) ∧
      (8 ≤ a.salt.length ∧ a.salt.length ≤ 64) ∧ 16 ≤ a.expected.length ∧ a.expected.length ≤ 64)
    ⟨fun ⟨h₁, h₂, h₃, h₄, h₅⟩ => ⟨h₁, h₂, h₃, h₄, h₅⟩, fun ⟨h₁, h₂, h₃, h₄, h₅⟩ => ⟨h₁, h₂, h₃, h₄, h₅⟩⟩

def readArgon (encoded : Bytes) : Option Argon :=
  match encoded.splitOn dollar with
  | [_, _, _, parameters, salt, expected] => do
    let (memory, iterations, parallelism) ← scanParameters parameters
    let salt ← decode (std false) salt
    let expected ← decode (std false) expected
    some { memory, iterations, parallelism, salt, expected }
  | _ => none

/-- `salt` is what `rand.Read` gives. -/
def hashPassword (c : Kdf) (salt : Vector UInt8 16) (password : Bytes) : Except String Bytes :=
  if password.length < 10 ∨ 128 < password.length then
    .error "password must contain 10 to 128 characters"
  else if trimSpaceBytes password ≠ password then
    .error "password must not start or end with whitespace"
  else
    let digest := c.idKey password salt.toList 3 (64 * 1024) 2 32
    .ok (ascii "$argon2id$v=19$m=65536,t=3,p=2$" ++ encode (std false) salt.toList ++ ascii "$" ++
      encode (std false) digest)

def verifyArgon (c : Kdf) (password encoded : Bytes) : Bool :=
  match readArgon encoded with
  | none => false
  | some a =>
    if a.Bounded then
      c.idKey password a.salt a.iterations a.memory a.parallelism a.expected.length = a.expected
    else false

def verifyLegacyScrypt (c : Kdf) (password encoded : Bytes) : Bool :=
  match encoded.splitOn dollar with
  | [_, n, r, p, salt, expected] =>
    match atoi n, atoi r, atoi p, decode (url true) salt, decode (url true) expected with
    | some n, some r, some p, some salt, some expected =>
      if n ≠ 2 ^ 14 ∨ r ≠ 8 ∨ p ≠ 1 ∨ salt.length ≠ 16 ∨ expected.length ≠ 32 then false
      else c.scryptKey password salt n r p expected.length = some expected
    | _, _, _, _, _ => false
  | _ => false

def verifyPassword (c : Kdf) (password encoded : Bytes) : Bool :=
  if (ascii "$argon2id$").isPrefixOf encoded then verifyArgon c password encoded
  else if (ascii "scrypt$").isPrefixOf encoded then verifyLegacyScrypt c password encoded
  else false

/-! ## Fields -/

variable {c : Kdf} {password salt expected : Bytes}

theorem dollar_notMem_std (bytes : Bytes) : dollar ∉ encode (std false) bytes := by
  intro h
  rcases Base64.mem_encode h with h | ⟨h, -⟩
  · exact absurd h (by decide +kernel)
  · cases h

theorem dollar_notMem_url (bytes : Bytes) : dollar ∉ encode (url true) bytes := by
  intro h
  rcases Base64.mem_encode h with h | ⟨-, h⟩
  · exact absurd h (by decide +kernel)
  · exact absurd h (by decide)

/-- Fields without '$' come back. -/
theorem splitOn_fields {fields : List Bytes} (hne : fields ≠ [])
    (h : ∀ field ∈ fields, dollar ∉ field) :
    ([dollar].intercalate fields).splitOn dollar = fields :=
  List.splitOn_intercalate dollar h hne

/-! ## Hashes of argon2id -/

/-- A hash with the parameters of `hashPassword`. -/
def argonText (salt expected : Bytes) : Bytes :=
  ascii "$argon2id$v=19$m=65536,t=3,p=2$" ++ encode (std false) salt ++ ascii "$" ++
    encode (std false) expected

theorem argonText_eq : argonText salt expected = [dollar].intercalate
    [[], ascii "argon2id", ascii "v=19", ascii "m=65536,t=3,p=2", encode (std false) salt,
      encode (std false) expected] := by
  have hfields : ascii "$argon2id$v=19$m=65536,t=3,p=2$" = [dollar] ++ ascii "argon2id" ++ [dollar] ++
      ascii "v=19" ++ [dollar] ++ ascii "m=65536,t=3,p=2" ++ [dollar] := by decide +kernel
  unfold argonText
  rw [hfields]
  simp [List.intercalate, List.intersperse, show ascii "$" = [dollar] by decide +kernel]

theorem scanParameters_hash : scanParameters (ascii "m=65536,t=3,p=2") = some (65536, 3, 2) := by
  decide +kernel

theorem readArgon_text : readArgon (argonText salt expected) =
    some { memory := 65536, iterations := 3, parallelism := 2, salt, expected } := by
  have hfields : ∀ field ∈ [[], ascii "argon2id", ascii "v=19", ascii "m=65536,t=3,p=2",
      encode (std false) salt, encode (std false) expected], dollar ∉ field := by
    simp only [List.forall_mem_cons, List.not_mem_nil, false_implies, implies_true, and_true,
      not_false_eq_true, true_and]
    exact ⟨by decide +kernel, by decide +kernel, by decide +kernel, dollar_notMem_std salt,
      dollar_notMem_std expected⟩
  unfold readArgon
  rw [argonText_eq, splitOn_fields (by simp) hfields]
  simp only [scanParameters_hash, Base64.decode_encode, bind, Option.bind]

theorem isPrefixOf_argonText : (ascii "$argon2id$").isPrefixOf (argonText salt expected) = true := by
  rw [List.isPrefixOf_iff_prefix]
  unfold argonText
  rw [List.append_assoc, List.append_assoc]
  exact List.IsPrefix.trans (by decide +kernel) (List.prefix_append _ _)

/-! ## Hashes of scrypt -/

/-- A hash of version 2. -/
def scryptText (salt expected : Bytes) : Bytes :=
  ascii "scrypt$16384$8$1$" ++ encode (url true) salt ++ ascii "$" ++ encode (url true) expected

theorem scryptText_eq : scryptText salt expected = [dollar].intercalate
    [ascii "scrypt", ascii "16384", ascii "8", ascii "1", encode (url true) salt,
      encode (url true) expected] := by
  have hfields : ascii "scrypt$16384$8$1$" = ascii "scrypt" ++ [dollar] ++ ascii "16384" ++ [dollar] ++
      ascii "8" ++ [dollar] ++ ascii "1" ++ [dollar] := by decide +kernel
  unfold scryptText
  rw [hfields]
  simp [List.intercalate, List.intersperse, show ascii "$" = [dollar] by decide +kernel]

/-- **Hashes of version 2** verify the passwords with their digest. -/
theorem verifyPassword_legacy (hsalt : salt.length = 16) (hexpected : expected.length = 32) :
    verifyPassword c password (scryptText salt expected) = true ↔
      c.scryptKey password salt (2 ^ 14) 8 1 32 = some expected := by
  have hfields : ∀ field ∈ [ascii "scrypt", ascii "16384", ascii "8", ascii "1",
      encode (url true) salt, encode (url true) expected], dollar ∉ field := by
    simp only [List.forall_mem_cons, List.not_mem_nil, false_implies, implies_true, and_true]
    exact ⟨by decide +kernel, by decide +kernel, by decide +kernel, by decide +kernel,
      dollar_notMem_url salt, dollar_notMem_url expected⟩
  have hargon : (ascii "$argon2id$").isPrefixOf (scryptText salt expected) = false := by
    unfold scryptText
    rw [show ascii "$argon2id$" = dollar :: ascii "argon2id$" by decide +kernel,
      show ascii "scrypt$16384$8$1$" = 115 :: ascii "crypt$16384$8$1$" by decide +kernel]
    rfl
  have hscrypt : (ascii "scrypt$").isPrefixOf (scryptText salt expected) = true := by
    rw [List.isPrefixOf_iff_prefix]
    unfold scryptText
    rw [List.append_assoc, List.append_assoc]
    exact List.IsPrefix.trans (by decide +kernel) (List.prefix_append _ _)
  have hn : atoi (ascii "16384") = some (2 ^ 14) := by decide +kernel
  have hr : atoi (ascii "8") = some 8 := by decide +kernel
  have hp : atoi (ascii "1") = some 1 := by decide +kernel
  unfold verifyPassword
  rw [if_neg (by rw [hargon]; exact Bool.false_ne_true), if_pos hscrypt]
  unfold verifyLegacyScrypt
  rw [scryptText_eq, splitOn_fields (by simp) hfields]
  simp only [hn, hr, hp, Base64.decode_encode]
  rw [if_neg (by simp [hsalt, hexpected]), hexpected, decide_eq_true_eq]

/-! ## Verification -/

/-- What the hash of a password holds. -/
def hashArgon (c : Kdf) (iv : Vector UInt8 16) (password : Bytes) : Argon where
  memory := 65536
  iterations := 3
  parallelism := 2
  salt := iv.toList
  expected := c.idKey password iv.toList 3 65536 2 32

theorem bounded_hashArgon (iv : Vector UInt8 16) : (hashArgon c iv password).Bounded where
  memory := by simp [hashArgon]
  iterations := by simp [hashArgon]
  parallelism := by simp [hashArgon]
  salt := by simp [hashArgon]
  expected := by simp [hashArgon, c.length_idKey]

theorem eq_argonText {iv : Vector UInt8 16} {encoded : Bytes}
    (h : hashPassword c iv password = .ok encoded) :
    encoded = argonText iv.toList (c.idKey password iv.toList 3 65536 2 32) := by
  unfold hashPassword at h
  split at h
  · cases h
  · split at h
    · cases h
    · exact (Except.ok.inj h).symm

/-- **Hashes verify.** The hash of a password is read back as the parameters, the salt and the digest,
which pass the bounds, and it verifies exactly the passwords that have this digest with this salt. -/
theorem verifyPassword_hash (c : Kdf) (password : Bytes) (iv : Vector UInt8 16) (encoded : Bytes)
    (h : hashPassword c iv password = .ok encoded) :
    readArgon encoded = some (hashArgon c iv password) ∧ (hashArgon c iv password).Bounded ∧
      ∀ q, verifyPassword c q encoded = true ↔
        c.idKey q iv.toList 3 65536 2 32 = c.idKey password iv.toList 3 65536 2 32 := by
  have hencoded := eq_argonText h
  subst hencoded
  have hread : readArgon (argonText iv.toList (c.idKey password iv.toList 3 65536 2 32)) =
      some (hashArgon c iv password) := readArgon_text
  refine ⟨hread, bounded_hashArgon iv, fun q => ?_⟩
  unfold verifyPassword verifyArgon
  rw [if_pos isPrefixOf_argonText, hread]
  simp only
  rw [if_pos (bounded_hashArgon iv), decide_eq_true_eq]
  show c.idKey q iv.toList 3 65536 2 (c.idKey password iv.toList 3 65536 2 32).length = _ ↔ _
  rw [c.length_idKey]
  rfl

/-- argon2id on one password with one salt, and on another. -/
def oneKdf : Kdf where
  idKey password salt iterations memory parallelism length :=
    if length = 32 ∧ salt = ascii "0123456789abcdef" ∧ iterations = 3 ∧ memory = 65536 ∧
        parallelism = 2 then
      if password = ascii "correct horse battery staple" then
        [0x52, 0xa7, 0x23, 0x37, 0xc1, 0x44, 0x85, 0x1f, 0x42, 0xdd, 0xa5, 0x4f, 0x01, 0xe3, 0xdb,
          0xc2, 0x18, 0xe5, 0x6b, 0x0a, 0xba, 0x9a, 0xa2, 0x86, 0x18, 0xe1, 0x42, 0x6c, 0x81, 0xbb,
          0x8b, 0xc5]
      else
        [0xfb, 0x72, 0x47, 0xd6, 0xbd, 0xac, 0x9c, 0xc9, 0x16, 0x98, 0xc4, 0x0d, 0xa9, 0xac, 0xe3,
          0x34, 0xcc, 0x11, 0xe6, 0xa9, 0xfe, 0xa8, 0xc2, 0xb3, 0xb3, 0x5b, 0x66, 0x35, 0x7d, 0xdb,
          0x9d, 0x00]
    else List.replicate length 0
  scryptKey _ _ _ _ _ _ := none
  length_idKey password salt iterations memory parallelism length := by
    split
    · next h =>
      rw [h.1]
      split <;> rfl
    · exact List.length_replicate

theorem verifyPassword_hash_one :
    ∃ encoded, hashPassword oneKdf ⟨(ascii "0123456789abcdef").toArray, by decide⟩
        (ascii "correct horse battery staple") = .ok encoded ∧
      verifyPassword oneKdf (ascii "correct horse battery staple") encoded = true ∧
      verifyPassword oneKdf (ascii "wrong password") encoded = false := by
  have hok : ∃ encoded, hashPassword oneKdf ⟨(ascii "0123456789abcdef").toArray, by decide⟩
      (ascii "correct horse battery staple") = .ok encoded := ⟨_, rfl⟩
  obtain ⟨encoded, hok⟩ := hok
  obtain ⟨-, -, hq⟩ := verifyPassword_hash oneKdf _ _ encoded hok
  refine ⟨encoded, hok, (hq _).2 rfl, Bool.eq_false_iff.2 fun h => ?_⟩
  exact absurd ((hq _).1 h) (by decide +kernel)

end Sakura.Passwords
