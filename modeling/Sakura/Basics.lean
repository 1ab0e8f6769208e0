/-
  Values of the Go code: strings, identifiers, 64-bit integers and times.

  * `trimSpace`, `toUpper`, `toLower`: package strings;
  * `currencyPattern`, `providerPattern`: the patterns that inputs are matched against;
  * `UUID`, `Actor`, `Err`: identifiers, callers and the errors of package identity;
  * `Time`, `stored`, `days`: times, their columns and durations.
-/
import Mathlib.Algebra.Ring.Int.Defs
import Mathlib.Data.List.Basic
import Mathlib.Data.List.TakeDrop
import Mathlib.Data.Int.Basic
import Mathlib.Tactic.Tauto

namespace Sakura

/-! ## Strings -/

/-- `unicode.IsSpace`. -/
def isSpace (c : Char) : Bool :=
  c.val ∈ [0x09, 0x0A, 0x0B, 0x0C, 0x0D, 0x20, 0x85, 0xA0, 0x1680, 0x2028, 0x2029, 0x202F, 0x205F,
    0x3000] || (0x2000 ≤ c.val && c.val ≤ 0x200A)

def trimChars (cs : List Char) : List Char :=
  ((cs.dropWhile isSpace).reverse.dropWhile isSpace).reverse

/-- `strings.TrimSpace`. -/
def trimSpace (s : String) : String := String.ofList (trimChars s.toList)

/-- Upper case of a letter whose upper case is ASCII; no other letter passes a pattern below. -/
def upperChar (c : Char) : Char :=
  if c = 'ı' then 'I' else if c = 'ſ' then 'S'
  else if 'a' ≤ c ∧ c ≤ 'z' then Char.ofNat (c.toNat - 32) else c

/-- Lower case of a letter whose lower case is ASCII. -/
def lowerChar (c : Char) : Char :=
  if c = 'İ' then 'i' else if c.val = 0x212A then 'k'
  else if 'A' ≤ c ∧ c ≤ 'Z' then Char.ofNat (c.toNat + 32) else c

/-- `strings.ToUpper`. -/
def toUpper (s : String) : String := String.ofList (s.toList.map upperChar)

/-- `strings.ToLower`. -/
def toLower (s : String) : String := String.ofList (s.toList.map lowerChar)

def normalize (value : String) : String := toLower (trimSpace value)

def isUpperAscii (c : Char) : Bool := 'A' ≤ c && c ≤ 'Z'
def isLowerAscii (c : Char) : Bool := 'a' ≤ c && c ≤ 'z'
def isDigitAscii (c : Char) : Bool := '0' ≤ c && c ≤ '9'

/-- A first character, then between `lo` and `hi` others. -/
def matchesHeadTail (head tail : Char → Bool) (lo hi : Nat) (s : String) : Bool :=
  match s.toList with
  | [] => false
  | c :: cs => head c && cs.all tail && lo ≤ cs.length && cs.length ≤ hi

/-- `^[A-Z][A-Z0-9_]{1,15}$` -/
def currencyPattern : String → Bool :=
  matchesHeadTail isUpperAscii (fun c => isUpperAscii c || isDigitAscii c || c = '_') 1 15

/-- `^[a-z][a-z0-9_.-]{1,39}$` -/
def providerPattern : String → Bool :=
  matchesHeadTail isLowerAscii
    (fun c => isLowerAscii c || isDigitAscii c || c = '_' || c = '.' || c = '-') 1 39

/-- `NULLIF(value, '')` -/
def nullIfEmpty (value : String) : Option String := if value = "" then none else some value

/-- Trimming keeps a first letter that is no white space. -/
theorem trimSpace_head {s : String} {c : Char} (h : s.toList.head? = some c)
    (hc : isSpace c = false) : (trimSpace s).toList.head? = some c := by
  rw [trimSpace, String.toList_ofList]
  cases hs : s.toList with
  | nil => rw [hs] at h; cases h
  | cons d ds =>
    rw [hs] at h
    cases h
    rw [trimChars, List.dropWhile_cons_of_neg (by simp [hc]), List.reverse_cons,
      List.dropWhile_append]
    split
    · rw [List.dropWhile_cons_of_neg (by simp [hc])]; rfl
    · rw [List.reverse_append]; rfl

/-! ## Identifiers, callers, errors -/

/-- A `uuid.UUID` in its text form. -/
structure UUID where
  text : String
  valid : text.length = 36
  deriving DecidableEq

theorem UUID.text_inj {a b : UUID} : a.text = b.text ↔ a = b := by
  cases a; cases b; simp

theorem UUID.text_ne_empty (a : UUID) : a.text ≠ "" := by
  intro h
  have := a.valid
  rw [h] at this
  exact absurd this (by decide)

/-- An identifier for each hexadecimal digit. -/
def idOf (digit : Char) : UUID where
  text := "00000000-0000-4000-8000-00000000000".push digit
  valid := by rw [String.length_push]; rfl

/-- `identity.Actor`. -/
structure Actor where
  kind : String
  id : String
  deriving DecidableEq

def Actor.label (a : Actor) : String := a.kind ++ ":" ++ a.id

/-- The errors of package identity, and any other error of a statement. -/
inductive Err where
  | invalid | conflict | forbidden | notFound | database
  deriving DecidableEq, Repr

theorem except_bind_ok {ε α β : Type} {x : Except ε α} {f : α → Except ε β} {b : β}
    (h : x >>= f = .ok b) : ∃ a, x = .ok a ∧ f a = .ok b := by
  cases x with
  | error e => cases h
  | ok a => exact ⟨a, rfl, h⟩

theorem map_ok {ε α β : Type} {x : Except ε α} {f : α → β} {b : β} (h : x.map f = .ok b) :
    ∃ a, x = .ok a ∧ f a = b := by
  cases x with
  | error e => cases h
  | ok a => exact ⟨a, rfl, Except.ok.inj h⟩

/-- What every step of a fold keeps, the fold keeps. -/
theorem foldlM_rel {ε α β : Type} {R : β → β → Prop} (hrefl : ∀ b, R b b)
    (htrans : ∀ {a b c}, R a b → R b c → R a c) {f : β → α → Except ε β}
    (hf : ∀ b a b', f b a = .ok b' → R b b') :
    ∀ (as : List α) {b b' : β}, as.foldlM f b = .ok b' → R b b'
  | [], b, b', h => by
    cases h
    exact hrefl _
  | a :: as, b, b', h => by
    rw [List.foldlM_cons] at h
    obtain ⟨b₁, h₁, h₂⟩ := except_bind_ok h
    exact htrans (hf b a b₁ h₁) (foldlM_rel hrefl htrans hf as h₂)

/-! ## Times -/

/-- A `time.Time` as nanoseconds since year 1; `0` is the zero time. -/
abbrev Time := Int

/-- A TIMESTAMPTZ column holds microseconds. -/
def stored (t : Int) : Int := t / 1000 * 1000

/-- `time.Duration(durationDays) * 24 * time.Hour`, a 64-bit number of nanoseconds. -/
def days (durationDays : Int64) : Int64 := durationDays * 24 * 3600000000000

/-- Nanoseconds of a day. -/
def dayNanos : Int := 24 * 3600000000000

/-- The largest number of days whose nanoseconds fit in 64 bits. -/
def maxDays : Int := 106751

theorem days_exact {d : Int64} (h₀ : 0 ≤ d.toInt) (h : d.toInt ≤ maxDays) :
    (days d).toInt = d.toInt * dayNanos := by
  unfold maxDays at h
  have h₁ : (d * 24).toInt = d.toInt * 24 := by
    rw [Int64.toInt_mul]
    exact Int.bmod_eq_of_le (by simp; omega) (by simp; omega)
  unfold days
  rw [Int64.toInt_mul, h₁, dayNanos, ← Int.mul_assoc]
  exact Int.bmod_eq_of_le (by simp; omega) (by simp; omega)

theorem stored_le (t : Int) : stored t ≤ t := by unfold stored; omega

theorem stored_stored (t : Int) : stored (stored t) = stored t := by unfold stored; omega

/-- Storing a time loses nothing of a stored time it does not come before. -/
theorem le_stored {s t : Int} (h : stored s ≤ t) : stored s ≤ stored t := by
  unfold stored at *; omega

theorem stored_add_days (t n : Int) :
    stored (stored t + n * dayNanos) = stored t + n * dayNanos := by
  unfold stored dayNanos; omega

end Sakura
