/-
  Error texts and the columns they are written to.

  A Go string is any sequence of bytes; a column holds characters.

  * `trimSpace_of`, `trimSpace_of_ends`, `trimSpace_eq_empty`: texts without white space, without any at
    their ends, and texts of nothing else;
  * `Bytes`, `trimSpaceBytes`, `truncateError`: the text that a worker records of an error;
  * `storedText`: what a VARCHAR column keeps of a parameter, if it accepts it;
  * `Storable`, `storedText_isSome`: the texts that a column accepts;
  * `intText_inj`, `append_cons_inj`: integers in texts, and texts with separators.
-/
import Mathlib.Data.List.Basic
import Mathlib.Data.List.DropRight
import Mathlib.Data.List.TakeWhile
import Sakura.Basics

namespace Sakura

/-! ## White space -/

theorem dropWhile_space : ∀ cs : List Char, (∀ c ∈ cs, isSpace c = false) →
    cs.dropWhile isSpace = cs
  | [], _ => rfl
  | c :: cs, h => List.dropWhile_cons_of_neg (by simp [h c (List.mem_cons_self ..)])

/-- A text without white space has none to be trimmed. -/
theorem trimSpace_of {s : String} (h : ∀ c ∈ s.toList, isSpace c = false) : trimSpace s = s := by
  unfold trimSpace trimChars
  rw [dropWhile_space _ h, dropWhile_space _ fun c hc => h c (List.mem_reverse.1 hc),
    List.reverse_reverse, String.ofList_toList]

theorem visible_not_space {c : Char} (h : 0x21 ≤ c.val) (h' : c.val ≤ 0x7E) :
    isSpace c = false := by
  have h₁ := UInt32.le_iff_toNat_le.1 h
  have h₂ := UInt32.le_iff_toNat_le.1 h'
  simp only [UInt32.reduceToNat, Char.toNat_val] at h₁ h₂
  unfold isSpace
  simp only [List.mem_cons, List.not_mem_nil, Bool.or_eq_false_iff, decide_eq_false_iff_not, not_or,
    Bool.and_eq_false_iff, UInt32.le_iff_toNat_le, ← UInt32.toNat_inj, UInt32.reduceToNat,
    Char.toNat_val, not_false_eq_true, and_true]
  omega

theorem within_not_space {c : Char} {lo hi : UInt32} (hlo : 0x21 ≤ lo) (hhi : hi ≤ 0x7E)
    (h : lo ≤ c.val) (h' : c.val ≤ hi) : isSpace c = false :=
  visible_not_space (UInt32.le_trans hlo h) (UInt32.le_trans h' hhi)

theorem digit_not_space {c : Char} (h : c.isDigit = true) : isSpace c = false := by
  unfold Char.isDigit at h
  rw [Bool.and_eq_true, decide_eq_true_eq, decide_eq_true_eq] at h
  exact within_not_space (by decide) (by decide) h.1 h.2

theorem trimChars_eq_nil {cs : List Char} : trimChars cs = [] ↔ ∀ c ∈ cs, isSpace c = true := by
  unfold trimChars
  rw [List.reverse_eq_nil_iff, List.dropWhile_eq_nil_iff]
  constructor
  · intro h c hc
    rw [← List.takeWhile_append_dropWhile (p := isSpace) (l := cs)] at hc
    rcases List.mem_append.1 hc with hc | hc
    · exact List.mem_takeWhile_imp hc
    · exact h c (List.mem_reverse.2 hc)
  · intro h c hc
    exact h c ((List.dropWhile_sublist _).subset (List.mem_reverse.1 hc))

/-- Trimming a trimmed text leaves it. -/
theorem trimSpace_trimSpace (s : String) : trimSpace (trimSpace s) = trimSpace s := by
  have hprefix : trimChars s.toList <+: s.toList.dropWhile isSpace := List.rdropWhile_prefix ..
  have hhead : (trimChars s.toList).dropWhile isSpace = trimChars s.toList := by
    rw [List.dropWhile_eq_self_iff]
    intro hl hsp
    refine List.dropWhile_get_zero_not isSpace s.toList
      (Nat.lt_of_lt_of_le hl hprefix.length_le) ?_
    rwa [List.get_eq_getElem, ← hprefix.getElem hl]
  show String.ofList (((((trimSpace s).toList.dropWhile isSpace).reverse).dropWhile isSpace).reverse) = _
  rw [trimSpace, String.toList_ofList, hhead]
  exact congrArg String.ofList (List.rdropWhile_idempotent isSpace (s.toList.dropWhile isSpace))

theorem dropWhile_head {cs : List Char} {c : Char} (h : cs.head? = some c) (hc : isSpace c = false) :
    cs.dropWhile isSpace = cs := by
  cases cs with
  | nil => rfl
  | cons d ds =>
    cases h
    exact List.dropWhile_cons_of_neg (by simp [hc])

/-- A text that neither begins nor ends with white space is not trimmed. -/
theorem trimSpace_of_ends {s : String} {b c : Char} (h : s.toList.head? = some b)
    (hb : isSpace b = false) (h' : s.toList.getLast? = some c) (hc : isSpace c = false) :
    trimSpace s = s := by
  unfold trimSpace trimChars
  rw [dropWhile_head h hb, dropWhile_head (by rw [List.head?_reverse]; exact h') hc,
    List.reverse_reverse, String.ofList_toList]

/-- What is left of a text does not end with white space. -/
theorem getLast?_trimSpace {s : String} (h : trimSpace s ≠ "") :
    ∃ c, (trimSpace s).toList.getLast? = some c ∧ isSpace c = false := by
  cases hl : (trimSpace s).toList.getLast? with
  | none => exact absurd (String.toList_eq_nil_iff.1 (List.getLast?_eq_none_iff.1 hl)) h
  | some c =>
    refine ⟨c, rfl, ?_⟩
    rw [trimSpace, String.toList_ofList, trimChars, List.getLast?_reverse] at hl
    have hdrop := List.head?_dropWhile_not isSpace (s.toList.dropWhile isSpace).reverse
    rw [hl] at hdrop
    simpa using hdrop

theorem trimSpace_eq_empty {s : String} : trimSpace s = "" ↔ ∀ c ∈ s.toList, isSpace c = true := by
  rw [← trimChars_eq_nil, ← String.toList_eq_nil_iff, trimSpace, String.toList_ofList]

/-! ## Go strings -/

abbrev Bytes := List UInt8

def bytesOf (s : String) : Bytes := s.toList.flatMap String.utf8EncodeChar

theorem toByteArray_eq (s : String) : s.toByteArray = (bytesOf s).toByteArray := by
  conv_lhs => rw [← String.ofList_toList (s := s), String.toByteArray_ofList]
  rfl

theorem bytesOf_inj {s t : String} (h : bytesOf s = bytesOf t) : s = t :=
  String.toByteArray_inj.1 (by rw [toByteArray_eq, toByteArray_eq, h])

/-- The encodings of the characters that `unicode.IsSpace` holds of. -/
def spaceEncodings : List Bytes :=
  ([0x09, 0x0A, 0x0B, 0x0C, 0x0D, 0x20, 0x85, 0xA0, 0x1680, 0x2000, 0x2001, 0x2002, 0x2003, 0x2004,
    0x2005, 0x2006, 0x2007, 0x2008, 0x2009, 0x200A, 0x2028, 0x2029, 0x202F, 0x205F, 0x3000].map
      fun n => String.utf8EncodeChar (Char.ofNat n))

/-- Drop prefixes of the list `ps`, at most `n` times. -/
def stripAll (ps : List Bytes) : Nat → Bytes → Bytes
  | 0, bs => bs
  | n + 1, bs =>
    match ps.find? (·.isPrefixOf bs) with
    | some p => stripAll ps n (bs.drop p.length)
    | none => bs

/-- `strings.TrimSpace` -/
def trimSpaceBytes (bs : Bytes) : Bytes :=
  let rest := stripAll spaceEncodings bs.length bs
  (stripAll (spaceEncodings.map List.reverse) rest.length rest.reverse).reverse

/-- The text of an error, cut at 1800 bytes. -/
def truncateError (text : Bytes) : Bytes :=
  let message := trimSpaceBytes text
  if 1800 < message.length then message.take 1800 else message

/-! ## Columns -/

/-- What a column VARCHAR(n) keeps of a parameter: it must be valid UTF-8 without a NUL; a value that
is too long is only accepted if the rest is spaces, which are dropped. -/
def storedText (n : Nat) (bs : Bytes) : Option String :=
  match String.fromUTF8? bs.toByteArray with
  | none => none
  | some s =>
    if '\x00' ∈ s.toList then none
    else if (s.toList.drop n).all (· = ' ') then some (String.ofList (s.toList.take n))
    else none

/-- What it keeps of a text, or the error of the statement. -/
def varchar (n : Nat) (s : String) : Except Err String :=
  (storedText n (bytesOf s)).elim (.error .database) .ok

/-- A column VARCHAR(n) accepts the text of an error: what is left of it after the white space at
both ends, up to 1800 bytes, is valid UTF-8 without a NUL, and its characters from the `n`-th on are
spaces. -/
def Storable (n : Nat) (text : Bytes) : Prop :=
  ∃ s : String, s.toByteArray = ((trimSpaceBytes text).take 1800).toByteArray ∧
    '\x00' ∉ s.toList ∧ ∀ c ∈ s.toList.drop n, c = ' '

theorem truncateError_eq (text : Bytes) : truncateError text = (trimSpaceBytes text).take 1800 := by
  show (if 1800 < (trimSpaceBytes text).length then _ else _) = _
  split
  · rfl
  · rw [List.take_of_length_le (by omega)]

theorem fromUTF8?_eq_some {b : ByteArray} {s : String} :
    String.fromUTF8? b = some s ↔ s.toByteArray = b := by
  unfold String.fromUTF8?
  constructor
  · intro h
    split at h
    · cases h; rfl
    · cases h
  · rintro rfl
    rw [dif_pos s.isValidUTF8]
    rfl

/-- **The texts that a column accepts.** -/
theorem storedText_isSome (n : Nat) (text : Bytes) :
    (storedText n (truncateError text)).isSome ↔ Storable n text := by
  unfold storedText Storable
  rw [truncateError_eq]
  cases hs : String.fromUTF8? ((trimSpaceBytes text).take 1800).toByteArray with
  | none =>
    refine ⟨fun h => by simp at h, fun ⟨s, he, _⟩ => ?_⟩
    rw [fromUTF8?_eq_some.2 he] at hs
    cases hs
  | some s =>
    have he := fromUTF8?_eq_some.1 hs
    constructor
    · intro h
      refine ⟨s, he, ?_⟩
      simp only at h
      split at h
      · cases h
      · next hnul =>
        split at h
        · next hsp => exact ⟨hnul, fun c hc => of_decide_eq_true (List.all_eq_true.1 hsp c hc)⟩
        · cases h
    · rintro ⟨s', he', hnul, hsp⟩
      have : s' = s := String.toByteArray_inj.1 (he'.trans he.symm)
      subst this
      simp only
      rw [if_neg hnul, if_pos (List.all_eq_true.2 fun c hc => decide_eq_true (hsp c hc))]
      rfl

theorem Storable.mono {m n : Nat} (hmn : m ≤ n) {text : Bytes} (h : Storable m text) :
    Storable n text := by
  obtain ⟨s, he, hnul, hsp⟩ := h
  exact ⟨s, he, hnul, fun c hc => hsp c ((List.drop_sublist_drop_left _ hmn).subset hc)⟩

theorem length_le_size (s : String) : s.toList.length ≤ s.toByteArray.size := by
  rw [toByteArray_eq, List.size_toByteArray]
  unfold bytesOf
  induction s.toList with
  | nil => simp
  | cons c cs ih =>
    have hc : 0 < (String.utf8EncodeChar c).length := List.length_pos_iff.2 String.utf8EncodeChar_ne_nil
    rw [List.flatMap_cons, List.length_append, List.length_cons]
    omega

/-! ## Short texts -/

/-- The text has at most `n` characters, none of which is NUL. -/
def Fits (n : Nat) (s : String) : Prop := s.toList.length ≤ n ∧ '\x00' ∉ s.toList

/-- A column keeps a text that fits. -/
theorem varchar_of_fits {n : Nat} {s : String} (h : Fits n s) : varchar n s = .ok s := by
  have hs : String.fromUTF8? (bytesOf s).toByteArray = some s := fromUTF8?_eq_some.2 (toByteArray_eq s)
  unfold varchar storedText
  rw [hs]
  simp only
  rw [if_neg h.2, List.drop_eq_nil_of_le h.1, List.take_of_length_le h.1, String.ofList_toList]
  rfl

theorem fits_of_size {n : Nat} {s : String} (h : s.utf8ByteSize ≤ n) (hnul : '\x00' ∉ s.toList) :
    Fits n s :=
  ⟨Nat.le_trans (length_le_size s) h, hnul⟩

theorem varchar_of_nul {n : Nat} {x : String} (h : '\x00' ∈ x.toList) :
    varchar n x = .error .database := by
  have hs : String.fromUTF8? (bytesOf x).toByteArray = some x := fromUTF8?_eq_some.2
    (toByteArray_eq x)
  unfold varchar storedText
  rw [hs]
  simp only
  rw [if_pos h]
  rfl

/-- A column that is long enough keeps a text as it is, or refuses it for a NUL. -/
theorem varchar_of_size {n : Nat} {x y : String} (hsize : x.utf8ByteSize ≤ n)
    (h : varchar n x = .ok y) : '\x00' ∉ x.toList ∧ y = x := by
  by_cases hnul : '\x00' ∈ x.toList
  · rw [varchar_of_nul hnul] at h
    cases h
  · rw [varchar_of_fits (fits_of_size hsize hnul)] at h
    exact ⟨hnul, (Except.ok.inj h).symm⟩

/-- What a column keeps fits. -/
theorem Fits.of_varchar {n : Nat} {s t : String} (h : varchar n s = .ok t) : Fits n t := by
  have hs : String.fromUTF8? (bytesOf s).toByteArray = some s := fromUTF8?_eq_some.2 (toByteArray_eq s)
  unfold varchar storedText at h
  rw [hs] at h
  simp only at h
  split at h
  · cases h
  · next hnul =>
    split at h
    · cases h
      rw [Fits, String.toList_ofList]
      exact ⟨List.length_take_le _ _, fun hc => hnul (List.mem_of_mem_take hc)⟩
    · cases h

/-- A column that is long enough keeps all bytes. -/
theorem bytesOf_storedText {n : Nat} {bs : Bytes} {s : String} (hn : bs.length ≤ n)
    (h : storedText n bs = some s) : bytesOf s = bs := by
  unfold storedText at h
  split at h
  · cases h
  · next t ht =>
    have hbytes : t.toByteArray = bs.toByteArray := fromUTF8?_eq_some.1 ht
    have hsize : t.toList.length ≤ n := by
      have := length_le_size t
      rw [hbytes, List.size_toByteArray] at this
      omega
    split at h
    · cases h
    · split at h
      · cases h
        rw [List.take_of_length_le hsize, String.ofList_toList]
        exact List.toByteArray_inj.1 ((toByteArray_eq t).symm.trans hbytes)
      · cases h

/-- A column of 1800 characters is long enough for every text that is valid. -/
theorem Storable.of_long {n : Nat} (hn : 1800 ≤ n) {text : Bytes} {s : String}
    (he : s.toByteArray = ((trimSpaceBytes text).take 1800).toByteArray) (hnul : '\x00' ∉ s.toList) :
    Storable n text := by
  refine ⟨s, he, hnul, fun c hc => ?_⟩
  have hsize : s.toByteArray.size ≤ 1800 := by
    rw [he, List.size_toByteArray, List.length_take]
    exact Nat.min_le_left _ _
  rw [List.drop_of_length_le (by have := length_le_size s; omega)] at hc
  cases hc

/-! ## Integers in texts -/

theorem natRepr_inj {m n : Nat} (h : m.repr.toList = n.repr.toList) : m = n := by
  rw [Nat.toList_repr, Nat.toList_repr] at h
  rw [← Nat.ofDigitChars_toDigits (b := 10) (n := m) (by decide) (by decide), h,
    Nat.ofDigitChars_toDigits (by decide) (by decide)]

theorem isDigit_of_mem_repr {n : Nat} {d : Char} (h : d ∈ n.repr.toList) : d.isDigit := by
  rw [Nat.toList_repr] at h
  exact Nat.isDigit_of_mem_toDigits (by decide) (by decide) h

theorem toList_toString (i : Int) : (toString i).toList =
    if 0 ≤ i then i.toNat.repr.toList else '-' :: (-i).toNat.repr.toList := by
  show i.repr.toList = _
  rw [Int.repr_eq_if]
  split
  · rfl
  · rw [String.toList_append]
    rfl

theorem intText_inj {i j : Int} (h : (toString i).toList = (toString j).toList) : i = j := by
  have hno : ∀ n m : Nat, '-' :: n.repr.toList ≠ m.repr.toList := fun n m e =>
    absurd (isDigit_of_mem_repr (e ▸ List.mem_cons_self : '-' ∈ m.repr.toList)) (by decide)
  rw [toList_toString, toList_toString] at h
  split at h <;> split at h
  · have := natRepr_inj h
    omega
  · exact absurd h.symm (hno _ _)
  · exact absurd h (hno _ _)
  · have := natRepr_inj (List.cons.inj h).2
    omega

theorem toString_inj {i j : Int64} (h : (toString i).toList = (toString j).toList) : i = j :=
  Int64.toInt_inj.1 (intText_inj h)

theorem colon_notMem_intText (i : Int) : ':' ∉ (toString i).toList := by
  rw [toList_toString]
  split <;> intro h
  · exact absurd (isDigit_of_mem_repr h) (by decide)
  · rcases List.mem_cons.1 h with h | h
    · exact absurd h (by decide)
    · exact absurd (isDigit_of_mem_repr h) (by decide)

theorem colon_notMem_toString (i : Int64) : ':' ∉ (toString i).toList :=
  colon_notMem_intText i.toInt

/-- A list that ends in a separator and no other is cut there. -/
theorem eq_nil_of_append_cons {α : Type} {s : α} {as ds es : List α} (hd : s ∉ ds)
    (h : s :: ds = as ++ s :: es) : as = [] := by
  cases as with
  | nil => rfl
  | cons z zs =>
    refine absurd ?_ hd
    rw [(List.cons.inj h).2]
    exact List.mem_append_right _ List.mem_cons_self

theorem append_cons_inj {α : Type} {s : α} {xs ys ds es : List α} (hd : s ∉ ds) (he : s ∉ es)
    (h : xs ++ s :: ds = ys ++ s :: es) : xs = ys ∧ ds = es := by
  have hxy : xs = ys := by
    rcases List.append_eq_append_iff.1 h with ⟨as, hxy, has⟩ | ⟨as, hxy, has⟩
    · rw [hxy, eq_nil_of_append_cons hd has, List.append_nil]
    · rw [hxy, eq_nil_of_append_cons he has, List.append_nil]
  subst hxy
  exact ⟨rfl, (List.cons.inj (List.append_cancel_left h)).2⟩

end Sakura
