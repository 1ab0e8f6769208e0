/-
  Untyped values, as encoding/json decodes them and package fmt prints them.

  * `Value`, `Object`: values and maps;
  * `Value.sprint`: `fmt.Sprint`;
  * `Value.storable`: what a column JSONB takes;
  * `Object.get`, `Object.set`: the members of a map, `Object.storable`.
-/
import Mathlib.Data.List.Sort
import Mathlib.Data.String.Basic

namespace Untyped

/-! ## Values -/

/-- A float64, as the text that `%v` prints of it. -/
structure Number where
  text : String
  numeric : text.toList.all fun c => c.isDigit || ['+', '-', '.', 'e'].contains c
  nonempty : text.toList ≠ []
  deriving DecidableEq

inductive Value where
  | null
  | boolean (b : Bool)
  | number (n : Number)
  | string (s : String)
  | array (elements : List Value)
  | object (members : List (String × Value))

/-- A map, as its members; a key has the first value that stands at it. -/
abbrev Object := List (String × Value)

/-! ## Printing -/

def keyOrder (m m' : String × String) : Prop := m.1 ≤ m'.1

instance : DecidableRel keyOrder := fun m m' => inferInstanceAs (Decidable (m.1 ≤ m'.1))

/-- A map is printed in the order of its keys. -/
def printMembers (members : List (String × String)) : String :=
  " ".intercalate ((members.insertionSort keyOrder).map fun (key, text) => key ++ ":" ++ text)

mutual

/-- `fmt.Sprint(value)` -/
def Value.sprint : Value → String
  | .null => "<nil>"
  | .boolean b => if b then "true" else "false"
  | .number n => n.text
  | .string s => s
  | .array elements => "[" ++ " ".intercalate (sprintElements elements) ++ "]"
  | .object members => "map[" ++ printMembers (sprintMembers members) ++ "]"

def sprintElements : List Value → List String
  | [] => []
  | value :: values => value.sprint :: sprintElements values

def sprintMembers : List (String × Value) → List (String × String)
  | [] => []
  | (key, value) :: members => (key, value.sprint) :: sprintMembers members

end

mutual

/-- No text in the value has a NUL, which JSONB refuses. -/
def Value.storable : Value → Bool
  | .null | .boolean _ | .number _ => true
  | .string s => !s.toList.contains '\x00'
  | .array elements => storableElements elements
  | .object members => storableMembers members

def storableElements : List Value → Bool
  | [] => true
  | value :: values => value.storable && storableElements values

def storableMembers : List (String × Value) → Bool
  | [] => true
  | (key, value) :: members =>
    !key.toList.contains '\x00' && value.storable && storableMembers members

end

example : (Value.object [("b", .array [.null, .boolean true]), ("a", .string "x y")]).sprint =
    "map[a:x y b:[<nil> true]]" := by decide

/-! ## Maps -/

/-- The value at a key; an absent one is null. -/
def Object.get (o : Object) (key : String) : Value := (o.lookup key).getD .null

/-- `o[key] = value` -/
def Object.set (o : Object) (key : String) (value : Value) : Object :=
  (key, value) :: o.filter (·.1 ≠ key)

/-- A column JSONB takes the map. -/
def Object.storable (o : Object) : Bool :=
  o.all fun (key, _) => !key.toList.contains '\x00' && (o.get key).storable

section
variable {o : Object} {key key' : String} {value : Value}

theorem Object.get_set_self : (o.set key value).get key = value := by
  unfold Object.get Object.set
  rw [List.lookup_cons_self]
  rfl

theorem lookup_filter_ne (h : key' ≠ key) : ∀ o : Object,
    (o.filter (·.1 ≠ key)).lookup key' = o.lookup key'
  | [] => rfl
  | (k, v) :: o => by
    by_cases hk : k = key
    · have hk' : (key' == k) = false := by simpa [hk] using h
      rw [List.filter_cons_of_neg (by simp [hk]), lookup_filter_ne h o, List.lookup_cons, hk']
    · rw [List.filter_cons_of_pos (by simp [hk]), List.lookup_cons, List.lookup_cons,
        lookup_filter_ne h o]

theorem Object.get_set_ne (h : key' ≠ key) : (o.set key value).get key' = o.get key' := by
  have hk : (key' == key) = false := by simpa using h
  unfold Object.get Object.set
  rw [List.lookup_cons, hk, lookup_filter_ne h]

/-- A map is printed member by member. -/
theorem lookup_sprintMembers (key : String) : ∀ o : Object,
    ((sprintMembers o).lookup key).getD "<nil>" = (o.get key).sprint
  | [] => by
    show "<nil>" = Value.null.sprint
    rw [Value.sprint]
  | (k, v) :: o => by
    have ih := lookup_sprintMembers key o
    unfold Object.get at ih ⊢
    rw [sprintMembers, List.lookup_cons, List.lookup_cons]
    cases key == k with
    | true => rfl
    | false => exact ih

end

end Untyped
