import Typings.Json.Extra
import Typings.Table

/-!
JSON values. The members of an object are a table: they keep the order in which they were written. Documents in other
formats may hold values that JSON has no kind for; `isStandard` says that there are none.
-/

namespace Typings

/-- A JSON value. -/
inductive Json where
  /-- The value `null`. -/
  | null
  /-- A truth value. -/
  | bool (value : Bool)
  /-- A number. -/
  | num (value : Number)
  /-- A string. -/
  | str (text : String)
  /-- A value from another format. -/
  | extra (value : Extra)
  /-- An array. -/
  | arr (items : List Json)
  /-- An object. -/
  | obj (fields : List (String × Json))

/-- The members of an object. -/
abbrev Fields := Table String Json

namespace Json

mutual

/-- Whether two values are written alike: same members in the same order, numbers of the same kind. -/
def decEq : (a b : Json) → Decidable (a = b)
  | null, null => isTrue rfl
  | bool a, bool b => if h : a = b then isTrue (h ▸ rfl) else isFalse fun e => by cases e; exact h rfl
  | num a, num b => if h : a = b then isTrue (h ▸ rfl) else isFalse fun e => by cases e; exact h rfl
  | str a, str b => if h : a = b then isTrue (h ▸ rfl) else isFalse fun e => by cases e; exact h rfl
  | extra a, extra b => if h : a = b then isTrue (h ▸ rfl) else isFalse fun e => by cases e; exact h rfl
  | arr a, arr b => match decEqItems a b with
    | isTrue h => isTrue (h ▸ rfl)
    | isFalse h => isFalse fun e => by cases e; exact h rfl
  | obj a, obj b => match decEqFields a b with
    | isTrue h => isTrue (h ▸ rfl)
    | isFalse h => isFalse fun e => by cases e; exact h rfl
  | null, bool _ | null, num _ | null, str _ | null, extra _ | null, arr _ | null, obj _
  | bool _, null | bool _, num _ | bool _, str _ | bool _, extra _ | bool _, arr _ | bool _, obj _
  | num _, null | num _, bool _ | num _, str _ | num _, extra _ | num _, arr _ | num _, obj _
  | str _, null | str _, bool _ | str _, num _ | str _, extra _ | str _, arr _ | str _, obj _
  | extra _, null | extra _, bool _ | extra _, num _ | extra _, str _ | extra _, arr _ | extra _, obj _
  | arr _, null | arr _, bool _ | arr _, num _ | arr _, str _ | arr _, extra _ | arr _, obj _
  | obj _, null | obj _, bool _ | obj _, num _ | obj _, str _ | obj _, extra _ | obj _, arr _ => isFalse nofun

/-- `decEq` for the items of arrays. -/
def decEqItems : (a b : List Json) → Decidable (a = b)
  | [], [] => isTrue rfl
  | [], _ :: _ | _ :: _, [] => isFalse nofun
  | x :: xs, y :: ys => match decEq x y, decEqItems xs ys with
    | isTrue h, isTrue h' => isTrue (h ▸ h' ▸ rfl)
    | isFalse h, _ => isFalse fun e => by cases e; exact h rfl
    | _, isFalse h => isFalse fun e => by cases e; exact h rfl

/-- `decEq` for the members of objects. -/
def decEqFields : (a b : List (String × Json)) → Decidable (a = b)
  | [], [] => isTrue rfl
  | [], _ :: _ | _ :: _, [] => isFalse nofun
  | (k, x) :: xs, (l, y) :: ys => match decEq x y, decEqFields xs ys with
    | isTrue h, isTrue h' =>
      if hk : k = l then isTrue (h ▸ h' ▸ hk ▸ rfl) else isFalse fun e => by cases e; exact hk rfl
    | isFalse h, _ => isFalse fun e => by cases e; exact h rfl
    | _, isFalse h => isFalse fun e => by cases e; exact h rfl

end

instance : DecidableEq Json := decEq

/-- A whole number. -/
abbrev int (n : Int) : Json := num (.int n)

/-- The member `key` of an object; `none` for values that are no objects. -/
def get? : Json → String → Option Json
  | obj fields, key => Table.get? fields key
  | _, _ => none

/-- The text of a string. -/
def str? : Json → Option String
  | str s => some s
  | _ => none

/-- The items of an array, none for other values. -/
def items : Json → List Json
  | arr xs => xs
  | _ => []

/-- The members of an object, none for other values. -/
def fields : Json → Fields
  | obj fs => fs
  | _ => []

/-- Whether it is `null`. -/
def isNull : Json → Bool
  | null => true
  | _ => false

/-- Whether it is an object. -/
def isObject : Json → Bool
  | obj _ => true
  | _ => false

/-- Whether a value counts as given: not `null`, `false`, zero, or empty. -/
def isGiven : Json → Bool
  | null => false
  | bool b => b
  | num n => !n.isZero
  | str s => s ≠ ""
  | extra x => x.isGiven
  | arr xs => !xs.isEmpty
  | obj fs => !fs.isEmpty

/-! ### Size -/

mutual

/-- The number of values that a value is made of. -/
def size : Json → Nat
  | null | bool _ | num _ | str _ | extra _ => 1
  | arr xs => 1 + sizeItems xs
  | obj fs => 1 + sizeFields fs

/-- The size of all items. -/
def sizeItems : List Json → Nat
  | [] => 0
  | x :: rest => size x + sizeItems rest

/-- The size of all members. -/
def sizeFields : List (String × Json) → Nat
  | [] => 0
  | (_, x) :: rest => size x + sizeFields rest

end

mutual

/-- Whether a value is made of the kinds of JSON alone. -/
def isStandard : Json → Bool
  | null | bool _ | num _ | str _ => true
  | extra _ => false
  | arr xs => isStandardItems xs
  | obj fs => isStandardFields fs

/-- Whether all items are. -/
def isStandardItems : List Json → Bool
  | [] => true
  | x :: rest => isStandard x && isStandardItems rest

/-- Whether all members are. -/
def isStandardFields : List (String × Json) → Bool
  | [] => true
  | (_, x) :: rest => isStandard x && isStandardFields rest

end

theorem size_pos (v : Json) : 0 < v.size := by cases v <;> simp only [size] <;> omega

theorem size_le_of_get? {fs : Fields} {key : String} {v : Json} (h : fs.get? key = some v) : v.size ≤ sizeFields fs := by
  induction fs with
  | nil => cases h
  | cons e rest ih =>
    obtain ⟨k, w⟩ := e
    simp only [Table.get?] at h
    simp only [sizeFields]
    split at h
    · cases h; omega
    · have := ih h; omega

end Json

/-- The kinds of values that merging tells apart. -/
inductive Kind where
  | null | bool | int | double | str | day | clock | instant | octets | set | arr | obj
  deriving DecidableEq

/-- The kind of a value. -/
def Json.kind : Json → Kind
  | null => .null
  | bool _ => .bool
  | num (.int _) => .int
  | num (.double _) => .double
  | str _ => .str
  | extra (.moment (.day _)) => .day
  | extra (.moment (.clock _)) => .clock
  | extra (.moment (.instant _ _ _)) => .instant
  | extra (.octets _) => .octets
  | extra (.set _) => .set
  | arr _ => .arr
  | obj _ => .obj

end Typings
