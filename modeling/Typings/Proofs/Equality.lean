import Mathlib.Algebra.Order.Field.Power
import Mathlib.Data.List.Basic
import Mathlib.Data.Rat.Cast.Order
import Mathlib.Tactic.Linarith
import Mathlib.Tactic.Positivity
import Mathlib.Tactic.Ring
import Typings.Json.Equality
import Typings.Proofs.Table

/-!
Equality by meaning. It is transitive for all values, and reflexive for values in which no object has a key twice. The point
that needs care is a whole number between two doubles: a rational that is not zero is the value of one double at most
(`Double.eq_of_value`), so two doubles that are equal to one whole number are equal.
-/

namespace Typings

/-! ### Doubles -/

namespace Double

variable {x y : Double} {n : ℤ}

/-- The size of a finite double. -/
def magnitude (x : Double) : ℚ := x.significand * 2 ^ x.exponent

/-- The number that a finite double stands for. -/
def value (x : Double) : ℚ := if x.isNegative then -x.magnitude else x.magnitude

lemma fraction_lt (x : Double) : x.fraction < 2 ^ 52 := Nat.mod_lt _ (by decide)

lemma significand_lt (x : Double) : x.significand < 2 ^ 53 := by
  have hfraction := x.fraction_lt
  unfold significand
  split_ifs
  · omega
  · change 2 ^ 52 + x.fraction < 2 ^ 53
    omega

/-- The significand is a full one unless the exponent is the least. -/
lemma le_significand (h : -1074 < x.exponent) : 2 ^ 52 ≤ x.significand := by
  unfold exponent at h
  unfold significand
  split_ifs at h ⊢
  · omega
  · exact Nat.le_add_right _ _

/-- A double is told by its sign, its exponent bits and its fraction bits. -/
lemma ext_fields (hsign : x.isNegative = y.isNegative) (hbiased : x.biased = y.biased)
    (hfraction : x.fraction = y.fraction) : x = y := by
  have hx := x.bits.toNat_lt
  have hy := y.bits.toNat_lt
  have hbits : x.bits.toNat = y.bits.toNat := by
    simp only [isNegative, biased, fraction, Nat.pow_eq, decide_eq_decide] at hsign hbiased hfraction
    omega
  obtain ⟨a⟩ := x
  obtain ⟨b⟩ := y
  exact congrArg Double.mk (UInt64.toNat_inj.1 hbits)

/-- Exponent and significand tell the exponent bits and the fraction bits. -/
lemma fields_eq (hexponent : x.exponent = y.exponent) (hsignificand : x.significand = y.significand) :
    x.biased = y.biased ∧ x.fraction = y.fraction := by
  have hx := x.fraction_lt
  have hy := y.fraction_lt
  have hpow : Nat.pow 2 52 = 2 ^ 52 := rfl
  unfold exponent at hexponent
  unfold significand at hsignificand
  rw [hpow] at hsignificand
  split_ifs at hexponent hsignificand <;> omega

/-- Of two doubles of one size, the second does not have the greater exponent: its significand would be full, and that of the
first beyond its bound. -/
lemma exponent_le (h : x.magnitude = y.magnitude) : y.exponent ≤ x.exponent := by
  by_contra hlt
  rw [not_le] at hlt
  have hleast : -1074 ≤ x.exponent := by
    unfold exponent
    split_ifs <;> omega
  have hfull : (2 : ℚ) ^ 52 ≤ y.significand := by exact_mod_cast le_significand (x := y) (by omega)
  have hbound : (x.significand : ℚ) < 2 ^ 53 := by exact_mod_cast x.significand_lt
  have hpos : (0 : ℚ) < 2 ^ x.exponent := by positivity
  have htwice : (2 : ℚ) ^ (1 : ℤ) ≤ 2 ^ (y.exponent - x.exponent) := zpow_le_zpow_right₀ (by norm_num) (by omega)
  have hsplit : (2 : ℚ) ^ y.exponent = 2 ^ (y.exponent - x.exponent) * 2 ^ x.exponent := by
    rw [← zpow_add₀ two_ne_zero, sub_add_cancel]
  rw [magnitude, magnitude, hsplit, ← mul_assoc] at h
  have hsize := mul_right_cancel₀ hpos.ne' h
  rw [zpow_one] at htwice
  nlinarith

lemma magnitude_nonneg (x : Double) : 0 ≤ x.magnitude := by
  unfold magnitude
  positivity

lemma value_eq_zero_iff : x.value = 0 ↔ x.isZero = true := by
  have hpow : (2 : ℚ) ^ x.exponent ≠ 0 := zpow_ne_zero _ two_ne_zero
  unfold value
  split_ifs <;> simp [magnitude, isZero, hpow]

/-- Values other than zero are equal only if signs and sizes are. -/
lemma sign_and_magnitude (h : x.value = y.value) (hne : x.value ≠ 0) :
    x.isNegative = y.isNegative ∧ x.magnitude = y.magnitude := by
  have hx := x.magnitude_nonneg
  have hy := y.magnitude_nonneg
  unfold value at h hne
  cases hsx : x.isNegative <;> cases hsy : y.isNegative <;> simp only [hsx, hsy, if_true, Bool.false_eq_true, if_false] at h hne
  · exact ⟨rfl, h⟩
  · exact absurd (by linarith) hne
  · exact absurd (by linarith) hne
  · exact ⟨rfl, neg_injective h⟩

/-- **A number other than zero is the value of one double at most.** -/
theorem eq_of_value (h : x.value = y.value) (hne : x.value ≠ 0) : x = y := by
  obtain ⟨hsign, hmagnitude⟩ := sign_and_magnitude h hne
  have hexponent : x.exponent = y.exponent := le_antisymm (exponent_le hmagnitude.symm) (exponent_le hmagnitude)
  have hsignificand : x.significand = y.significand := by
    rw [magnitude, magnitude, hexponent] at hmagnitude
    exact_mod_cast mul_right_cancel₀ (zpow_ne_zero _ two_ne_zero) hmagnitude
  obtain ⟨hbiased, hfraction⟩ := fields_eq hexponent hsignificand
  exact ext_fields hsign hbiased hfraction

lemma equals_of_value (h : x.value = y.value) : x.equals y = true := by
  unfold equals
  by_cases hzero : x.value = 0
  · have hx := value_eq_zero_iff.1 hzero
    have hy := value_eq_zero_iff.1 (h ▸ hzero)
    simp [hx, hy]
  · simp [eq_of_value h hzero]

lemma isFinite_of_isZero (h : x.isZero = true) : x.isFinite = true := by
  unfold isZero significand at h
  unfold isFinite
  split_ifs at h with hb
  · simp [hb]
  · have hpow : 0 < Nat.pow 2 52 := by decide
    simp only [decide_eq_true_eq] at h
    omega

lemma scaled_eq (m : ℕ) (e : ℤ) : 0 < (scaled m e).2 ∧ ((scaled m e).1 : ℚ) = m * 2 ^ e * (scaled m e).2 := by
  unfold scaled
  split_ifs with he
  · obtain ⟨k, rfl⟩ := Int.eq_ofNat_of_zero_le he
    simp
  · obtain ⟨k, rfl⟩ : ∃ k : ℕ, e = -(k : ℤ) := ⟨(-e).toNat, by omega⟩
    have hpos : (0 : ℚ) < 2 ^ k := by positivity
    simp [hpos.ne']

/-- A double is equal to a whole number if it is finite and that is its value. -/
lemma equalsInt_iff : x.equalsInt n = true ↔ x.isFinite = true ∧ x.value = n := by
  obtain ⟨hden, hnum⟩ := scaled_eq x.significand x.exponent
  have hden' : ((scaled x.significand x.exponent).2 : ℚ) ≠ 0 := by positivity
  -- multiplied by the denominator, value and whole number are the two sides that are compared
  have hvalue : x.value = n ↔ ((if x.isNegative then -((scaled x.significand x.exponent).1 : ℤ)
      else ((scaled x.significand x.exponent).1 : ℤ)) = n * (scaled x.significand x.exponent).2) := by
    rw [← mul_left_inj' hden', value, magnitude, ← Int.cast_inj (α := ℚ)]
    split_ifs <;> push_cast <;> rw [hnum]
    rw [neg_mul]
  rw [hvalue]
  simp [equalsInt]

lemma value_eq_of_equals (hx : x.isFinite = true) (h : x.equals y = true) : y.isFinite = true ∧ x.value = y.value := by
  simp only [equals, Bool.or_eq_true, decide_eq_true_eq, Bool.and_eq_true] at h
  rcases h with rfl | ⟨hx, hy⟩
  · exact ⟨hx, rfl⟩
  · exact ⟨isFinite_of_isZero hy, (value_eq_zero_iff.2 hx).trans (value_eq_zero_iff.2 hy).symm⟩

end Double

/-! ### Numbers, moments, and other values -/

lemma Number.equals_refl (n : Number) : n.equals n = true := by
  cases n <;> simp [equals, Double.equals]

lemma Number.equals_comm (m n : Number) : m.equals n = n.equals m := by
  cases m with
  | int m =>
    cases n with
    | int n => simp only [equals, eq_comm]
    | double y => rfl
  | double x =>
    cases n with
    | int n => rfl
    | double y => simp only [equals, Double.equals, eq_comm (a := x), Bool.and_comm x.isZero]

lemma Number.equals_trans {l m n : Number} (h : l.equals m = true) (h' : m.equals n = true) : l.equals n = true := by
  -- by what stands in the middle: a whole number has one value, and a double is compared by its value if it has one
  cases m with
  | int m =>
    cases l with
    | int l =>
      obtain rfl : l = m := by simpa [equals] using h
      exact h'
    | double x =>
      have hx : x.isFinite = true ∧ x.value = m := Double.equalsInt_iff.1 h
      cases n with
      | int n =>
        obtain rfl : m = n := by simpa [equals] using h'
        exact h
      | double y =>
        have hy : y.isFinite = true ∧ y.value = m := Double.equalsInt_iff.1 h'
        exact Double.equals_of_value (hx.2.trans hy.2.symm)
  | double y =>
    cases l with
    | int l =>
      have hy : y.isFinite = true ∧ y.value = l := Double.equalsInt_iff.1 h
      cases n with
      | int n =>
        have hn : y.isFinite = true ∧ y.value = n := Double.equalsInt_iff.1 h'
        have hln : l = n := by exact_mod_cast hy.2.symm.trans hn.2
        simp [equals, hln]
      | double z =>
        obtain ⟨hz, hyz⟩ := Double.value_eq_of_equals hy.1 h'
        exact Double.equalsInt_iff.2 ⟨hz, hyz ▸ hy.2⟩
    | double x =>
      cases n with
      | int n =>
        have hn : y.isFinite = true ∧ y.value = n := Double.equalsInt_iff.1 h'
        rw [equals_comm] at h
        obtain ⟨hx, hxy⟩ := Double.value_eq_of_equals hn.1 h
        exact Double.equalsInt_iff.2 ⟨hx, hxy ▸ hn.2⟩
      | double z =>
        simp only [equals, Double.equals, Bool.or_eq_true, decide_eq_true_eq, Bool.and_eq_true] at h h' ⊢
        grind

lemma Moment.same_refl (a : Moment) : a.same a = true := by
  unfold same
  split <;> simp

lemma Moment.same_comm (a b : Moment) : a.same b = b.same a := by
  unfold same
  split
  · simp only [eq_comm]
  · next hne =>
    split
    · next d c m e k n => exact absurd rfl (hne e k n d c m rfl)
    · simp only [eq_comm]

lemma Moment.same_trans {a b c : Moment} (h : a.same b = true) (h' : b.same c = true) : a.same c = true := by
  unfold same at h h' ⊢
  grind

lemma Extra.same_refl (a : Extra) : a.same a = true := by
  cases a <;> simp [same, Moment.same_refl]

lemma Extra.same_trans {a b c : Extra} (h : a.same b = true) (h' : b.same c = true) : a.same c = true := by
  cases a with
  | moment a =>
    cases b <;> cases c <;> simp only [same, Bool.false_eq_true] at h h' ⊢
    exact Moment.same_trans h h'
  | octets a =>
    cases b <;> cases c <;> simp only [same, Bool.false_eq_true, decide_eq_true_eq] at h h' ⊢
    exact h.trans h'
  | set a =>
    cases b <;> cases c <;> simp [same] at h h' ⊢
    exact ⟨h.1.trans h'.1, fun x hx => h'.2 x (h.2 x hx)⟩

/-! ### JSON values -/

namespace Json

lemma same_of_number {a : Json} {m : Number} (h : a.number? = some m) (b : Json) : a.same b = numbersEqual a b := by
  cases a <;> cases h <;> cases b <;> rfl

lemma numbersEqual_comm (v w : Json) : numbersEqual v w = numbersEqual w v := by
  unfold numbersEqual
  cases v.number? <;> cases w.number? <;> simp [Number.equals_comm]

lemma number_of_numbersEqual {a b : Json} (h : numbersEqual a b = true) : ∃ n, b.number? = some n := by
  unfold numbersEqual at h
  split at h
  · next hb => exact ⟨_, hb⟩
  · cases h

lemma numbersEqual_trans {a b c : Json} (h : numbersEqual a b = true) (h' : numbersEqual b c = true) :
    numbersEqual a c = true := by
  unfold numbersEqual at h h' ⊢
  cases ha : a.number? <;> cases hb : b.number? <;> cases hc : c.number? <;> simp only [ha, hb, hc, Bool.false_eq_true] at h h' ⊢
  exact Number.equals_trans h h'

lemma sameFields_iff {fs : List (String × Json)} {gs : Fields} :
    sameFields fs gs = true ↔ ∀ e ∈ fs, ∃ w, gs.get? e.1 = some w ∧ e.2.same w = true := by
  induction fs with
  | nil => simp [sameFields]
  | cons e fs ih =>
    obtain ⟨k, v⟩ := e
    rw [sameFields, Bool.and_eq_true, ih, List.forall_mem_cons]
    cases gs.get? k <;> simp

mutual

/-- **Equality by meaning is transitive.** -/
theorem same_trans : ∀ (a b c : Json), a.same b = true → b.same c = true → a.same c = true
  | null, b, c, h, h' => by
    cases b <;> simp [same] at h
    exact h'
  | bool x, b, c, h, h' => by
    rw [same_of_number rfl] at h ⊢
    obtain ⟨n, hn⟩ := number_of_numbersEqual h
    rw [same_of_number hn] at h'
    exact numbersEqual_trans h h'
  | num n, b, c, h, h' => by
    rw [same_of_number rfl] at h ⊢
    obtain ⟨n, hn⟩ := number_of_numbersEqual h
    rw [same_of_number hn] at h'
    exact numbersEqual_trans h h'
  | str s, b, c, h, h' => by
    cases b <;> simp [same] at h
    exact h ▸ h'
  | extra x, b, c, h, h' => by
    cases b <;> simp only [same, Bool.false_eq_true] at h
    cases c <;> simp only [same, Bool.false_eq_true] at h' ⊢
    exact Extra.same_trans h h'
  | arr xs, b, c, h, h' => by
    cases b <;> simp only [same, Bool.false_eq_true] at h
    cases c <;> simp only [same, Bool.false_eq_true] at h' ⊢
    exact sameItems_trans _ _ _ h h'
  | obj fs, b, c, h, h' => by
    cases b <;> simp only [same, Bool.false_eq_true] at h
    cases c <;> simp only [same, Bool.false_eq_true] at h' ⊢
    simp only [Bool.and_eq_true, decide_eq_true_eq] at h h' ⊢
    exact ⟨h.1.trans h'.1, sameFields_trans _ _ _ h.2 h'.2⟩

theorem sameItems_trans : ∀ (xs ys zs : List Json), sameItems xs ys = true → sameItems ys zs = true → sameItems xs zs = true
  | [], [], _, _, h' => h'
  | x :: xs, y :: ys, z :: zs, h, h' => by
    simp only [sameItems, Bool.and_eq_true] at h h' ⊢
    exact ⟨same_trans _ _ _ h.1 h'.1, sameItems_trans _ _ _ h.2 h'.2⟩

theorem sameFields_trans : ∀ (fs : List (String × Json)) (gs hs : Fields), sameFields fs gs = true →
    sameFields gs hs = true → sameFields fs hs = true
  | [], _, _, _, _ => rfl
  | (k, v) :: fs, gs, hs, h, h' => by
    obtain ⟨⟨w, hw, hvw⟩, hrest⟩ := List.forall_mem_cons.1 (sameFields_iff.1 h)
    obtain ⟨u, hu, hwu⟩ := sameFields_iff.1 h' _ (Table.mem_of_get? hw)
    refine sameFields_iff.2 (List.forall_mem_cons.2 ⟨⟨u, hu, same_trans _ _ _ hvw hwu⟩, ?_⟩)
    exact sameFields_iff.1 (sameFields_trans _ _ _ (sameFields_iff.2 hrest) h')

end

mutual

/-- No object in a value has a key twice. -/
def IsRegular : Json → Prop
  | arr xs => AreRegular xs
  | obj fs => (Table.keys fs).Nodup ∧ AreRegularFields fs
  | _ => True

/-- `IsRegular` for all items of an array. -/
def AreRegular : List Json → Prop
  | [] => True
  | x :: rest => IsRegular x ∧ AreRegular rest

/-- `IsRegular` for all members of an object. -/
def AreRegularFields : List (String × Json) → Prop
  | [] => True
  | (_, x) :: rest => IsRegular x ∧ AreRegularFields rest

end

lemma areRegular_iff {xs : List Json} : AreRegular xs ↔ ∀ x ∈ xs, IsRegular x := by
  induction xs with
  | nil => simp [AreRegular]
  | cons x xs ih => rw [AreRegular, ih, List.forall_mem_cons]

lemma areRegularFields_iff {fs : List (String × Json)} : AreRegularFields fs ↔ ∀ e ∈ fs, IsRegular e.2 := by
  induction fs with
  | nil => simp [AreRegularFields]
  | cons e fs ih => rw [AreRegularFields, ih, List.forall_mem_cons]

lemma isRegular_arr {xs : List Json} : IsRegular (.arr xs) ↔ ∀ x ∈ xs, IsRegular x := by
  rw [IsRegular, areRegular_iff]

lemma isRegular_obj {fs : Fields} : IsRegular (.obj fs) ↔ fs.keys.Nodup ∧ ∀ e ∈ fs, IsRegular e.2 := by
  rw [IsRegular, areRegularFields_iff]

lemma IsRegular.of_get? {fs : Fields} {key : String} {v : Json} (h : IsRegular (.obj fs)) (hv : fs.get? key = some v) :
    IsRegular v := (isRegular_obj.1 h).2 _ (Table.mem_of_get? hv)

mutual

/-- **Equality by meaning is reflexive** where no object has a key twice. -/
theorem same_refl : ∀ a : Json, IsRegular a → a.same a = true
  | null, _ => rfl
  | bool x, _ => by cases x <;> rfl
  | num n, _ => (same_of_number rfl _).trans (Number.equals_refl n)
  | str s, _ => by simp [same]
  | extra x, _ => Extra.same_refl x
  | arr xs, h => by
    rw [same]
    rw [IsRegular] at h
    exact sameItems_refl xs h
  | obj fs, h => by
    rw [IsRegular] at h
    obtain ⟨hkeys, hfs⟩ := h
    have hsame := sameValues_refl fs hfs
    simp only [same, decide_true, Bool.true_and]
    exact sameFields_iff.2 fun e he => ⟨e.2, Table.get?_of_mem hkeys he, hsame e he⟩

theorem sameItems_refl : ∀ xs : List Json, AreRegular xs → sameItems xs xs = true
  | [], _ => rfl
  | x :: xs, h => by
    rw [sameItems, same_refl x h.1, sameItems_refl xs h.2, Bool.and_self]

theorem sameValues_refl : ∀ fs : List (String × Json), AreRegularFields fs → ∀ e ∈ fs, e.2.same e.2 = true
  | [], _ => by simp
  | (_, v) :: fs, h => List.forall_mem_cons.2 ⟨same_refl v h.1, sameValues_refl fs h.2⟩

end

end Json

end Typings
