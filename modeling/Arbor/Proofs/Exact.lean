import Arbor.Arithmetic

/-!
# Exact integer operators

On words an arithmetic operator yields what it computes over all integers, or it refuses.  It
refuses only if no word holds the result or if there is no result, with one exception: the least
word has the remainder zero by minus one, but the quotient that goes with it is too large.

* `truncatedDivision_iff` — quotient and remainder by what they satisfy;
* `TruncatedDivision.isWord_quotient_iff` — there is one quotient of words that no word holds;
* `Operator.applyInt_outcome` — all that an arithmetic operator does with two words;
* `Operator.Outcome.eq_ok_iff`, `Operator.Outcome.eq_overflow_iff` — exact, or refused.
-/

namespace Arbor

/-! ### Words -/

/-- The integer is in the range of 64-bit words, from `-2 ^ 63` to `2 ^ 63 - 1`. -/
def IsWord (n : Int) : Prop :=
  -9223372036854775808 ≤ n ∧ n ≤ 9223372036854775807

theorem isWord_toInt (w : Int64) : IsWord w.toInt :=
  ⟨w.le_toInt, Int.le_sub_one_of_lt w.toInt_lt⟩

theorem isWord_iff {n : Int} : IsWord n ↔ ∃ w : Int64, w.toInt = n := by
  constructor
  · intro h
    exact ⟨Int64.ofInt n, Int64.toInt_ofInt_of_le h.1 (Int.lt_of_le_sub_one h.2)⟩
  · rintro ⟨w, rfl⟩
    exact isWord_toInt w

theorem word?_eq_none_iff_not_isWord {n : Int} : word? n = none ↔ ¬ IsWord n := by
  rw [word?_eq_none_iff, Int64.toInt_minValue, Int64.toInt_maxValue, IsWord]
  omega

/-! ### Truncated division -/

/-- `a` divided by `b` has the quotient `q`, truncated toward zero, and the remainder `r`. -/
structure TruncatedDivision (a b q r : Int) : Prop where
  eq : a = q * b + r
  small : r.natAbs < b.natAbs
  sign : r = 0 ∨ (0 < r ∧ 0 < a) ∨ (r < 0 ∧ a < 0)

theorem truncatedDivision_tdiv_tmod (a : Int) {b : Int} (hb : b ≠ 0) :
    TruncatedDivision a b (a.tdiv b) (a.tmod b) := by
  have habs : (a.tmod b).natAbs = a.natAbs % b.natAbs := Int.natAbs_tmod a b
  refine ⟨(Int.tdiv_mul_add_tmod a b).symm, ?_, ?_⟩
  · rw [habs]
    exact Nat.mod_lt _ (Int.natAbs_pos.mpr hb)
  · have hle : a.natAbs % b.natAbs ≤ a.natAbs := Nat.mod_le _ _
    rcases Int.le_total 0 a with ha | ha
    · have hr : 0 ≤ a.tmod b := Int.tmod_nonneg b ha
      omega
    · have hr : 0 ≤ (-a).tmod b := Int.tmod_nonneg b (Int.neg_nonneg_of_nonpos ha)
      rw [Int.neg_tmod] at hr
      omega

/-- There is exactly one truncated division by an integer that is not zero. -/
theorem truncatedDivision_iff {a b q r : Int} :
    TruncatedDivision a b q r ↔ b ≠ 0 ∧ a.tdiv b = q ∧ a.tmod b = r := by
  constructor
  · rintro ⟨heq, hsmall, hsign⟩
    have hb : b ≠ 0 := by omega
    rw [Int.mul_comm q b] at heq
    refine ⟨hb, ?_⟩
    rcases Int.le_total 0 a with ha | ha
    · rw [Int.tdiv_tmod_unique ha hb]
      omega
    · rw [Int.tdiv_tmod_unique' ha hb]
      omega
  · rintro ⟨hb, rfl, rfl⟩
    exact truncatedDivision_tdiv_tmod a hb

namespace TruncatedDivision

variable {a b q r : Int}

theorem natAbs_remainder_le (h : TruncatedDivision a b q r) : r.natAbs ≤ a.natAbs := by
  obtain ⟨-, -, rfl⟩ := truncatedDivision_iff.mp h
  rw [Int.natAbs_tmod]
  exact Nat.mod_le _ _

theorem isWord_remainder (h : TruncatedDivision a b q r) (ha : IsWord a) : IsWord r := by
  have hle := h.natAbs_remainder_le
  have hsign := h.sign
  unfold IsWord at *
  omega

/-- Quotient times divisor lies between zero and the dividend. -/
theorem isWord_product (h : TruncatedDivision a b q r) (ha : IsWord a) : IsWord (q * b) := by
  have heq := h.eq
  have hle := h.natAbs_remainder_le
  have hsign := h.sign
  unfold IsWord at *
  omega

/-- The quotient of two words is not one only if the least one is divided by minus one. -/
theorem isWord_quotient_iff (h : TruncatedDivision a b q r) (ha : IsWord a) :
    IsWord q ↔ ¬ (a = -9223372036854775808 ∧ b = -1) := by
  obtain ⟨hb, rfl, -⟩ := truncatedDivision_iff.mp h
  by_cases hone : b.natAbs = 1
  · rcases (show b = 1 ∨ b = -1 by omega) with rfl | rfl
    · rw [Int.tdiv_one]
      unfold IsWord at *
      omega
    · rw [Int.tdiv_neg, Int.tdiv_one]
      unfold IsWord at *
      omega
  · -- The quotient is at most half as large as the dividend.
    have hhalf : (a.tdiv b).natAbs ≤ a.natAbs / 2 := by
      rw [Int.natAbs_tdiv]
      exact Nat.div_le_div_left (by omega) Nat.two_pos
    unfold IsWord at *
    omega

end TruncatedDivision

/-! ### Operators -/

namespace Operator

/-- What an arithmetic operator computes over all integers. -/
inductive Computes : Operator → Int → Int → Int → Prop where
  | add (a b : Int) : Computes .add a b (a + b)
  | sub (a b : Int) : Computes .sub a b (a - b)
  | mul (a b : Int) : Computes .mul a b (a * b)
  | div {a b q r : Int} (h : TruncatedDivision a b q r) : Computes .div a b q
  | mod {a b q r : Int} (h : TruncatedDivision a b q r) : Computes .mod a b r

/-- The one remainder that is refused although it is a word. -/
def Excepts (op : Operator) (a b : Int64) : Prop :=
  op = .mod ∧ a = Int64.minValue ∧ b = -1

variable {op : Operator} {a b w : Int64} {n : Int} {error : OperatorError}

theorem exact_eq_ok_iff : op.exact n = .ok (.int w) ↔ w.toInt = n := by
  rw [← word?_eq_some_iff, exact]
  cases word? n <;> simp

theorem exact_eq_error_iff : op.exact n = .error error ↔ error = .overflow op ∧ ¬ IsWord n := by
  rw [← word?_eq_none_iff_not_isWord, exact]
  cases word? n <;> simp [eq_comm]

/-- Whether this is an operator that has no result by zero. -/
def Divides (op : Operator) : Prop :=
  op = .div ∨ op = .mod

/-- What is recorded if the divisor is zero. -/
def zeroDivisor : Operator → OperatorError
  | .mod => .moduloByZero
  | _ => .divisionByZero

theorem zeroDivisor_ne_overflow (op other : Operator) : op.zeroDivisor ≠ .overflow other := by
  cases op <;> nofun

theorem not_excepts_zero : ¬ op.Excepts a 0 := by
  rintro ⟨-, -, hb⟩
  exact absurd hb (by decide)

theorem toInt_eq_zero_iff : b.toInt = 0 ↔ b = 0 := by
  rw [← Int64.toInt_zero, Int64.toInt_inj]

/-- The quotient of two words is a word, with one exception. -/
theorem isWord_tdiv_iff (hb : b ≠ 0) :
    IsWord (a.toInt.tdiv b.toInt) ↔ ¬ (a = Int64.minValue ∧ b = -1) := by
  have hdivision := truncatedDivision_tdiv_tmod a.toInt (mt toInt_eq_zero_iff.mp hb)
  rw [hdivision.isWord_quotient_iff (isWord_toInt a), ← Int64.toInt_inj, ← Int64.toInt_inj,
    Int64.toInt_minValue]
  rfl

theorem computes_div_iff : Computes .div a.toInt b.toInt n ↔ b ≠ 0 ∧ n = a.toInt.tdiv b.toInt := by
  rw [Ne, ← toInt_eq_zero_iff]
  constructor
  · rintro ⟨⟩
    next h =>
    obtain ⟨hb, hq, -⟩ := truncatedDivision_iff.mp h
    exact ⟨hb, hq.symm⟩
  · rintro ⟨hb, rfl⟩
    exact .div (truncatedDivision_tdiv_tmod _ hb)

theorem computes_mod_iff : Computes .mod a.toInt b.toInt n ↔ b ≠ 0 ∧ n = a.toInt.tmod b.toInt := by
  rw [Ne, ← toInt_eq_zero_iff]
  constructor
  · rintro ⟨⟩
    next h =>
    obtain ⟨hb, -, hr⟩ := truncatedDivision_iff.mp h
    exact ⟨hb, hr.symm⟩
  · rintro ⟨hb, rfl⟩
    exact .mod (truncatedDivision_tdiv_tmod _ hb)

theorem isWord_of_computes_mod (h : Computes .mod a.toInt b.toInt n) : IsWord n := by
  cases h with
  | mod h => exact h.isWord_remainder (isWord_toInt a)

/-- What an arithmetic operator does with two words. -/
inductive Outcome (op : Operator) (a b : Int64) : Except OperatorError Value → Prop where
  | byZero (hop : op.Divides) (hb : b = 0) (hnone : ∀ n, ¬ op.Computes a.toInt b.toInt n) :
    Outcome op a b (.error op.zeroDivisor)
  | excepted (hexcepts : op.Excepts a b) : Outcome op a b (.error (.overflow op))
  | exact {n : Int} (hzero : op.Divides → b ≠ 0) (hexcepts : ¬ op.Excepts a b)
    (honly : ∀ k, op.Computes a.toInt b.toInt k ↔ k = n) : Outcome op a b (op.exact n)

theorem applyInt_div_outcome (a b : Int64) : Outcome .div a b (div.applyInt a b) := by
  by_cases hb : b = 0
  · have happly : div.applyInt a b = .error .divisionByZero := if_pos (toInt_eq_zero_iff.mpr hb)
    rw [happly]
    exact .byZero (.inl rfl) hb fun n h => (computes_div_iff.mp h).1 hb
  · have happly : div.applyInt a b = div.exact _ := if_neg (mt toInt_eq_zero_iff.mp hb)
    rw [happly]
    refine .exact (fun _ => hb) nofun fun k => ?_
    rw [computes_div_iff, and_iff_right hb]

/-- The quotient decides whether there is a remainder. -/
theorem applyInt_mod_outcome (a b : Int64) : Outcome .mod a b (mod.applyInt a b) := by
  by_cases hb : b = 0
  · have happly : mod.applyInt a b = .error .moduloByZero := if_pos (toInt_eq_zero_iff.mpr hb)
    rw [happly]
    exact .byZero (.inr rfl) hb fun n h => (computes_mod_iff.mp h).1 hb
  · have happly : mod.applyInt a b = (mod.exact (a.toInt.tdiv b.toInt)).bind fun _ =>
        mod.exact (a.toInt.tmod b.toInt) := if_neg (mt toInt_eq_zero_iff.mp hb)
    rw [happly]
    by_cases hleast : a = Int64.minValue ∧ b = -1
    · have hquot : ¬ IsWord (a.toInt.tdiv b.toInt) := fun h => (isWord_tdiv_iff hb).mp h hleast
      rw [exact_eq_error_iff.mpr ⟨rfl, hquot⟩]
      exact .excepted ⟨rfl, hleast⟩
    · obtain ⟨q, hq⟩ := isWord_iff.mp ((isWord_tdiv_iff hb).mpr hleast)
      rw [exact_eq_ok_iff.mpr hq]
      refine .exact (fun _ => hb) (fun h => hleast h.2) fun k => ?_
      rw [computes_mod_iff, and_iff_right hb]

theorem applyInt_outcome (hop : op.isArithmetic = true) (a b : Int64) :
    op.Outcome a b (op.applyInt a b) := by
  cases op with
  | add => exact .exact nofun nofun fun k => ⟨fun | .add _ _ => rfl, fun h => h ▸ .add ..⟩
  | sub => exact .exact nofun nofun fun k => ⟨fun | .sub _ _ => rfl, fun h => h ▸ .sub ..⟩
  | mul => exact .exact nofun nofun fun k => ⟨fun | .mul _ _ => rfl, fun h => h ▸ .mul ..⟩
  | div => exact applyInt_div_outcome a b
  | mod => exact applyInt_mod_outcome a b
  | and => cases hop
  | or => cases hop
  | eq => cases hop

namespace Outcome

variable {outcome : Except OperatorError Value}

/-- The result is what the operator computes, unless it is the exception. -/
theorem eq_ok_iff (h : op.Outcome a b outcome) : outcome = .ok (.int w) ↔
    op.Computes a.toInt b.toInt w.toInt ∧ ¬ op.Excepts a b := by
  cases h with
  | byZero _ _ hnone => simp [hnone]
  | excepted hexcepts => simp [hexcepts]
  | exact _ hexcepts honly => rw [exact_eq_ok_iff, honly, and_iff_left hexcepts]

/-- An overflow means that no word holds the result, which is never so for a remainder, or it is
the exception. -/
theorem eq_overflow_iff (h : op.Outcome a b outcome) : outcome = .error (.overflow op) ↔
    (op ≠ .mod ∧ ∃ n, op.Computes a.toInt b.toInt n ∧ ¬ IsWord n) ∨ op.Excepts a b := by
  cases h with
  | byZero _ hb hnone =>
    have hexcepts : ¬ op.Excepts a b := hb ▸ not_excepts_zero
    simp [hnone, hexcepts, zeroDivisor_ne_overflow]
  | excepted hexcepts => simp [hexcepts]
  | @exact n _ hexcepts honly =>
    have hmod : ¬ IsWord n → op ≠ .mod := by
      rintro hn rfl
      exact hn (isWord_of_computes_mod ((honly n).mpr rfl))
    simpa [exact_eq_error_iff, honly, hexcepts] using hmod

theorem eq_zeroDivisor_iff (h : op.Outcome a b outcome) :
    outcome = .error op.zeroDivisor ↔ op.Divides ∧ b = 0 := by
  cases h with
  | byZero hop hb _ => simp [hop, hb]
  | excepted hexcepts =>
    refine ⟨fun heq => ?_, fun h => absurd (h.2 ▸ hexcepts) not_excepts_zero⟩
    exact absurd (Except.error.inj heq).symm (zeroDivisor_ne_overflow op op)
  | exact hzero _ _ =>
    refine ⟨fun heq => ?_, fun h => absurd h.2 (hzero h.1)⟩
    exact absurd (exact_eq_error_iff.mp heq).1 (zeroDivisor_ne_overflow op op)

/-- There is a word, or what is recorded is an arithmetic fault. -/
theorem word_or_arithmetic (h : op.Outcome a b outcome) : (∃ w, outcome = .ok (.int w)) ∨
    ∃ error, outcome = .error error ∧ error.isArithmetic = true := by
  cases h with
  | byZero => exact .inr ⟨_, rfl, by cases op <;> rfl⟩
  | excepted => exact .inr ⟨_, rfl, rfl⟩
  | @exact n =>
    unfold Operator.exact
    cases word? n with
    | some w => exact .inl ⟨w, rfl⟩
    | none => exact .inr ⟨_, rfl, rfl⟩

end Outcome

/-- Only arithmetic on integers yields an integer. -/
theorem apply_eq_int {l r : Value} {w : Int64} (h : op.apply l r = .ok (.int w)) :
    op.isArithmetic = true ∧ ∃ a b, l = .int a ∧ r = .int b ∧ op.applyInt a b = .ok (.int w) := by
  unfold apply at h
  split at h
  · next a b =>
    refine ⟨?_, a, b, rfl, rfl, h⟩
    cases op <;> first | rfl | cases h
  · cases op <;> cases h
  · cases op <;> cases h
  · cases h

end Operator

end Arbor
