/-
# Decimal numbers

Reading a natural number below a bound from its decimal digits, one digit after the other, with a
check for overflow after each; the same for a number with a sign; and writing it.  What is written for
a number below the bound is read as this number.
-/
import Mathlib

namespace Decimal

/-- Why a text is not read as a number. -/
inductive ParseIntError where
  | empty
  | invalidDigit
  | posOverflow
  | negOverflow
deriving DecidableEq

def ParseIntError.display : ParseIntError → String
  | .empty => "cannot parse integer from empty string"
  | .invalidDigit => "invalid digit found in string"
  | .posOverflow => "number too large to fit in target type"
  | .negOverflow => "number too small to fit in target type"

def parseDigit (bound acc : ℕ) (c : Char) : Except ParseIntError ℕ :=
  if c.isDigit then
    let result := 10 * acc + (c.toNat - '0'.toNat)
    if result < bound then .ok result else .error .posOverflow
  else .error .invalidDigit

/-- Read an unsigned number below the bound. -/
def parse (bound : ℕ) : List Char → Except ParseIntError ℕ
  | [] => .error .empty
  | ['+'] => .error .invalidDigit
  | '+' :: digits => digits.foldlM (parseDigit bound) 0
  | digits => digits.foldlM (parseDigit bound) 0

/-- Read a signed number that is less than the bound and not less than its negative. -/
def parseSigned (bound : ℕ) : List Char → Except ParseIntError ℤ
  | ['-'] => .error .invalidDigit
  | '-' :: digits =>
    match digits.foldlM (parseDigit (bound + 1)) 0 with
    | .ok n => .ok (-n)
    | .error .posOverflow => .error .negOverflow
    | .error e => .error e
  | digits => (parse bound digits).map Int.ofNat

lemma toList_toString (n : ℕ) : (toString n).toList = Nat.toDigits 10 n := Nat.toList_repr

lemma toString_toList_injective : Function.Injective fun n : ℕ => (toString n).toList := by
  intro m n h
  have hdigits : Nat.toDigits 10 m = Nat.toDigits 10 n := by
    rw [← toList_toString, ← toList_toString]
    exact h
  calc
    m = Nat.ofDigitChars 10 (Nat.toDigits 10 m) 0 := Nat.ofDigitChars_ten_toDigits.symm
    _ = Nat.ofDigitChars 10 (Nat.toDigits 10 n) 0 := by rw [hdigits]
    _ = n := Nat.ofDigitChars_ten_toDigits

lemma exists_toString_eq_cons {n : ℕ} (hn : 0 < n) :
    ∃ c digits, (toString n).toList = c :: digits ∧ '0' < c := by
  rw [toList_toString]
  induction n using Nat.strong_induction_on with
  | h n ih =>
    rcases Nat.lt_or_ge n 10 with hlt | hge
    · rw [Nat.toDigits_of_lt_base hlt]
      refine ⟨n.digitChar, [], rfl, ?_⟩
      interval_cases n <;> decide
    · have hdiv : n / 10 < n := Nat.div_lt_self hn (by decide)
      have hpos : 0 < n / 10 := Nat.div_pos hge (by decide)
      obtain ⟨c, digits, hdigits, hc⟩ := ih (n / 10) hdiv hpos
      rw [Nat.toDigits_of_base_le (by decide) hge, hdigits]
      exact ⟨c, _, rfl, hc⟩

lemma le_ofDigitChars (digits : List Char) (acc : ℕ) : acc ≤ Nat.ofDigitChars 10 digits acc := by
  induction digits generalizing acc with
  | nil => exact Nat.le_refl acc
  | cons c digits ih =>
    rw [Nat.ofDigitChars_cons]
    have h := ih (10 * acc + (c.toNat - '0'.toNat))
    omega

variable {bound : ℕ}

lemma foldlM_parseDigit {digits : List Char} {acc : ℕ}
    (hdigits : ∀ c ∈ digits, c.isDigit = true) (hbound : Nat.ofDigitChars 10 digits acc < bound) :
    digits.foldlM (parseDigit bound) acc = .ok (Nat.ofDigitChars 10 digits acc) := by
  induction digits generalizing acc with
  | nil => rfl
  | cons c digits ih =>
    have hlt := Nat.lt_of_le_of_lt (le_ofDigitChars digits _) hbound
    have hstep : parseDigit bound acc c = .ok (10 * acc + (c.toNat - '0'.toNat)) := by
      rw [parseDigit, if_pos (hdigits c List.mem_cons_self)]
      exact if_pos hlt
    rw [List.foldlM_cons, hstep]
    exact ih (fun d hd => hdigits d (List.mem_cons_of_mem _ hd)) hbound

/-- A number below the bound is read as it is written. -/
theorem parse_toString {n : ℕ} (h : n < bound) : parse bound (toString n).toList = .ok n := by
  have hval : Nat.ofDigitChars 10 (Nat.toDigits 10 n) 0 = n := Nat.ofDigitChars_ten_toDigits
  have hdgt : ∀ c ∈ Nat.toDigits 10 n, c.isDigit = true := fun c hc =>
    Nat.isDigit_of_mem_toDigits (by decide) (by decide) hc
  have hfold : (Nat.toDigits 10 n).foldlM (parseDigit bound) 0 = .ok n := by
    rw [foldlM_parseDigit hdgt (by rw [hval]; exact h), hval]
  rw [toList_toString]
  unfold parse
  split
  · next hnil => exact absurd hnil Nat.toDigits_ne_nil
  · next hplus => exact absurd (hdgt '+' (by rw [hplus]; simp)) (by decide)
  · next hplus => exact absurd (hdgt '+' (by rw [hplus]; simp)) (by decide)
  · exact hfold

lemma toList_toString_ofNat (n : ℕ) : (toString (Int.ofNat n)).toList = (toString n).toList := rfl

lemma toList_toString_negSucc (n : ℕ) :
    (toString (Int.negSucc n)).toList = '-' :: (toString (n + 1)).toList := by
  show ("-" ++ Nat.repr (n + 1)).toList = _
  rw [String.toList_append]
  rfl

/-- A number between the bounds is read as it is written. -/
theorem parseSigned_toString {n : ℤ} (hlo : -bound ≤ n) (hhi : n < bound) :
    parseSigned bound (toString n).toList = .ok n := by
  cases n with
  | ofNat n =>
    have hdgt : ∀ c ∈ Nat.toDigits 10 n, c.isDigit = true := fun c hc =>
      Nat.isDigit_of_mem_toDigits (by decide) (by decide) hc
    have hlt : n < bound := by
      rw [Int.ofNat_eq_natCast] at hhi
      omega
    rw [toList_toString_ofNat]
    have hread := parse_toString hlt
    rw [toList_toString] at hread ⊢
    unfold parseSigned
    split
    · next hminus => exact absurd (hdgt '-' (by rw [hminus]; simp)) (by decide)
    · next hminus => exact absurd (hdgt '-' (by rw [hminus]; simp)) (by decide)
    · rw [hread]
      rfl
  | negSucc n =>
    have hlt : n + 1 < bound + 1 := by
      omega
    have hdgt : ∀ c ∈ Nat.toDigits 10 (n + 1), c.isDigit = true := fun c hc =>
      Nat.isDigit_of_mem_toDigits (by decide) (by decide) hc
    have hval : Nat.ofDigitChars 10 (Nat.toDigits 10 (n + 1)) 0 = n + 1 :=
      Nat.ofDigitChars_ten_toDigits
    have hfold : (Nat.toDigits 10 (n + 1)).foldlM (parseDigit (bound + 1)) 0 = .ok (n + 1) := by
      rw [foldlM_parseDigit hdgt (by rw [hval]; exact hlt), hval]
    rw [toList_toString_negSucc, toList_toString]
    unfold parseSigned
    split
    · next hnil =>
      exact absurd (List.cons.inj hnil).2 Nat.toDigits_ne_nil
    · next digits heq =>
      obtain rfl := (List.cons.inj heq).2
      rw [hfold]
      rfl
    · next hne =>
      exact absurd rfl (hne _)

end Decimal
