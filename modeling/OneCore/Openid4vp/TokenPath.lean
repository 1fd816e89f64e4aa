/-
# Positions in token paths

A wallet says with a path such as `$.vp[1]` which presentation it means.  The verifier looks for the
last bracket of each kind and takes the text between them.  Nothing says that the closing bracket
comes after the opening one, and the slice of a text from a later to an earlier position panics.
-/
import OneCore.Openid4vp.Validator
import OneCore.Lib.Decimal

namespace OneCore.Openid4vp

open List Except

/-- The position of the last occurrence of a character. -/
def rfind (c : Char) : Str → Option Nat
  | [] => none
  | d :: text =>
    match rfind c text with
    | some i => some (i + 1)
    | none => if d = c then some 0 else none

/-- The routine `vecLastPositionFromTokenPath`, with its panic and with the index read as a word of
64 bits. -/
def vecLastPositionFromTokenPathChecked (path : Str) : Except (Fault OpenID4VCError) Nat :=
  match rfind '[' path with
  | some openBracket =>
    match rfind ']' path with
    | some closeBracket =>
      -- the brackets are single bytes, so that both bounds are between characters
      if closeBracket < openBracket + 1 then .error (.panic "slice index starts after its end")
      else (Decimal.parse (2 ^ 64) ((path.take closeBracket).drop (openBracket + 1))).mapError
        fun _ => .error (.mappingError "Could not parse vec position")
    | none => .error (.error (.mappingError "Credential path is incorrect"))
  | none => .ok 0

variable {c : Char} {path pre post : Str}

lemma rfind_eq_none_iff : rfind c path = none ↔ c ∉ path := by
  induction path with
  | nil => simp [rfind]
  | cons d path ih =>
    rw [rfind, mem_cons, not_or, ← ih]
    cases rfind c path with
    | none => simp [eq_comm]
    | some i => simp

lemma rfind_append_cons (h : c ∉ post) : rfind c (pre ++ c :: post) = some pre.length := by
  induction pre with
  | nil => simp [rfind, rfind_eq_none_iff.2 h]
  | cons d pre ih => simp [rfind, ih]

lemma exists_last_of_mem (h : c ∈ path) : ∃ pre post, path = pre ++ c :: post ∧ c ∉ post := by
  obtain ⟨post, pre, heq, hnot⟩ := eq_append_cons_of_mem (mem_reverse.2 h)
  exact ⟨pre.reverse, post.reverse, by simpa using congrArg reverse heq, by simpa using hnot⟩

/-- The slice is possible: if there are brackets of both kinds, the last opening one is closed. -/
def Closed (path : Str) : Prop :=
  ∀ pre post, path = pre ++ '[' :: post → '[' ∉ post → ']' ∈ path → ']' ∈ post

/-- A path is safe if it does not end in a panic, and is read as its index if it has one. -/
def PathSafe (path : Str) : Prop :=
  Survives (vecLastPositionFromTokenPathChecked path) ∧
    ∀ pre, ∀ n < 2 ^ 64, path = pre ++ '[' :: ((toString n).toList ++ [']']) →
      vecLastPositionFromTokenPathChecked path = .ok n

lemma checked_index {n : Nat} (hn : n < 2 ^ 64) :
    vecLastPositionFromTokenPathChecked (pre ++ '[' :: ((toString n).toList ++ [']'])) = .ok n := by
  have hno : '[' ∉ (toString n).toList ++ [']'] := by
    intro h
    rcases mem_append.1 h with h | h
    · rw [Decimal.toList_toString] at h
      have hdigit := Nat.isDigit_of_mem_toDigits (by decide) (by decide) h
      exact absurd hdigit (by decide)
    · exact absurd h (by decide)
  have hclose : rfind ']' (pre ++ '[' :: ((toString n).toList ++ [']'])) =
      some (pre ++ '[' :: (toString n).toList).length := by
    rw [← rfind_append_cons (not_mem_nil (a := ']'))]
    simp
  have hslice : ((pre ++ '[' :: ((toString n).toList ++ [']'])).take
      (pre ++ '[' :: (toString n).toList).length).drop (pre.length + 1) = (toString n).toList := by
    simp [take_append, drop_append]
  rw [vecLastPositionFromTokenPathChecked, rfind_append_cons hno]
  simp only [hclose]
  rw [if_neg (by simp), hslice, Decimal.parse_toString hn]
  rfl

/-- A path is safe exactly if its last opening bracket is closed. -/
theorem pathSafe_iff (path : Str) : PathSafe path ↔ Closed path := by
  constructor
  · rintro ⟨hsurv, -⟩ pre post rfl hopen hmem
    by_contra hno
    have hclose : ']' ∈ pre := by simpa [hno] using hmem
    obtain ⟨a, b, rfl, hb⟩ := exists_last_of_mem hclose
    have hpos : rfind ']' (a ++ ']' :: b ++ '[' :: post) = some a.length := by
      rw [append_assoc]
      exact rfind_append_cons (by simp [hb, hno])
    refine hsurv "slice index starts after its end" ?_
    rw [vecLastPositionFromTokenPathChecked, rfind_append_cons hopen]
    simp only [hpos]
    rw [if_pos (by simp)]
  · intro hclosed
    refine ⟨fun message h => ?_, fun pre n hn hpath => hpath ▸ checked_index hn⟩
    by_cases hmem : '[' ∈ path
    · obtain ⟨pre, post, rfl, hopen⟩ := exists_last_of_mem hmem
      rw [vecLastPositionFromTokenPathChecked, rfind_append_cons hopen] at h
      by_cases hclose : ']' ∈ pre ++ '[' :: post
      · obtain ⟨a, b, rfl, hb⟩ := exists_last_of_mem (hclosed pre post rfl hopen hclose)
        have hpos : rfind ']' (pre ++ '[' :: (a ++ ']' :: b)) = some (pre ++ '[' :: a).length := by
          rw [← rfind_append_cons hb, append_assoc, cons_append]
        simp only [hpos] at h
        rw [if_neg (by simp), mapError_eq_error_iff] at h
        obtain ⟨_, -, ⟨⟩⟩ := h
      · simp [rfind_eq_none_iff.2 hclose] at h
    · simp [vecLastPositionFromTokenPathChecked, rfind_eq_none_iff.2 hmem] at h

/-- The closing bracket comes first. -/
theorem unclosed_path_panics : ¬Survives (vecLastPositionFromTokenPathChecked "][".toList) :=
  fun h => h _ rfl

end OneCore.Openid4vp
