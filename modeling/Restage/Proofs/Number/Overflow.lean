import Mathlib.Tactic.Linarith
import Mathlib.Tactic.Ring
import Restage.Number.Binary64

/-!
# Where quotients overflow

A quotient is rounded before it is compared with the limit of the format, so it need not reach the
limit to be out of range.  The largest finite number is `2 ^ 1024 - 2 ^ 971`, and the next one that
rounding could give is `2 ^ 1024`.  Halfway between them a tie goes to the even neighbour, which is
the upper one; so a quotient is out of range from there on (`ofRatio_eq_infinite_iff`).
-/

namespace Restage

/-- Rounding reaches an even number from half a unit below it. -/
lemma le_roundHalfEven_iff {m n d : Nat} (hd : 0 < d) (hm : m % 2 = 0) :
    m ≤ roundHalfEven n d ↔ 2 * (m * d) ≤ 2 * n + d := by
  have hn : d * (n / d) + n % d = n := Nat.div_add_mod n d
  have hr : n % d < d := Nat.mod_lt n hd
  have hstep : ∀ k, k < m → (k + 1) * d ≤ m * d := fun k hk => Nat.mul_le_mul_right d hk
  have hbelow : ∀ k, m ≤ k → m * d ≤ k * d := fun k hk => Nat.mul_le_mul_right d hk
  rw [roundHalfEven]
  generalize n / d = q at hn ⊢
  generalize n % d = r at hn hr ⊢
  split_ifs with hlow hhigh
  · refine ⟨fun h => ?_, fun h => ?_⟩
    · have := hbelow q h
      linarith
    · by_contra hlt
      have := hstep q (by omega)
      linarith
  · refine ⟨fun h => ?_, fun h => ?_⟩
    · have := hbelow (q + 1) h
      linarith
    · by_contra hlt
      have := hstep (q + 1) (by omega)
      linarith
  · -- A tie: the even number is reached only if it is not beyond the even one of the two neighbours.
    refine ⟨fun h => ?_, fun h => ?_⟩
    · have := hbelow (q + 1) (by omega)
      linarith
    · by_contra hlt
      have := hstep (q + 1) (by omega)
      linarith

namespace Binary64

/-- Halfway between the largest finite number of the format and the next power of two. -/
def overflow : Nat := Nat.pow 2 1024 - Nat.pow 2 970

/-- The distance of the largest numbers of the format, in units. -/
def widest : Nat := Nat.pow 2 2045

lemma two_pow_add {a b c : Nat} (h : a + b = c) : Nat.pow 2 c = Nat.pow 2 a * Nat.pow 2 b := by
  subst h
  exact Nat.pow_add 2 a b

lemma two_pow_pos (a : Nat) : 0 < Nat.pow 2 a := Nat.pow_pos (by decide)

lemma two_pow_le {a b : Nat} (h : a ≤ b) : Nat.pow 2 a ≤ Nat.pow 2 b :=
  Nat.pow_le_pow_right (by decide) h

lemma two_mul_overflow_mul_one : 2 * (overflow * one) + widest = 2 * limit := by
  have htop := two_pow_add (show 54 + 970 = 1024 from rfl)
  have hgap := two_pow_add (show 971 + 1074 = 2045 from rfl)
  have hdouble := two_pow_add (show 1 + 970 = 971 from rfl)
  have hlimit := two_pow_add (show 1024 + 1074 = 2098 from rfl)
  have h54 : Nat.pow 2 54 = 18014398509481984 := rfl
  have h1 : Nat.pow 2 1 = 2 := rfl
  unfold overflow one limit widest
  -- Powers are compared by name, so none of them is evaluated.
  generalize Nat.pow 2 = power at *
  have hsub : 18014398509481984 * power 970 - power 970 = 18014398509481983 * power 970 := by omega
  rw [hgap, hdouble, hlimit, htop, h54, h1, hsub]
  ring

section Binades

variable {units d l : Nat}

lemma rounded_lt (hd : 0 < d) (h : units < Nat.pow 2 (l + 1) * d) :
    roundHalfEven units (d * Nat.pow 2 (l - 52)) * Nat.pow 2 (l - 52) < Nat.pow 2 (54 + (l - 52)) := by
  have hbinade : Nat.pow 2 (l + 1) ≤ Nat.pow 2 (53 + (l - 52)) := two_pow_le (by omega)
  have hgap := two_pow_pos (l - 52)
  have h53 := two_pow_add (show 53 + (l - 52) = 53 + (l - 52) from rfl)
  have h54 := two_pow_add (show 54 + (l - 52) = 54 + (l - 52) from rfl)
  rw [h54, Nat.mul_lt_mul_right hgap]
  have hmultiple : 0 < d * Nat.pow 2 (l - 52) := Nat.mul_pos hd hgap
  by_contra hle
  have hfar := (le_roundHalfEven_iff hmultiple (show Nat.pow 2 54 % 2 = 0 by decide)).1 (Nat.le_of_not_lt hle)
  rw [h53] at hbinade
  have hunits : units < 9007199254740992 * (d * Nat.pow 2 (l - 52)) := by
    calc units < Nat.pow 2 (l + 1) * d := h
      _ ≤ Nat.pow 2 53 * Nat.pow 2 (l - 52) * d := Nat.mul_le_mul_right d hbinade
      _ = 9007199254740992 * (d * Nat.pow 2 (l - 52)) := by
          rw [Nat.mul_assoc, Nat.mul_comm d]
  have h54 : Nat.pow 2 54 = 18014398509481984 := rfl
  rw [h54] at hfar
  omega

lemma le_rounded (hd : 0 < d) (hl : 52 ≤ l) (h : Nat.pow 2 l * d ≤ units) :
    Nat.pow 2 l ≤ roundHalfEven units (d * Nat.pow 2 (l - 52)) * Nat.pow 2 (l - 52) := by
  have hgap := two_pow_pos (l - 52)
  have hcut := two_pow_add (show 52 + (l - 52) = l by omega)
  have hmultiple : Nat.pow 2 52 * (d * Nat.pow 2 (l - 52)) = Nat.pow 2 l * d := by
    rw [hcut]
    ring
  rw [hcut]
  refine Nat.mul_le_mul_right _ ((le_roundHalfEven_iff (Nat.mul_pos hd hgap) (by decide)).2 ?_)
  rw [hmultiple]
  omega

lemma limit_le_rounded_iff (hd : 0 < d) :
    limit ≤ roundHalfEven units (d * spacing (units / d)) * spacing (units / d) ↔
      2 * (limit * d) ≤ 2 * units + widest * d := by
  have hupper : units < Nat.pow 2 ((units / d).log2 + 1) * d :=
    (Nat.div_lt_iff_lt_mul hd).1 Nat.lt_log2_self
  have hlower : (units / d).log2 ≠ 0 → Nat.pow 2 (units / d).log2 * d ≤ units := by
    intro hlog
    refine (Nat.le_div_iff_mul_le hd).1 (Nat.log2_self_le ?_)
    rintro hzero
    rw [hzero] at hlog
    exact hlog rfl
  unfold spacing limit widest
  generalize (units / d).log2 = l at *
  have hgap := Nat.mul_pos hd (two_pow_pos 2045)
  have hpos := Nat.mul_pos (two_pow_pos 2097) hd
  have h1 : Nat.pow 2 1 = 2 := rfl
  have hdouble := two_pow_add (show 1 + 2097 = 2098 from rfl)
  rcases Nat.lt_trichotomy l 2097 with hl | rfl | hl
  · have hrounded := rounded_lt hd hupper
    have hbelow := two_pow_le (show 54 + (l - 52) ≤ 2098 by omega)
    have hnext := Nat.mul_le_mul_right d (two_pow_le (show l + 1 ≤ 2097 by omega))
    have hsmall := Nat.mul_le_mul_right d (two_pow_le (show 2045 ≤ 2097 by decide))
    -- The powers are told apart by name from here on, so none of them is evaluated.
    generalize Nat.pow 2 = power at *
    rw [h1] at hdouble
    rw [hdouble] at hbelow ⊢
    rw [Nat.mul_assoc 2]
    omega
  · -- In the highest binade the question is how the multiple of the gap is rounded.
    have hlimit := two_pow_add (show 53 + 2045 = 2098 from rfl)
    have hround := le_roundHalfEven_iff (n := units) hgap (show Nat.pow 2 53 % 2 = 0 by decide)
    have hunit := two_pow_pos 2045
    generalize Nat.pow 2 = power at *
    rw [hlimit, Nat.mul_le_mul_right_iff hunit, hround, Nat.mul_comm d, Nat.mul_assoc]
  · have hrounded := le_rounded hd (show 52 ≤ l by omega) (hlower (by omega))
    have hreached := two_pow_le (show 2098 ≤ l by omega)
    have hunits := Nat.mul_le_mul_right d hreached
    have := hlower (by omega)
    generalize Nat.pow 2 = power at *
    omega

end Binades

lemma ofRatio_cases (negative : Bool) (n d : Nat) :
    (∃ units, ofRatio negative n d = .finite negative units) ∨
      ofRatio negative n d = .infinite negative := by
  unfold ofRatio
  dsimp only
  split_ifs
  · exact .inl ⟨_, rfl⟩
  · exact .inr rfl

/-- **Overflow.**  A quotient is out of range exactly from halfway between the largest finite number
and the power of two that comes after it. -/
lemma ofRatio_eq_infinite_iff (negative : Bool) {n d : Nat} (hd : 0 < d) :
    ofRatio negative n d = .infinite negative ↔ overflow * d ≤ n := by
  have hone : 0 < one := by
    have hpos := two_pow_pos 1074
    unfold one
    generalize Nat.pow 2 = power at *
    exact hpos
  have hscaled : overflow * d ≤ n ↔ 2 * (limit * d) ≤ 2 * (one * n) + widest * d := by
    have hcut : 2 * (limit * d) = 2 * (one * (overflow * d)) + widest * d := by
      rw [← Nat.mul_assoc, ← two_mul_overflow_mul_one]
      ring
    rw [hcut, Nat.add_le_add_iff_right, Nat.mul_le_mul_left_iff (by decide), Nat.mul_le_mul_left_iff hone]
  rw [hscaled, ← limit_le_rounded_iff hd]
  unfold ofRatio
  dsimp only
  split_ifs with hlt
  · simpa using hlt
  · simpa using Nat.le_of_not_lt hlt

end Binary64

end Restage
