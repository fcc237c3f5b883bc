import StereoMapping.Number.Scalar

/-!
# `Proofs.Number.Equality` — numerical equality of scalars

The two zeros are numerically equal, a value that is not a number equals nothing, and any other value equals itself
only. Read on unpacked values this says that equality is that of `mergeZeros` between numbers. It is therefore
symmetric and transitive on all scalars of 32 bits, with nothing to be asked of them: a non-number that stands
between two values equals neither.

## Contents
- `Scalar.Equates`: scalars with a symmetric and transitive equality, and the instance for 32-bit numbers.
- `mergeZeros`, `beq_iff`: equality of unpacked values.
-/

namespace StereoMapping

/-- Scalars whose numerical equality is symmetric and transitive. -/
class Scalar.Equates (α : Type) [Scalar α] : Prop where
  eq_symm : ∀ a b : α, Scalar.eq a b = true → Scalar.eq b a = true
  eq_trans : ∀ a b c : α, Scalar.eq a b = true → Scalar.eq b c = true → Scalar.eq a c = true

open Float.Model (UnpackedFloat)

/-- The value, with one zero in place of two. -/
def mergeZeros : UnpackedFloat → UnpackedFloat
  | .zero _ => .zero .positive
  | x => x

/-- **Equal are the numbers that are one up to the sign of zero.** -/
theorem beq_iff {x y : UnpackedFloat} : x.beq y = true ↔ x ≠ .notANumber ∧ mergeZeros x = mergeZeros y := by
  unfold UnpackedFloat.beq
  rw [beq_iff_eq]
  -- only two finite values have more to compare than what they are and their signs
  cases x with
  | notANumber => exact iff_of_false (fun h => by cases y <;> cases h) fun h => h.1 rfl
  | infinity sign =>
    cases y with
    | infinity other =>
      cases sign <;> cases other <;>
        first | exact iff_of_true rfl ⟨nofun, rfl⟩ | exact iff_of_false nofun fun h => nomatch h.2
    | _ => cases sign <;> exact iff_of_false nofun fun h => nomatch h.2
  | zero sign =>
    cases y with
    | zero other => exact iff_of_true rfl ⟨nofun, rfl⟩
    | notANumber => exact iff_of_false nofun fun h => nomatch h.2
    | infinity other => cases other <;> exact iff_of_false nofun fun h => nomatch h.2
    | finite other m e hm => cases other <;> exact iff_of_false nofun fun h => nomatch h.2
  | finite sign m e hm =>
    cases y with
    | finite other m' e' hm' =>
      have hsame : mergeZeros (.finite sign m e hm) = mergeZeros (.finite other m' e' hm') ↔
          sign = other ∧ m = m' ∧ e = e' := iff_of_eq (UnpackedFloat.finite.injEq ..)
      rw [hsame, and_iff_right (by rintro ⟨⟩)]
      unfold UnpackedFloat.compare
      cases sign <;> cases other <;> simp [and_comm]
    | infinity other => cases sign <;> cases other <;> exact iff_of_false nofun fun h => nomatch h.2
    | _ => cases sign <;> exact iff_of_false nofun fun h => nomatch h.2

theorem beq_symm {x y : UnpackedFloat} (h : x.beq y = true) : y.beq x = true := by
  rw [beq_iff] at h ⊢
  obtain ⟨hx, hxy⟩ := h
  refine ⟨?_, hxy.symm⟩
  rintro rfl
  -- only a non-number is the same as one when the zeros are merged
  cases x <;> first | exact hx rfl | cases hxy

theorem beq_trans {x y z : UnpackedFloat} (h : x.beq y = true) (h' : y.beq z = true) : x.beq z = true := by
  rw [beq_iff] at h h' ⊢
  exact ⟨h.1, h.2.trans h'.2⟩

instance : Scalar.Equates Float32 where
  eq_symm _ _ := beq_symm
  eq_trans _ _ _ := beq_trans

end StereoMapping
