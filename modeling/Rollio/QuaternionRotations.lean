import Mathlib.Algebra.Quaternion
import Mathlib.LinearAlgebra.Matrix.Notation
import Mathlib.Tactic.FinCases

/-! The rotations of vectors by quaternions, as conjugation and as matrices. -/
namespace QuaternionRotations
open Quaternion

variable {K : Type*} [CommRing K]

def pure (v : Fin 3 → K) : ℍ[K] :=
  ⟨0, Matrix.vecHead v, Matrix.vecHead (Matrix.vecTail v),
    Matrix.vecHead (Matrix.vecTail (Matrix.vecTail v))⟩

def vec (q : ℍ[K]) : Fin 3 → K := ![q.imI, q.imJ, q.imK]

def conjugate (q : ℍ[K]) (v : Fin 3 → K) : Fin 3 → K := vec (q * pure v * star q)

/-- The columns are what the axes are taken to. -/
def rotation (q : ℍ[K]) : Matrix (Fin 3) (Fin 3) K :=
  Matrix.of fun i j => conjugate q (Pi.single j 1) i

@[simp] theorem pure_re (v : Fin 3 → K) : (pure v).re = 0 := rfl
@[simp] theorem pure_imI (v : Fin 3 → K) : (pure v).imI = v 0 := rfl
@[simp] theorem pure_imJ (v : Fin 3 → K) : (pure v).imJ = v 1 := rfl
@[simp] theorem pure_imK (v : Fin 3 → K) : (pure v).imK = v 2 := rfl

@[simp] theorem vec_zero (q : ℍ[K]) : vec q 0 = q.imI := rfl
@[simp] theorem vec_one (q : ℍ[K]) : vec q 1 = q.imJ := rfl
@[simp] theorem vec_two (q : ℍ[K]) : vec q 2 = q.imK := rfl

@[simp] theorem vec_pure (v : Fin 3 → K) : vec (pure v) = v := by
  ext i
  fin_cases i
  · rfl
  · rfl
  · rfl

/-- The product has no real part, so nothing is lost. -/
theorem pure_conjugate (q : ℍ[K]) (v : Fin 3 → K) :
    pure (conjugate q v) = q * pure v * star q := by
  ext
  · simp only [pure_re, re_mul, imI_mul, imJ_mul, imK_mul, re_star, imI_star, imJ_star, imK_star,
      pure_imI, pure_imJ, pure_imK]
    ring
  · rfl
  · rfl
  · rfl

theorem conjugate_mul (p q : ℍ[K]) (v : Fin 3 → K) :
    conjugate (p * q) v = conjugate p (conjugate q v) := by
  rw [conjugate, conjugate, pure_conjugate, star_mul]
  congr 1
  simp only [mul_assoc]

theorem rotation_apply (q : ℍ[K]) (i j : Fin 3) :
    rotation q i j = conjugate q (Pi.single j 1) i := rfl

/-- Conjugation is linear. -/
theorem rotation_mulVec (q : ℍ[K]) (v : Fin 3 → K) : (rotation q).mulVec v = conjugate q v := by
  ext i
  rw [Matrix.mulVec, dotProduct, Fin.sum_univ_three, rotation_apply, rotation_apply,
    rotation_apply]
  fin_cases i
  · simp [conjugate]
    ring
  · simp [conjugate]
    ring
  · simp [conjugate]
    ring

theorem rotation_mul (p q : ℍ[K]) : rotation (p * q) = rotation p * rotation q := by
  apply Matrix.mulVec_injective
  funext v
  rw [← Matrix.mulVec_mulVec, rotation_mulVec, rotation_mulVec, rotation_mulVec, conjugate_mul]

/-- The rotation back. -/
theorem rotation_star (q : ℍ[K]) : rotation (star q) = (rotation q).transpose := by
  ext i j
  rw [Matrix.transpose_apply, rotation_apply, rotation_apply]
  fin_cases i <;> fin_cases j <;> simp [conjugate] <;> ring

end QuaternionRotations
