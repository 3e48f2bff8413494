import Mathlib.Analysis.Real.Sqrt
import Mathlib.Tactic.LinearCombination
import Rollio.QuaternionRotations

/-! The frames of the two arms' poses: what the Nero driver publishes and takes as a command, in
exact arithmetic over a field with `1 / √2`. -/
namespace PoseFrames
open Quaternion QuaternionRotations

variable {K : Type*} [Field K]

/-- A quaternion with its scalar last. -/
@[ext] structure QuatXyzw (K : Type*) where
  x : K
  y : K
  z : K
  w : K
  deriving DecidableEq

@[ext] structure Vec3 (K : Type*) where
  x : K
  y : K
  z : K
  deriving DecidableEq

def quatMulXyzw (a b : QuatXyzw K) : QuatXyzw K where
  x := a.w * b.x + a.x * b.w + a.y * b.z - a.z * b.y
  y := a.w * b.y - a.x * b.z + a.y * b.w + a.z * b.x
  z := a.w * b.z + a.x * b.y - a.y * b.x + a.z * b.w
  w := a.w * b.w - a.x * b.x - a.y * b.y - a.z * b.z

def quatInvXyzw (q : QuatXyzw K) : QuatXyzw K := ⟨-q.x, -q.y, -q.z, q.w⟩

def rotateVecByQuatXyzw (q : QuatXyzw K) (v : Vec3 K) : Vec3 K :=
  let ux := q.y * v.z - q.z * v.y + q.w * v.x
  let uy := q.z * v.x - q.x * v.z + q.w * v.y
  let uz := q.x * v.y - q.y * v.x + q.w * v.z
  { x := v.x + (2 : ℕ) * (q.y * uz - q.z * uy)
    y := v.y + (2 : ℕ) * (q.z * ux - q.x * uz)
    z := v.z + (2 : ℕ) * (q.x * uy - q.y * ux) }

def qBaseFixXyzw : QuatXyzw K := ⟨0, 0, 1, 0⟩

def qTcpFixXyzw (invSqrt2 : K) : QuatXyzw K := ⟨invSqrt2, 0, invSqrt2, 0⟩

def lengthError (pose7 : List K) : String :=
  "Pose7 must have 7 values, got " ++ toString pose7.length

def applyPublishPoseFix (invSqrt2 : K) : List K → Except String (List K)
  | [x, y, z, qx, qy, qz, qw] =>
    let t := rotateVecByQuatXyzw qBaseFixXyzw ⟨x, y, z⟩
    let q := quatMulXyzw (quatMulXyzw qBaseFixXyzw ⟨qx, qy, qz, qw⟩)
      (quatInvXyzw (qTcpFixXyzw invSqrt2))
    .ok [t.x, t.y, t.z, q.x, q.y, q.z, q.w]
  | pose7 => .error (lengthError pose7)

def applyCommandPoseFix (invSqrt2 : K) : List K → Except String (List K)
  | [x, y, z, qx, qy, qz, qw] =>
    let t := rotateVecByQuatXyzw (quatInvXyzw qBaseFixXyzw) ⟨x, y, z⟩
    let q := quatMulXyzw (quatMulXyzw (quatInvXyzw qBaseFixXyzw) ⟨qx, qy, qz, qw⟩)
      (qTcpFixXyzw invSqrt2)
    .ok [t.x, t.y, t.z, q.x, q.y, q.z, q.w]
  | pose7 => .error (lengthError pose7)

section Hamilton

def toQuaternion (q : QuatXyzw K) : ℍ[K] := ⟨q.w, q.x, q.y, q.z⟩

def toVector (v : Vec3 K) : Fin 3 → K := ![v.x, v.y, v.z]

def IsUnitQuat (q : QuatXyzw K) : Prop := q.x * q.x + q.y * q.y + q.z * q.z + q.w * q.w = 1

@[simp] theorem toQuaternion_re (q : QuatXyzw K) : (toQuaternion q).re = q.w := rfl
@[simp] theorem toQuaternion_imI (q : QuatXyzw K) : (toQuaternion q).imI = q.x := rfl
@[simp] theorem toQuaternion_imJ (q : QuatXyzw K) : (toQuaternion q).imJ = q.y := rfl
@[simp] theorem toQuaternion_imK (q : QuatXyzw K) : (toQuaternion q).imK = q.z := rfl

theorem toQuaternion_injective : Function.Injective (toQuaternion (K := K)) := by
  intro a b h
  ext
  · exact congrArg QuaternionAlgebra.imI h
  · exact congrArg QuaternionAlgebra.imJ h
  · exact congrArg QuaternionAlgebra.imK h
  · exact congrArg QuaternionAlgebra.re h

/-- The product is Hamilton's. -/
theorem toQuaternion_mul (a b : QuatXyzw K) :
    toQuaternion (quatMulXyzw a b) = toQuaternion a * toQuaternion b := by
  ext
  · simp [quatMulXyzw]
  · simp [quatMulXyzw]
  · simp [quatMulXyzw]
  · simp [quatMulXyzw]

theorem toQuaternion_inv (q : QuatXyzw K) :
    toQuaternion (quatInvXyzw q) = star (toQuaternion q) := by
  ext
  · simp [quatInvXyzw]
  · simp [quatInvXyzw]
  · simp [quatInvXyzw]
  · simp [quatInvXyzw]

variable {q a b : QuatXyzw K} {v : Vec3 K}

theorem mul_star_of_unit (h : IsUnitQuat q) : toQuaternion q * star (toQuaternion q) = 1 := by
  have hnorm : normSq (toQuaternion q) = 1 := by
    rw [normSq_def']
    simp only [toQuaternion_re, toQuaternion_imI, toQuaternion_imJ, toQuaternion_imK]
    rw [← h]
    ring
  rw [self_mul_star, hnorm, coe_one]

theorem star_mul_of_unit (h : IsUnitQuat q) : star (toQuaternion q) * toQuaternion q = 1 := by
  rw [star_comm_self', mul_star_of_unit h]

theorem unit_inv (h : IsUnitQuat q) : IsUnitQuat (quatInvXyzw q) := by
  unfold IsUnitQuat at h ⊢
  simp only [quatInvXyzw, neg_mul_neg]
  exact h

@[simp] theorem quatInv_inv (q : QuatXyzw K) : quatInvXyzw (quatInvXyzw q) = q := by
  ext
  · exact neg_neg q.x
  · exact neg_neg q.y
  · exact neg_neg q.z
  · rfl

/-- The form with the cross products leaves out a multiple of the norm's distance from one. -/
theorem toVector_rotate (h : IsUnitQuat q) (v : Vec3 K) :
    toVector (rotateVecByQuatXyzw q v) = conjugate (toQuaternion q) (toVector v) := by
  unfold IsUnitQuat at h
  ext i
  fin_cases i
  · simp [toVector, rotateVecByQuatXyzw, conjugate]
    linear_combination (-v.x) * h
  · simp [toVector, rotateVecByQuatXyzw, conjugate]
    linear_combination (-v.y) * h
  · simp [toVector, rotateVecByQuatXyzw, conjugate]
    linear_combination (-v.z) * h

omit [Field K] in
theorem toVector_injective : Function.Injective (toVector (K := K)) := by
  intro v w h
  ext
  · exact congrFun h 0
  · exact congrFun h 1
  · exact congrFun h 2

/-- A vector that is rotated there and back is where it was. -/
theorem rotate_back (h : IsUnitQuat q) (v : Vec3 K) :
    rotateVecByQuatXyzw (quatInvXyzw q) (rotateVecByQuatXyzw q v) = v := by
  apply toVector_injective
  rw [toVector_rotate (unit_inv h), toVector_rotate h, toQuaternion_inv, ← conjugate_mul,
    star_mul_of_unit h]
  simp [conjugate]

/-- A quaternion between two unit ones comes back from between their inverses. -/
theorem quatMul_back (ha : IsUnitQuat a) (hb : IsUnitQuat b) (q : QuatXyzw K) :
    quatMulXyzw (quatMulXyzw (quatInvXyzw a) (quatMulXyzw (quatMulXyzw a q) (quatInvXyzw b))) b =
      q := by
  apply toQuaternion_injective
  simp only [toQuaternion_mul, toQuaternion_inv]
  calc star (toQuaternion a) * (toQuaternion a * toQuaternion q * star (toQuaternion b)) *
        toQuaternion b
      = star (toQuaternion a) * toQuaternion a * toQuaternion q *
          (star (toQuaternion b) * toQuaternion b) := by simp only [mul_assoc]
    _ = toQuaternion q := by rw [star_mul_of_unit ha, star_mul_of_unit hb, one_mul, mul_one]

end Hamilton

section Fixes
variable {s : K}

theorem unit_base : IsUnitQuat (qBaseFixXyzw : QuatXyzw K) := by
  simp [IsUnitQuat, qBaseFixXyzw]

theorem unit_tcp [CharZero K] (hs : s * s = 1 / 2) : IsUnitQuat (qTcpFixXyzw s) := by
  unfold IsUnitQuat qTcpFixXyzw
  simp only [mul_zero, add_zero, hs]
  exact add_halves 1

theorem command_after_publish [CharZero K] (hs : s * s = 1 / 2) {pose : List K}
    (h : pose.length = 7) :
    (applyPublishPoseFix s pose).bind (applyCommandPoseFix s) = .ok pose := by
  match pose, h with
  | [x, y, z, qx, qy, qz, qw], _ =>
    have ht := rotate_back unit_base (⟨x, y, z⟩ : Vec3 K)
    have hq := quatMul_back unit_base (unit_tcp hs) ⟨qx, qy, qz, qw⟩
    simp only [applyPublishPoseFix, Except.bind, applyCommandPoseFix, ht, hq]

theorem publish_after_command [CharZero K] (hs : s * s = 1 / 2) {pose : List K}
    (h : pose.length = 7) :
    (applyCommandPoseFix s pose).bind (applyPublishPoseFix s) = .ok pose := by
  match pose, h with
  | [x, y, z, qx, qy, qz, qw], _ =>
    have ht := rotate_back (unit_inv unit_base) (⟨x, y, z⟩ : Vec3 K)
    have hq := quatMul_back (unit_inv unit_base) (unit_inv (unit_tcp hs)) ⟨qx, qy, qz, qw⟩
    rw [quatInv_inv] at ht
    rw [quatInv_inv, quatInv_inv] at hq
    simp only [applyPublishPoseFix, Except.bind, applyCommandPoseFix, ht, hq]

def rotationOf (q : QuatXyzw K) : Matrix (Fin 3) (Fin 3) K := rotation (toQuaternion q)

/-- The published orientation is the native one between the two fixed rotations. -/
theorem rotationOf_published (q : QuatXyzw K) : rotationOf (quatMulXyzw (quatMulXyzw qBaseFixXyzw q)
      (quatInvXyzw (qTcpFixXyzw s))) =
    rotationOf qBaseFixXyzw * rotationOf q * (rotationOf (qTcpFixXyzw s)).transpose := by
  unfold rotationOf
  rw [toQuaternion_mul, toQuaternion_mul, toQuaternion_inv, rotation_mul, rotation_mul,
    rotation_star]

/-- The two conversions undo each other, the cross products rotate as Hamilton's product does, and
the published pose is the native one in the other arm's frames. -/
theorem pose_frames_exact [CharZero K] (hs : s * s = 1 / 2) :
    (∀ pose : List K, pose.length = 7 →
      (applyPublishPoseFix s pose).bind (applyCommandPoseFix s) = .ok pose ∧
      (applyCommandPoseFix s pose).bind (applyPublishPoseFix s) = .ok pose) ∧
    (∀ (q : QuatXyzw K) (v : Vec3 K), IsUnitQuat q →
      toQuaternion q * toQuaternion (quatInvXyzw q) = 1 ∧
      toVector (rotateVecByQuatXyzw q v) =
        vec (toQuaternion q * pure (toVector v) * toQuaternion (quatInvXyzw q))) ∧
    ∀ (t : Vec3 K) (q : QuatXyzw K), IsUnitQuat q → ∃ (t' : Vec3 K) (q' : QuatXyzw K),
      applyPublishPoseFix s [t.x, t.y, t.z, q.x, q.y, q.z, q.w] =
        .ok [t'.x, t'.y, t'.z, q'.x, q'.y, q'.z, q'.w] ∧
      rotationOf q' =
        rotationOf qBaseFixXyzw * rotationOf q * (rotationOf (qTcpFixXyzw s)).transpose ∧
      toVector t' = (rotationOf qBaseFixXyzw).mulVec (toVector t) := by
  refine ⟨?_, ?_, ?_⟩
  · intro pose h
    exact ⟨command_after_publish hs h, publish_after_command hs h⟩
  · intro q v h
    rw [toQuaternion_inv]
    exact ⟨mul_star_of_unit h, toVector_rotate h v⟩
  · intro t q _
    refine ⟨_, _, rfl, rotationOf_published q, ?_⟩
    rw [toVector_rotate unit_base, rotationOf, rotation_mulVec]

/-- The driver's own constant, in the real numbers. -/
theorem inverse_sqrt_two_frames : (applyPublishPoseFix (1 / √2 : ℝ) [1, 2, 3, 0, 0, 0, 1]).bind
    (applyCommandPoseFix (1 / √2)) = .ok [1, 2, 3, 0, 0, 0, 1] := by
  have hs : (1 / √2 : ℝ) * (1 / √2) = 1 / 2 := by
    rw [div_mul_div_comm, one_mul, Real.mul_self_sqrt (by norm_num)]
  exact ((pose_frames_exact hs).1 _ rfl).1

end Fixes

end PoseFrames
