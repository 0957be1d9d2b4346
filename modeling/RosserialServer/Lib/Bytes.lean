import Mathlib

/-!
# Little-endian words and byte sums

`leBytes w n` writes the low `w` bytes of `n`, least significant first, and
`leNat` reads such a string back; `byteSum` is the unbounded sum of a byte string,
of which an 8-bit accumulator keeps the residue.
-/

namespace Bytes

/-- The low `w` bytes of `n`, least significant first. -/
def leBytes : Nat → Nat → List UInt8
  | 0, _ => []
  | w + 1, n => UInt8.ofNat n :: leBytes w (n / 256)

/-- The number a little-endian byte string spells. -/
def leNat : List UInt8 → Nat
  | [] => 0
  | b :: bs => b.toNat + 256 * leNat bs

@[simp] theorem length_leBytes (w n : Nat) : (leBytes w n).length = w := by
  induction w generalizing n with
  | zero => rfl
  | succ w ih => simp [leBytes, ih]

/-- The bytes above the low `w` do not matter. -/
theorem leBytes_mod (w n : Nat) : leBytes w (n % 256 ^ w) = leBytes w n := by
  induction w generalizing n with
  | zero => rfl
  | succ w ih =>
      have hdiv : n % 256 ^ (w + 1) / 256 = n / 256 % 256 ^ w := by
        rw [Nat.pow_succ', Nat.mod_mul_right_div_self]
      have hlow : UInt8.ofNat (n % 256 ^ (w + 1)) = UInt8.ofNat n := by
        apply UInt8.toNat_inj.mp
        rw [UInt8.toNat_ofNat', UInt8.toNat_ofNat']
        exact Nat.mod_mod_of_dvd n (Dvd.intro_left (256 ^ w) rfl)
      rw [leBytes, leBytes, hdiv, hlow, ih]

theorem leNat_leBytes {w n : Nat} (h : n < 256 ^ w) : leNat (leBytes w n) = n := by
  induction w generalizing n with
  | zero => simp at h; simp [leBytes, leNat, h]
  | succ w ih =>
      have hdiv : n / 256 < 256 ^ w := by
        rw [Nat.div_lt_iff_lt_mul (by decide)]
        rwa [Nat.pow_succ] at h
      simp only [leBytes, leNat, UInt8.toNat_ofNat', ih hdiv]
      omega

theorem leNat_lt (bs : List UInt8) : leNat bs < 256 ^ bs.length := by
  induction bs with
  | nil => simp [leNat]
  | cons b bs ih =>
      have hb := b.toNat_lt
      rw [List.length_cons, Nat.pow_succ, leNat]
      omega

theorem leBytes_leNat (bs : List UInt8) : leBytes bs.length (leNat bs) = bs := by
  induction bs with
  | nil => rfl
  | cons b bs ih =>
      have hb := b.toNat_lt
      have hdiv : (b.toNat + 256 * leNat bs) / 256 = leNat bs := by omega
      have hlow : UInt8.ofNat (b.toNat + 256 * leNat bs) = b := by
        apply UInt8.toNat_inj.mp
        rw [UInt8.toNat_ofNat']
        omega
      simp only [List.length_cons, leBytes, leNat, hdiv, ih, hlow]

/-- The sum of the bytes, without any bound. -/
def byteSum (bs : List UInt8) : Nat := (bs.map UInt8.toNat).sum

@[simp] theorem byteSum_nil : byteSum [] = 0 := rfl

@[simp] theorem byteSum_cons (b : UInt8) (bs : List UInt8) :
    byteSum (b :: bs) = b.toNat + byteSum bs := by simp [byteSum]

/-- An 8-bit accumulator holds the sum modulo 256. -/
theorem foldl_add_toNat (bs : List UInt8) (acc : UInt8) :
    (bs.foldl (· + ·) acc).toNat = (acc.toNat + byteSum bs) % 256 := by
  induction bs generalizing acc with
  | nil =>
      have := acc.toNat_lt
      simp only [List.foldl_nil, byteSum_nil]
      omega
  | cons b bs ih =>
      rw [List.foldl_cons, ih, UInt8.toNat_add, byteSum_cons]
      omega

end Bytes
