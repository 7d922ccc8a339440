import Mathlib.Data.Int.NatAbs
import Mathlib.Data.List.Induction
import Mathlib.Tactic.Common

/-!
# Big-endian integers

An integer as a fixed number of bytes, the highest first, and the two round trips.
-/

namespace BigEndian

def bytes : Nat → Nat → List UInt8
  | 0, _ => []
  | count + 1, value => bytes count (value / 256) ++ [UInt8.ofNat (value % 256)]

def value (bytes : List UInt8) : Nat := bytes.foldl (fun value byte => 256 * value + byte.toNat) 0

@[simp] theorem length_bytes (count v : Nat) : (bytes count v).length = count := by
  induction count generalizing v with
  | zero => rfl
  | succ count ih => rw [bytes, List.length_append, ih, List.length_singleton]

theorem value_concat (front : List UInt8) (last : UInt8) :
    value (front ++ [last]) = 256 * value front + last.toNat := by
  rw [value, List.foldl_append]
  rfl

theorem value_bytes {count v : Nat} (h : v < 256 ^ count) : value (bytes count v) = v := by
  induction count generalizing v with
  | zero =>
    rw [Nat.pow_zero, Nat.lt_one_iff] at h
    rw [h]
    rfl
  | succ count ih =>
    have hfront : v / 256 < 256 ^ count := Nat.div_lt_of_lt_mul (by rwa [Nat.pow_succ'] at h)
    have hlast : v % 256 < 256 := Nat.mod_lt _ (by decide)
    have hbyte : (UInt8.ofNat (v % 256)).toNat = v % 256 := by
      rw [UInt8.toNat_ofNat', Nat.mod_eq_of_lt hlast]
    rw [bytes, value_concat, ih hfront, hbyte]
    exact Nat.div_add_mod v 256

theorem bytes_value (l : List UInt8) : bytes l.length (value l) = l := by
  induction l using List.reverseRecOn with
  | nil => rfl
  | append_singleton front last ih =>
    have hlast : last.toNat < 256 := last.toNat_lt
    have hfront : (256 * value front + last.toNat) / 256 = value front := by omega
    have hbyte : (256 * value front + last.toNat) % 256 = last.toNat := by omega
    rw [List.length_append, List.length_singleton, bytes, value_concat, hfront, hbyte, ih,
      UInt8.ofNat_toNat]

end BigEndian
