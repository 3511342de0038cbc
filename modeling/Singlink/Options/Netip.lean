import Singlink.Lib.Codec
import Singlink.Options.HeadlessRule
import Mathlib.Logic.Function.Iterate
/-!
# Addresses as numbers

`netip.Addr` and `netip.Prefix` by the numbers they stand for: a prefix is a block
of addresses of one family, of a size that is a power of two, that starts at a
multiple of its size.
-/

namespace Singlink.Options

open Lib.Codec

/-! ## Addresses -/

namespace Addr

def is4 : Addr → Bool
  | .v4 _ => true
  | _ => false

def isValid (addr : Addr) : Bool := addr != .zero

/-- `Next`: the zero address after the last one. -/
def next : Addr → Addr
  | .zero => .zero
  | .v4 addr => if addr = BitVec.allOnes 32 then .zero else .v4 (addr + 1)
  | .v6 addr => if addr = BitVec.allOnes 128 then .zero else .v6 (addr + 1)

def toNat : Addr → Nat
  | .zero => 0
  | .v4 addr => addr.toNat
  | .v6 addr => addr.toNat

variable {a b : Addr}

theorem toNat_lt (a : Addr) : a.toNat < 2 ^ a.bitLen := by
  cases a with
  | zero => exact one_pos
  | v4 addr | v6 addr => exact addr.isLt

theorem eq_of_toNat (hlen : a.bitLen = b.bitLen) (h : a.toNat = b.toNat) : a = b := by
  cases a with
  | zero =>
    cases b with
    | zero => rfl
    | _ => simp [bitLen] at hlen
  | v4 x =>
    cases b with
    | v4 y => exact congrArg Addr.v4 (BitVec.eq_of_toNat_eq h)
    | _ => simp [bitLen] at hlen
  | v6 x =>
    cases b with
    | v6 y => exact congrArg Addr.v6 (BitVec.eq_of_toNat_eq h)
    | _ => simp [bitLen] at hlen

private theorem toNat_add_one {w : Nat} {addr : BitVec w} (h : addr.toNat + 1 < 2 ^ w) :
    addr ≠ BitVec.allOnes w ∧ (addr + 1).toNat = addr.toNat + 1 := by
  constructor
  · rintro rfl
    rw [BitVec.toNat_allOnes] at h
    omega
  · have hone : (1 : BitVec w).toNat = 1 % 2 ^ w := rfl
    rw [BitVec.toNat_add, hone, Nat.add_mod_mod, Nat.mod_eq_of_lt h]

theorem next_spec (h : a.toNat + 1 < 2 ^ a.bitLen) : a.next.bitLen = a.bitLen ∧ a.next.toNat = a.toNat + 1 := by
  cases a with
  | zero => exact absurd h (by decide)
  | v4 addr | v6 addr =>
    obtain ⟨hne, hadd⟩ := toNat_add_one h
    simp only [next, if_neg hne]
    exact ⟨rfl, hadd⟩

/-- The address `k` places after another. -/
def after (a : Addr) (k : Nat) : Addr := next^[k] a

theorem after_succ (a : Addr) (k : Nat) : a.after (k + 1) = (a.after k).next := Function.iterate_succ_apply' next k a

theorem after_spec (k : Nat) (h : a.toNat + k < 2 ^ a.bitLen) :
    (a.after k).bitLen = a.bitLen ∧ (a.after k).toNat = a.toNat + k := by
  induction k with
  | zero => exact ⟨rfl, rfl⟩
  | succ k ih =>
    obtain ⟨hlen, hnat⟩ := ih (by omega)
    have hlt : (a.after k).toNat + 1 < 2 ^ (a.after k).bitLen := by
      rw [hlen, hnat]
      exact h
    obtain ⟨hlen', hnat'⟩ := next_spec hlt
    rw [after_succ]
    exact ⟨hlen'.trans hlen, by omega⟩

def is4In6 : Addr → Bool
  | .v6 addr => addr >>> 32 == 0xffff
  | _ => false

def unmap (a : Addr) : Addr :=
  match a with
  | .v6 addr => if a.is4In6 then .v4 (addr.setWidth 32) else a
  | _ => a

/-- The IPv6 form of an IPv4 address. -/
def mapped : Addr → Addr
  | .v4 addr => .v6 (addr.setWidth 128 + 0xffff00000000)
  | a => a

def isPrivate : Addr → Bool
  | .zero => false
  | .v4 addr => addr >>> 24 == 10 || addr >>> 20 == 0xac1 || addr >>> 16 == 0xc0a8
  | .v6 addr => addr >>> 121 == 0x7e

theorem unmap_mapped (addr : BitVec 32) : (v4 addr).mapped.unmap = v4 addr := by
  have hhigh : ((addr.setWidth 128 + 0xffff00000000 : BitVec 128)) >>> 32 = 0xffff := by bv_omega
  have hlow : ((addr.setWidth 128 + 0xffff00000000 : BitVec 128)).setWidth 32 = addr := by bv_omega
  rw [mapped, unmap, is4In6, hhigh, hlow]
  rfl

theorem mapped_unmap {addr : BitVec 128} (h : (v6 addr).is4In6 = true) : (v6 addr).unmap.mapped = v6 addr := by
  have hhigh : addr >>> 32 = 0xffff := beq_iff_eq.1 h
  have hform : (addr.setWidth 32).setWidth 128 + 0xffff00000000 = addr := by bv_omega
  simp only [unmap, h, if_true, mapped, hform]

theorem is4In6_unmap (a : Addr) : a.unmap.is4In6 = false := by
  cases a with
  | zero => rfl
  | v4 addr => rfl
  | v6 addr =>
    rw [unmap]
    split
    · rfl
    · rename_i h
      exact Bool.eq_false_iff.2 h

theorem unmap_of_not_is4In6 (h : a.is4In6 = false) : a.unmap = a := by
  cases a with
  | zero => rfl
  | v4 addr => rfl
  | v6 addr => rw [unmap, if_neg (Bool.eq_false_iff.1 h)]

/-- The forms of one address: itself and, for an IPv4 address, the mapped form. -/
theorem unmap_eq_iff (hb : b.is4In6 = false) : a.unmap = b ↔ a = b ∨ a = b.mapped := by
  constructor
  · rintro rfl
    cases hform : a.is4In6 with
    | false => exact .inl (unmap_of_not_is4In6 hform).symm
    | true =>
      cases a with
      | zero => cases hform
      | v4 addr => cases hform
      | v6 addr => exact .inr (mapped_unmap hform).symm
  · rintro (rfl | rfl)
    · exact unmap_of_not_is4In6 hb
    · cases b with
      | zero => rfl
      | v4 addr => exact unmap_mapped addr
      | v6 addr => exact unmap_of_not_is4In6 hb

theorem is4_eq (h : a.bitLen = b.bitLen) : a.is4 = b.is4 := by
  cases a <;> cases b <;> simp [bitLen, is4] at *

end Addr

/-! ## Addresses as bytes -/

def asSlice : Addr → Bytes
  | .zero => []
  | .v4 addr => beBytes 4 addr.toNat
  | .v6 addr => beBytes 16 addr.toNat

def addrFromIP (bytes : Bytes) : Addr :=
  if bytes.length = 4 then .v4 (BitVec.ofNat 32 (ofBeBytes bytes))
  else if bytes.length = 16 then .v6 (BitVec.ofNat 128 (ofBeBytes bytes))
  else .zero

theorem addrFromIP_asSlice (addr : Addr) : addrFromIP (asSlice addr) = addr := by
  cases addr with
  | zero => rfl
  | v4 a =>
    have hlt : a.toNat < 256 ^ 4 := a.isLt
    rw [asSlice, addrFromIP, if_pos (length_beBytes 4 _), ofBeBytes_beBytes, Nat.mod_eq_of_lt hlt, BitVec.ofNat_toNat,
      BitVec.setWidth_eq]
  | v6 a =>
    have hlt : a.toNat < 256 ^ 16 := a.isLt
    rw [asSlice, addrFromIP, if_neg (by rw [length_beBytes]; decide), if_pos (length_beBytes 16 _), ofBeBytes_beBytes,
      Nat.mod_eq_of_lt hlt, BitVec.ofNat_toNat, BitVec.setWidth_eq]

/-! ## Prefixes -/

namespace Prefix

def isValid (p : Prefix) : Bool := p.bits.isSome

def size (p : Prefix) : Nat := 2 ^ (p.addr.bitLen - p.bits.getD 0)

def first (p : Prefix) : Nat := p.size * (p.addr.toNat / p.size)

variable {p : Prefix} {a : Addr}

theorem size_pos (p : Prefix) : 0 < p.size := Nat.two_pow_pos _

theorem first_add_size_le (p : Prefix) : p.first + p.size ≤ 2 ^ p.addr.bitLen := by
  have hdvd : p.size ∣ 2 ^ p.addr.bitLen := Nat.pow_dvd_pow 2 (Nat.sub_le _ _)
  obtain ⟨k, hk⟩ := hdvd
  have hlt := p.addr.toNat_lt
  have hdiv : p.addr.toNat / p.size < k := by
    rw [Nat.div_lt_iff_lt_mul p.size_pos, Nat.mul_comm, ← hk]
    exact hlt
  calc p.first + p.size = p.size * (p.addr.toNat / p.size + 1) := by rw [first, mul_add, mul_one]
    _ ≤ p.size * k := Nat.mul_le_mul_left _ hdiv
    _ = 2 ^ p.addr.bitLen := hk.symm

private theorem div_eq_iff {m n k : Nat} (hk : 0 < k) : m / k = n / k ↔ k * (m / k) ≤ n ∧ n < k * (m / k) + k := by
  constructor
  · intro h
    rw [h]
    exact ⟨Nat.mul_div_le n k, by simpa [Nat.mul_add] using Nat.lt_mul_div_succ n hk⟩
  · rintro ⟨hle, hlt⟩
    refine (Nat.div_eq_of_lt_le ?_ ?_).symm
    · rwa [Nat.mul_comm]
    · rwa [Nat.add_mul, Nat.one_mul, Nat.mul_comm]

private theorem shiftRight_eq_iff {w : Nat} (x y : BitVec w) (k : Nat) : (x >>> k == y >>> k) = true ↔
      2 ^ k * (x.toNat / 2 ^ k) ≤ y.toNat ∧ y.toNat < 2 ^ k * (x.toNat / 2 ^ k) + 2 ^ k := by
  rw [beq_iff_eq, ← BitVec.toNat_inj, BitVec.toNat_ushiftRight, BitVec.toNat_ushiftRight, Nat.shiftRight_eq_div_pow,
    Nat.shiftRight_eq_div_pow]
  exact div_eq_iff (Nat.two_pow_pos k)

attribute [local simp] Addr.bitLen contains

/-- The addresses of a prefix are a block. -/
theorem contains_iff : p.contains a = true ↔
    p.isValid = true ∧ a.bitLen = p.addr.bitLen ∧ p.first ≤ a.toNat ∧ a.toNat < p.first + p.size := by
  obtain ⟨addr, bits, hvalid⟩ := p
  cases bits with
  | none => cases addr <;> simp [isValid]
  | some n =>
    cases addr with
    | zero => exact absurd rfl (hvalid n rfl).1
    | v4 x =>
      cases a with
      | v4 y => simpa [isValid, first, size, Addr.toNat] using shiftRight_eq_iff x y (32 - n)
      | _ => simp
    | v6 x =>
      cases a with
      | v6 y => simpa [isValid, first, size, Addr.toNat] using shiftRight_eq_iff x y (128 - n)
      | _ => simp

end Prefix

end Singlink.Options
