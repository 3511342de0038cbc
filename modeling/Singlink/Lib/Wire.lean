import Mathlib.Data.List.Basic
import Mathlib.Tactic.Ring
/-!
# Byte encodings that can be read back

An encoding is `Unique` if what follows it cannot be taken for a part of it:
from a concatenation one can tell the value and the rest. Such encodings
compose, and a sequence of them determines its values.
-/

namespace Singlink.Lib.Wire

open List

/-- The `k` lowest bytes of `n`, lowest first. -/
def leBytes : Nat → Nat → List UInt8
  | 0, _ => []
  | k + 1, n => UInt8.ofNat n :: leBytes k (n / 256)

def putUint64 (v : UInt64) : List UInt8 := leBytes 8 v.toNat

theorem length_leBytes (k n : Nat) : (leBytes k n).length = k := by
  induction k generalizing n with
  | zero => rfl
  | succ k ih => rw [leBytes, length_cons, ih]

theorem leBytes_inj {k n n' : Nat} (hn : n < 256 ^ k) (hn' : n' < 256 ^ k) (h : leBytes k n = leBytes k n') :
    n = n' := by
  induction k generalizing n n' with
  | zero => omega
  | succ k ih =>
    rw [leBytes, leBytes, cons.injEq] at h
    have hlow : n % 256 = n' % 256 := by
      have := congrArg UInt8.toNat h.1
      simpa using this
    have hhigh : n / 256 = n' / 256 := by
      refine ih ?_ ?_ h.2
      · rw [Nat.div_lt_iff_lt_mul (by decide)]
        exact hn
      · rw [Nat.div_lt_iff_lt_mul (by decide)]
        exact hn'
    omega

theorem putUint64_inj {v v' : UInt64} (h : putUint64 v = putUint64 v') : v = v' :=
  UInt64.toNat_inj.1 (leBytes_inj v.toNat_lt v'.toNat_lt h)

variable {α : Type}

/-- The values that meet `p` can be told from their encoding, whatever follows
it. -/
def Unique (p : α → Prop) (enc : α → List UInt8) : Prop :=
  ∀ a b x y, p a → p b → enc a ++ x = enc b ++ y → a = b ∧ x = y

variable {p : α → Prop}

theorem Unique.of_length {enc : α → List UInt8} (k : Nat) (hlen : ∀ a, (enc a).length = k)
    (hinj : ∀ a b, p a → p b → enc a = enc b → a = b) : Unique p enc := by
  intro a b x y ha hb h
  obtain ⟨henc, hrest⟩ := append_inj h ((hlen a).trans (hlen b).symm)
  exact ⟨hinj a b ha hb henc, hrest⟩

theorem Unique.of_sized {bytes : α → List UInt8} (hsize : ∀ a, p a → (bytes a).length < 2 ^ 64)
    (hinj : ∀ a b, p a → p b → bytes a = bytes b → a = b) :
    Unique p fun a => putUint64 (.ofNat (bytes a).length) ++ bytes a := by
  intro a b x y ha hb h
  simp only [append_assoc] at h
  obtain ⟨hlen, hrest⟩ := append_inj h ((length_leBytes 8 _).trans (length_leBytes 8 _).symm)
  have hsame : (bytes a).length = (bytes b).length := by
    have := congrArg UInt64.toNat (putUint64_inj hlen)
    rwa [UInt64.toNat_ofNat_of_lt' (hsize a ha), UInt64.toNat_ofNat_of_lt' (hsize b hb)] at this
  obtain ⟨hbytes, hxy⟩ := append_inj hrest hsame
  exact ⟨hinj a b ha hb hbytes, hxy⟩

theorem Unique.flatMap {enc : α → List UInt8} (h : Unique p enc) (hne : ∀ a, enc a ≠ []) {l l' : List α}
    (hl : ∀ a ∈ l, p a) (hl' : ∀ a ∈ l', p a) (heq : l.flatMap enc = l'.flatMap enc) : l = l' := by
  induction l generalizing l' with
  | nil =>
    cases l' with
    | nil => rfl
    | cons b l' =>
      exact absurd (append_eq_nil_iff.1 heq.symm).1 (hne b)
  | cons a l ih =>
    cases l' with
    | nil =>
      exact absurd (append_eq_nil_iff.1 heq).1 (hne a)
    | cons b l' =>
      obtain ⟨rfl, hrest⟩ := h a b _ _ (hl a mem_cons_self) (hl' b mem_cons_self) heq
      rw [ih (fun c hc => hl c (mem_cons_of_mem _ hc)) (fun c hc => hl' c (mem_cons_of_mem _ hc)) hrest]

end Singlink.Lib.Wire
