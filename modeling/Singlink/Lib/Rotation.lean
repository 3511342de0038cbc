import Mathlib.Data.List.Nodup
/-!
# Slots taken in turn

`n` slots are handed out one after another, from the first again after the last. A
log of what was handed out has its latest entry first.
-/

namespace Singlink.Lib

open List

variable {A D : Type} {n : Nat} {slot : Nat → A} {log : List (D × A)}

/-- Each entry of the log has the slot whose turn it was. -/
def InTurn (n : Nat) (slot : Nat → A) : List (D × A) → Prop
  | [] => True
  | entry :: log => entry.2 = slot (log.length % n) ∧ InTurn n slot log

namespace InTurn

theorem getElem (h : InTurn n slot log) (i : Nat) (hi : i < log.length) :
    log[i].2 = slot ((log.length - 1 - i) % n) := by
  induction log generalizing i with
  | nil => exact absurd hi (Nat.not_lt_zero i)
  | cons entry log ih =>
    cases i with
    | zero => exact h.1
    | succ i =>
      have hi : i < log.length := Nat.lt_of_succ_lt_succ hi
      rw [getElem_cons_succ, ih h.2 i hi, length_cons]
      congr 2
      omega

theorem exists_slot (h : InTurn n slot log) (hn : 0 < n) {entry : D × A} (hentry : entry ∈ log) :
    ∃ i < n, entry.2 = slot i := by
  obtain ⟨i, hi, rfl⟩ := getElem_of_mem hentry
  exact ⟨_, Nat.mod_lt _ hn, h.getElem i hi⟩

theorem nodup_take (h : InTurn n slot log) (hslot : ∀ i < n, ∀ j < n, slot i = slot j → i = j) :
    ((log.take n).map Prod.snd).Nodup := by
  rw [nodup_iff_pairwise_ne, pairwise_iff_getElem]
  intro i j hi hj hij heq
  simp only [length_map, length_take] at hi hj
  simp only [getElem_map, getElem_take] at heq
  have hn : 0 < n := by omega
  rw [h.getElem i (by omega), h.getElem j (by omega)] at heq
  have hmod := hslot _ (Nat.mod_lt _ hn) _ (Nat.mod_lt _ hn) heq
  -- turns less than a round apart are different
  have hdiff := Nat.sub_mod_eq_zero_of_mod_eq hmod
  rw [Nat.mod_eq_of_lt (by omega)] at hdiff
  omega

end InTurn

theorem find?_of_mem_take [DecidableEq A] {entry : D × A} (hnodup : ((log.take n).map Prod.snd).Nodup)
    (hentry : entry ∈ log.take n) : log.find? (fun e => e.2 = entry.2) = some entry := by
  obtain ⟨i, hi, rfl⟩ := getElem_of_mem hentry
  have hlen : i < n ∧ i < log.length := Nat.lt_min.1 (length_take ▸ hi)
  rw [getElem_take, find?_eq_some_iff_getElem]
  refine ⟨by simp, i, hlen.2, rfl, fun j hj => ?_⟩
  have hne := (pairwise_iff_getElem.1 hnodup) j i (by simp; omega) (by simp; omega) hj
  simpa using hne

end Singlink.Lib
