import Singlink.Lib.GoMap
/-!
# A list and a map of the same entries

Entries that are kept in a list for their order and in a map by their key. The
lemmas are about the updates that keep the two in step: an entry is added to
both, removed from both, or takes the place of the one with its key.
-/

namespace Singlink.Lib

open GoMap

variable {A K : Type} [DecidableEq K]

/-- The list has no entry twice, and the map has exactly its entries, each under
its key. -/
structure Indexed (key : A → K) (list : List A) (map : GoMap K A) : Prop where
  nodup : list.Nodup
  lookup : ∀ k a, map.lookup k = some a ↔ a ∈ list ∧ key a = k

namespace Indexed

variable {key : A → K} {list : List A} {map : GoMap K A}

theorem empty (key : A → K) : Indexed key [] (∅ : GoMap K A) where
  nodup := List.nodup_nil
  lookup k a := by simp

variable {a : A} {k : K}

section

variable (h : Indexed key list map)

include h

theorem lookup_of_mem (ha : a ∈ list) : map.lookup (key a) = some a :=
  (h.lookup (key a) a).2 ⟨ha, rfl⟩

theorem mem_of_lookup (ha : map.lookup k = some a) : a ∈ list :=
  ((h.lookup k a).1 ha).1

theorem key_of_lookup (ha : map.lookup k = some a) : key a = k :=
  ((h.lookup k a).1 ha).2

theorem eq_of_key {b : A} (ha : a ∈ list) (hb : b ∈ list) (hkey : key a = key b) : a = b := by
  have hlookup := h.lookup_of_mem ha
  rw [hkey, h.lookup_of_mem hb] at hlookup
  exact (Option.some.inj hlookup).symm

theorem key_ne (hk : map.lookup k = none) (ha : a ∈ list) : key a ≠ k := by
  rintro rfl
  rw [h.lookup_of_mem ha] at hk
  cases hk

theorem lookup_eq_none (hempty : list = []) (k : K) : map.lookup k = none := by
  cases hlookup : map.lookup k with
  | none => rfl
  | some a =>
    have hmem := h.mem_of_lookup hlookup
    rw [hempty] at hmem
    cases hmem

theorem append (ha : map.lookup (key a) = none) : Indexed key (list ++ [a]) (map.insert (key a) a) where
  nodup := by
    refine h.nodup.append (List.nodup_singleton a) (List.disjoint_singleton.2 fun hmem => ?_)
    exact h.key_ne ha hmem rfl
  lookup k b := by
    rw [lookup_insert_eq, List.mem_append, List.mem_singleton]
    split
    · rename_i hk
      subst hk
      constructor
      · intro hb
        cases hb
        exact ⟨.inr rfl, rfl⟩
      · rintro ⟨hmem | rfl, hkey⟩
        · exact absurd hkey (h.key_ne ha hmem)
        · rfl
    · rename_i hk
      rw [h.lookup]
      constructor
      · rintro ⟨hmem, hkey⟩
        exact ⟨.inl hmem, hkey⟩
      · rintro ⟨hmem | rfl, hkey⟩
        · exact ⟨hmem, hkey⟩
        · exact absurd hkey.symm hk

end

variable [DecidableEq A]

theorem erase (h : Indexed key list map) (ha : map.lookup k = some a) : Indexed key (list.erase a) (map.erase k) where
  nodup := h.nodup.erase a
  lookup k' b := by
    rw [lookup_erase_eq, h.nodup.mem_erase_iff]
    split
    · rename_i hk
      constructor
      · intro hb
        cases hb
      · rintro ⟨⟨hne, hmem⟩, hkey⟩
        refine absurd (h.eq_of_key hmem (h.mem_of_lookup ha) ?_) hne
        rw [hkey, hk, h.key_of_lookup ha]
    · rename_i hk
      rw [h.lookup]
      constructor
      · rintro ⟨hmem, hkey⟩
        refine ⟨⟨?_, hmem⟩, hkey⟩
        rintro rfl
        exact hk (hkey.symm.trans (h.key_of_lookup ha))
      · rintro ⟨⟨-, hmem⟩, hkey⟩
        exact ⟨hmem, hkey⟩

theorem replace (h : Indexed key list map) {b : A} (ha : map.lookup (key b) = some a) :
    Indexed key (list.erase a ++ [b]) (map.insert (key b) b) := by
  rw [← insert_erase]
  exact (h.erase ha).append (by rw [lookup_erase_eq, if_pos rfl])

end Indexed

end Singlink.Lib
