import Mathlib.Logic.Function.Iterate
import Singlink.Lib.GoMap
/-!
# Who depends on a tag

`dependByTag`, as the managers of outbounds and of DNS transports keep it: for
every tag, the tags of those that depend on it, once for each time they name it.
An entry that names a tag twice is forgotten twice, and the second time another
entry may be the only one left.
-/

namespace Singlink.Adapter

open Lib List Function GoMap

abbrev DependByTag := GoMap String (List String)

namespace DependByTag

/-- `dependByTag[tag]`. -/
def dependents (m : DependByTag) (tag : String) : List String := GoMap.get m tag []

/-- The loop of `Create` over the dependencies of the new entry. -/
def add (m : DependByTag) (tag : String) (dependencies : List String) : DependByTag :=
  dependencies.foldl (fun m dependency => m.insert dependency (m.dependents dependency ++ [tag])) m

/-- The loop over the dependencies of an entry that is removed. -/
def remove (m : DependByTag) (tag : String) (dependencies : List String) : DependByTag :=
  dependencies.foldl (fun m dependency =>
    if (m.dependents dependency).length = 1 then m.erase dependency
    else m.insert dependency ((m.dependents dependency).filter (· ≠ tag))) m

/-! ## What is left of a list -/

variable (m : DependByTag)

variable (tag : String)

theorem dependents_add (dependencies : List String) (d : String) :
    (m.add tag dependencies).dependents d = m.dependents d ++ replicate (dependencies.count d) tag := by
  induction dependencies generalizing m with
  | nil => simp [add]
  | cons dependency dependencies ih =>
    have hcons : m.add tag (dependency :: dependencies) =
        DependByTag.add (m.insert dependency (m.dependents dependency ++ [tag])) tag dependencies := rfl
    rw [hcons, ih, dependents, get_insert, count_cons]
    by_cases hd : d = dependency
    · subst hd
      simp [replicate_succ, dependents]
    · rw [if_neg hd, if_neg (by simpa using fun h => hd h.symm)]
      rfl

/-- One visit of `remove`, on the list of the tag it visits. -/
def forget (tag : String) (l : List String) : List String := if l.length = 1 then [] else l.filter (· ≠ tag)

theorem dependents_visit (tag dependency d : String) :
    dependents (if (m.dependents dependency).length = 1 then m.erase dependency
      else m.insert dependency ((m.dependents dependency).filter (· ≠ tag))) d =
      if d = dependency then forget tag (m.dependents d) else m.dependents d := by
  by_cases hd : d = dependency
  · subst hd
    rw [if_pos rfl, forget]
    split
    · rw [dependents, get_erase, if_pos rfl]
    · rw [dependents, get_insert, if_pos rfl]
  · split
    · rw [dependents, get_erase, if_neg hd]
      rfl
    · rw [dependents, get_insert, if_neg hd]
      rfl

theorem dependents_remove (dependencies : List String) (d : String) :
    (m.remove tag dependencies).dependents d = (forget tag)^[dependencies.count d] (m.dependents d) := by
  induction dependencies generalizing m with
  | nil => rfl
  | cons dependency dependencies ih =>
    have hcons : m.remove tag (dependency :: dependencies) = DependByTag.remove
        (if (m.dependents dependency).length = 1 then m.erase dependency
          else m.insert dependency ((m.dependents dependency).filter (· ≠ tag))) tag dependencies := rfl
    rw [hcons, ih, dependents_visit]
    by_cases hd : d = dependency
    · subst hd
      rw [if_pos rfl, count_cons_self, iterate_succ_apply]
    · rw [if_neg hd, count_cons_of_ne fun h => hd h.symm]

/-- Visits as many times as the tag is in the list remove it and nothing else,
unless there are two or more and one other entry is left. -/
theorem forget_iterate {l : List String} (h : 2 ≤ l.count tag → (l.filter (· ≠ tag)).length ≠ 1) :
    (forget tag)^[l.count tag] l = l.filter (· ≠ tag) := by
  rcases hcount : l.count tag with _ | _ | n
  · refine (filter_eq_self.2 fun a ha => ?_).symm
    have hne : a ≠ tag := by
      rintro rfl
      exact count_eq_zero.1 hcount ha
    simpa using hne
  · show forget tag l = _
    unfold forget
    split
    · -- the tag is all there is
      rename_i hlength
      obtain ⟨a, rfl⟩ := length_eq_one_iff.1 hlength
      have ha : a = tag := by
        by_contra hne
        simp [hne] at hcount
      simp [ha]
    · rfl
  · have hlong : l.length ≠ 1 := by
      have hle := count_le_length (a := tag) (l := l)
      omega
    have hfirst : forget tag l = l.filter (· ≠ tag) := if_neg hlong
    have hfixed : forget tag (l.filter (· ≠ tag)) = l.filter (· ≠ tag) := by
      rw [forget, if_neg (h (by omega))]
      simp
    rw [iterate_succ_apply, hfirst, iterate_fixed hfixed]

/-! ## What the map records -/

/-- The map has every tag once for each time its entry names a dependency;
`dependencies` are those of the entry with a tag, if there is one. -/
def Records (m : DependByTag) (dependencies : String → List String) : Prop :=
  ∀ d tag, (m.dependents d).count tag = (dependencies tag).count d

/-- Forgetting the entry forgets no other. -/
def KeepsOthers (m : DependByTag) (tag : String) (dependencies : List String) : Prop :=
  ∀ d, 2 ≤ dependencies.count d → ((m.dependents d).filter (· ≠ tag)).length ≠ 1

theorem KeepsOthers.of_nodup {dependencies : List String} (h : dependencies.Nodup) :
    m.KeepsOthers tag dependencies := by
  intro d hd
  have hle := nodup_iff_count_le_one.1 h d
  omega

variable {m : DependByTag} {dependencies : String → List String}

theorem records_empty : Records ∅ fun _ => [] := by
  intro d tag
  simp [dependents, GoMap.get]

theorem Records.add (h : m.Records dependencies) {tag : String} (htag : dependencies tag = []) (ds : List String) :
    (m.add tag ds).Records (update dependencies tag ds) := by
  intro d tag'
  rw [dependents_add, count_append, h]
  by_cases heq : tag' = tag
  · subst heq
    rw [update_self, htag, count_nil, zero_add, count_replicate_self]
  · rw [update_of_ne heq, count_replicate, if_neg (by simpa using fun h => heq h.symm), add_zero]

theorem Records.remove (h : m.Records dependencies) {tag : String} (hkeeps : m.KeepsOthers tag (dependencies tag)) :
    (m.remove tag (dependencies tag)).Records (update dependencies tag []) := by
  intro d tag'
  have hforget := forget_iterate tag (by rw [h]; exact hkeeps d)
  rw [h] at hforget
  rw [dependents_remove, hforget]
  by_cases heq : tag' = tag
  · subst heq
    rw [update_self, count_nil, count_eq_zero]
    simp
  · rw [update_of_ne heq, ← h, count_filter (by simpa using heq)]

theorem Records.dependents_ne_nil (h : m.Records dependencies) (d : String) :
    m.dependents d ≠ [] ↔ ∃ tag, d ∈ dependencies tag := by
  have hmem : ∀ tag, tag ∈ m.dependents d ↔ d ∈ dependencies tag := by
    intro tag
    rw [← count_pos_iff, ← count_pos_iff, h]
  constructor
  · intro hne
    obtain ⟨tag, htag⟩ := exists_mem_of_ne_nil _ hne
    exact ⟨tag, (hmem tag).1 htag⟩
  · rintro ⟨tag, htag⟩
    exact ne_nil_of_mem ((hmem tag).2 htag)

end DependByTag

end Singlink.Adapter
