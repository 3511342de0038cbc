import Mathlib.Data.List.Induction
import Mathlib.Data.List.ReduceOption
import Mathlib.Logic.Function.Basic
/-!
# Connections with buffered parts

What has been read from a connection ahead of time is put back by wrapping the
connection: a wrapper yields its buffer first and then what it wraps. `Cached`
is such a stack of wrappers over what is still to come, for streams of bytes
and for packets alike. Wrapping one buffer after the other puts the last one in
front (`readAll_wrap`).

Buffers may be kept in cells that several references share, and a cell may be
emptied when it is taken (`takeCells`).
-/

namespace Singlink.Lib

open List

variable {α : Type}

/-! ## Wrappers -/

inductive Cached (α : Type) where
  | bare (rest : List α)
  | cached (front : List α) (inner : Cached α)

namespace Cached

def readAll : Cached α → List α
  | bare rest => rest
  | cached front inner => front ++ inner.readAll

/-- The connection wrapped with each of the buffers in turn. -/
def wrap (c : Cached α) (buffers : List (List α)) : Cached α := buffers.foldl (fun c buffer => cached buffer c) c

theorem readAll_wrap (c : Cached α) (buffers : List (List α)) :
    (c.wrap buffers).readAll = buffers.reverse.flatten ++ c.readAll := by
  induction buffers generalizing c with
  | nil => rfl
  | cons buffer buffers ih =>
    calc (c.wrap (buffer :: buffers)).readAll
        = buffers.reverse.flatten ++ (cached buffer c).readAll := ih _
      _ = buffers.reverse.flatten ++ (buffer ++ c.readAll) := rfl
      _ = (buffer :: buffers).reverse.flatten ++ c.readAll := by simp

end Cached

/-! ## What a reader has taken -/

/-- The part of `before` that is gone when `after` is left. -/
def consumed (before after : List α) : List α := before.take (before.length - after.length)

theorem consumed_append (front rest : List α) : consumed (front ++ rest) rest = front := by
  simp [consumed]

@[simp] theorem consumed_self (l : List α) : consumed l l = [] := by
  simp [consumed]

/-! ## Shared cells -/

/-- What the references find when they are followed in order; with `clears` a
cell is empty once it has been taken. -/
def takeCells (clears : Bool) (cells : Nat → Option α) : List Nat → List (Option α)
  | [] => []
  | i :: is => cells i :: takeCells clears (if clears then Function.update cells i none else cells) is

@[simp] theorem length_takeCells (clears : Bool) (cells : Nat → Option α) (refs : List Nat) :
    (takeCells clears cells refs).length = refs.length := by
  induction refs generalizing cells with
  | nil => rfl
  | cons i is ih => exact congrArg (· + 1) (ih _)

variable (cells : Nat → Option α)

theorem takeCells_false (refs : List Nat) : takeCells false cells refs = refs.map cells := by
  induction refs with
  | nil => rfl
  | cons i is ih => exact congrArg (cells i :: ·) ih

theorem takeCells_of_nodup (clears : Bool) (cells : Nat → Option α) {refs : List Nat} (h : refs.Nodup) :
    takeCells clears cells refs = refs.map cells := by
  induction refs generalizing cells with
  | nil => rfl
  | cons i is ih =>
    obtain ⟨hi, his⟩ := nodup_cons.1 h
    rw [takeCells, ih _ his]
    congr 1
    cases clears with
    | false => rfl
    | true =>
      apply map_congr_left
      intro j hj
      have hne : j ≠ i := fun heq => hi (heq ▸ hj)
      simp [hne]

theorem takeCells_true_append (xs ys : List Nat) : takeCells true cells (xs ++ ys)
      = takeCells true cells xs ++ takeCells true (fun i => if i ∈ xs then none else cells i) ys := by
  induction xs generalizing cells with
  | nil => simp [takeCells]
  | cons x xs ih =>
    rw [cons_append, takeCells, takeCells, ih]
    congr 3
    funext i
    by_cases hix : i = x <;> simp [hix, Function.update]

/-- When cells are emptied, each is found by the first reference to it. -/
theorem reduceOption_takeCells_true (refs : List Nat) :
    (takeCells true cells refs).reduceOption = (refs.eraseDups.map cells).reduceOption := by
  induction refs using reverseRecOn with
  | nil => rfl
  | append_singleton refs i ih =>
    rw [takeCells_true_append, reduceOption_append, ih, eraseDups_append, map_append,
      reduceOption_append]
    by_cases hi : i ∈ refs <;> simp [hi, takeCells, removeAll, eraseDups_cons]

theorem reduceOption_map_some (l : List α) : (l.map some).reduceOption = l := by
  rw [reduceOption, filterMap_map]
  exact filterMap_some

/-! ## References in order of age -/

theorem range_append_range' (n k : Nat) : range n ++ range' n k = range (n + k) := by
  rw [range_eq_range', range_eq_range', ← range'_append_1, Nat.zero_add]

theorem eraseDups_of_nodup {l : List Nat} (h : l.Nodup) : l.eraseDups = l := by
  induction l with
  | nil => rfl
  | cons i is ih =>
    obtain ⟨hi, his⟩ := nodup_cons.1 h
    have hkept : is.filter (fun j => !j == i) = is := by
      apply filter_eq_self.2
      intro j hj
      have hne : j ≠ i := fun heq => hi (heq ▸ hj)
      simpa using hne
    rw [eraseDups_cons, hkept, ih his]

/-- References to the cells below `n`, all of them again, and then the next `k`:
each cell is still met first in the order of its age. -/
theorem eraseDups_repeat {refs : List Nat} {n : Nat} (h : refs.eraseDups = range n) (k : Nat) :
    (refs ++ (refs ++ range' n k)).eraseDups = range (n + k) := by
  have hmem : ∀ i, i ∈ refs ↔ i < n := by
    intro i
    rw [← mem_eraseDups, h, mem_range]
  have hnew : (refs ++ range' n k).removeAll refs = range' n k := by
    have hold : refs.removeAll refs = [] := filter_eq_nil_iff.2 fun i hi => by simp [hi]
    have hfresh : (range' n k).removeAll refs = range' n k := by
      apply filter_eq_self.2
      intro i hi
      have hle : n ≤ i := (mem_range'_1.1 hi).1
      have hnot : i ∉ refs := fun hin => by have := (hmem i).1 hin; omega
      simpa using hnot
    calc (refs ++ range' n k).removeAll refs
        = refs.removeAll refs ++ (range' n k).removeAll refs := filter_append ..
      _ = range' n k := by rw [hold, hfresh, nil_append]
  rw [eraseDups_append, h, hnew, eraseDups_of_nodup nodup_range', range_append_range']

theorem map_getElem?_range (l : List α) : (range l.length).map (l[·]?) = l.map some := by
  apply ext_getElem
  · simp
  · intro i h₁ h₂
    simp

end Singlink.Lib
