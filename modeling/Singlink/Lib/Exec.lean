import Mathlib.Data.List.Basic
/-!
# Computations that may panic or not end

What a function does with some amount of fuel: it is done, it has panicked, or
it is still running. The operations on slices check their bounds and panic, as
they do in Go.
-/

namespace Singlink.Lib

inductive Exec (α : Type) where
  | done (a : α)
  | panic
  | running
  deriving DecidableEq

namespace Exec

variable {α β : Type}

def bind (x : Exec α) (f : α → Exec β) : Exec β :=
  match x with
  | done a => f a
  | panic => panic
  | running => running

instance : Monad Exec where
  pure := done
  bind := bind

@[simp] theorem pure_eq (a : α) : (pure a : Exec α) = done a := rfl

@[simp] theorem done_bind (a : α) (f : α → Exec β) : (done a >>= f) = f a := rfl

@[simp] theorem panic_bind (f : α → Exec β) : (panic >>= f) = panic := rfl

@[simp] theorem running_bind (f : α → Exec β) : (running >>= f) = running := rfl

theorem bind_of_done {x : Exec α} {a : α} {f : α → Exec β} {y : Exec β} (hx : x = done a) (h : f a = y) :
    (x >>= f) = y := by
  rw [hx]
  exact h

theorem ite_of_not {c : Prop} [Decidable c] {x y z : Exec α} (hc : ¬c) (h : y = z) : (if c then x else y) = z := by
  rw [if_neg hc, h]

/-! ## Slices -/

/-- `b[i]` -/
def index (b : List α) (i : Nat) : Exec α :=
  match b[i]? with
  | some a => done a
  | none => panic

/-- `b[i:]` -/
def sliceFrom (b : List α) (i : Nat) : Exec (List α) := if i ≤ b.length then done (b.drop i) else panic

/-- `b[i:j]` -/
def slice (b : List α) (i j : Nat) : Exec (List α) :=
  if i ≤ j ∧ j ≤ b.length then done ((b.take j).drop i) else panic

variable {b : List α} {i : Nat}

theorem index_of_lt (h : i < b.length) (d : α) : index b i = done (b.getD i d) := by
  simp [index, h]

theorem sliceFrom_of_le (h : i ≤ b.length) : sliceFrom b i = done (b.drop i) := if_pos h

theorem slice_of_le {j : Nat} (h : i ≤ j) (h' : j ≤ b.length) : slice b i j = done ((b.take j).drop i) :=
  if_pos ⟨h, h'⟩

/-- The element after the first part of a slice. -/
theorem index_append {a rest : List α} {x : α} (h : i = a.length) : index (a ++ x :: rest) i = done x := by
  subst h
  simp [index]

/-- What follows the first part of a slice. -/
theorem sliceFrom_append {a rest : List α} (h : i = a.length) : sliceFrom (a ++ rest) i = done rest := by
  subst h
  rw [sliceFrom_of_le (by simp), List.drop_left]

end Exec
end Singlink.Lib
