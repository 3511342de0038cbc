import Mathlib.Logic.Basic
/-!
# Runs of a labelled transition system

A system starts in any of its initial states and takes labelled steps. `Reach`
is reachability by steps that all meet a condition on the state before the step
and its label, which is how properties that hold only of some runs are stated.
-/

namespace Singlink.Lib

structure System (σ ι : Type) where
  init : σ → Prop
  step : σ → ι → σ → Prop

variable {σ ι : Type}

/-- The states reached by steps that meet `ok`. -/
inductive Reach (S : System σ ι) (ok : σ → ι → Prop) : σ → Prop
  | init {s : σ} : S.init s → Reach S ok s
  | step {s s' : σ} {i : ι} : Reach S ok s → ok s i → S.step s i s' → Reach S ok s'

variable {ok : σ → ι → Prop} {s : σ} {init : σ → Prop}

theorem Reach.inv {S : System σ ι} (I : σ → Prop) (h0 : ∀ s, S.init s → I s)
    (hstep : ∀ s i s', I s → ok s i → S.step s i s' → I s') (h : Reach S ok s) : I s := by
  induction h with
  | init h => exact h0 _ h
  | step _ hok hs ih => exact hstep _ _ _ ih hok hs

theorem Reach.mono {S : System σ ι} {ok' : σ → ι → Prop} (hok : ∀ s i, ok s i → ok' s i)
    (h : Reach S ok s) : Reach S ok' s := by
  induction h with
  | init h => exact .init h
  | step _ h hs ih => exact .step ih (hok _ _ h) hs

/-! ## Systems that compute their steps -/

def System.ofStep (init : σ → Prop) (step : σ → ι → σ) : System σ ι where
  init := init
  step s i s' := s' = step s i

/-- The steps of a list all meet `ok`, each in the state it is taken in. -/
def Allowed (step : σ → ι → σ) (ok : σ → ι → Prop) : σ → List ι → Prop
  | _, [] => True
  | s, i :: is => ok s i ∧ Allowed step ok (step s i) is

theorem Reach.foldl {step : σ → ι → σ}
    (hs : Reach (.ofStep init step) ok s) (is : List ι) (his : Allowed step ok s is) :
    Reach (.ofStep init step) ok (is.foldl step s) := by
  induction is generalizing s with
  | nil => exact hs
  | cons i is ih => exact ih (.step hs his.1 rfl) his.2

/-! ## Systems whose steps may fail -/

/-- The system of a step function that need not have a result. -/
def System.ofPartial (init : σ → Prop) (step : σ → ι → Option σ) : System σ ι where
  init := init
  step s i s' := step s i = some s'

/-- The steps of a list lead from one state to another, and all meet `ok`. -/
def Leads (step : σ → ι → Option σ) (ok : σ → ι → Prop) : σ → List ι → σ → Prop
  | s, [], t => s = t
  | s, i :: is, t => ok s i ∧ ∃ s', step s i = some s' ∧ Leads step ok s' is t

variable {step : σ → ι → Option σ}

theorem Reach.leads {t : σ} (hs : Reach (.ofPartial init step) ok s) (is : List ι) (his : Leads step ok s is t) :
    Reach (.ofPartial init step) ok t := by
  induction is generalizing s with
  | nil => exact his ▸ hs
  | cons i is ih =>
    obtain ⟨hok, s', hstep, hrest⟩ := his
    exact ih (.step hs hok hstep) hrest

theorem Reach.foldl_getD (hs : Reach (.ofPartial init step) ok s) (is : List ι)
    (his : Allowed (fun s i => (step s i).getD s) (fun s i => ok s i ∧ (step s i).isSome = true) s is) :
    Reach (.ofPartial init step) ok (is.foldl (fun s i => (step s i).getD s) s) := by
  induction is generalizing s with
  | nil => exact hs
  | cons i is ih =>
    obtain ⟨⟨hok, hsome⟩, hrest⟩ := his
    refine ih (.step hs hok ?_) hrest
    change step s i = some ((step s i).getD s)
    cases hstep : step s i with
    | none =>
      rw [hstep] at hsome
      cases hsome
    | some s' => rfl

end Singlink.Lib
