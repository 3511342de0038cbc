import Mathlib.Data.List.Basic
/-!
# Start stages and how calls end

`adapter/lifecycle.go`, as the managers of inbounds, outbounds and DNS transports
use it. What is started or closed decides for itself whether that fails, so
outcomes are arguments; `E` is the type of the errors that come from there.
-/

namespace Singlink.Adapter

inductive StartStage where
  | stateInitialize
  | stateStart
  | statePostStart
  | stateStarted
  deriving DecidableEq

def StartStage.toNat : StartStage → Nat
  | .stateInitialize => 0
  | .stateStart => 1
  | .statePostStart => 2
  | .stateStarted => 3

def listStartStages : List StartStage := [.stateInitialize, .stateStart, .statePostStart, .stateStarted]

variable {A E M : Type}

/-- `LegacyStart` of all stages in turn, up to the first that fails. -/
def startStages (start : StartStage → Option E) : Option (StartStage × E) :=
  listStartStages.findSome? fun stage => (start stage).map (stage, ·)

/-- How the calls end that `Create` of a manager makes: of the registry, of the stages
of the new entry, and of `Close` of the new entry and of the one it replaces. -/
structure CreateOutcome (E : Type) where
  registry : Option E := none
  start : StartStage → Option E := fun _ => none
  close : Option E := none
  closeExists : Option E := none

/-- One stage of many in turn, up to the first that fails. -/
def startEach (start : A → Option E) (entries : List A) : Option (A × E) :=
  entries.findSome? fun entry => (start entry).map (entry, ·)

/-- What `Close` returns of each, as far as it is an error. -/
def closeErrors (close : A → Option E) (entries : List A) : List (A × E) :=
  entries.filterMap fun entry => (close entry).map (entry, ·)

/-- Those that `Close` has returned no error of. -/
def closedOf (close : A → Option E) (entries : List A) : List A := entries.filter fun entry => (close entry).isNone

/-- How a call ends: it returns, with an error or without, or it panics. -/
inductive Result (E M : Type) where
  | panic (message : String)
  | returned (err : Option E) (m : M)

/-- The state after a call that returns. -/
def Result.after? : Result E M → Option M
  | .panic _ => none
  | .returned _ m => some m

/-- The call returns such that `P` holds; it only panics if a stage is started
again. -/
def Result.Ends (r : Result E M) (P : Option E → M → Prop) : Prop :=
  match r with
  | .panic message => message = "already started"
  | .returned err m => P err m

variable {P : Option E → M → Prop}

theorem Result.Ends.mono {r : Result E M} {Q : Option E → M → Prop} (h : r.Ends P) (hPQ : ∀ err m, P err m → Q err m) :
    r.Ends Q := by
  cases r with
  | panic message => exact h
  | returned err m => exact hPQ err m h

theorem Result.Ends.of_after {r : Result E M} (h : r.Ends P) {m : M} (hm : r.after? = some m) : ∃ err, P err m := by
  cases r with
  | panic message => cases hm
  | returned err m' =>
    cases hm
    exact ⟨err, h⟩

theorem Result.Ends.of_returned {r : Result E M} (h : r.Ends P) {err : Option E} {m : M} (hr : r = .returned err m) :
    P err m := by
  rw [hr] at h
  exact h

theorem Result.Ends.not_panic {message : String}
    (h : (Result.panic message : Result E M).Ends P) : message = "already started" := h

end Singlink.Adapter
