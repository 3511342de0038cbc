import Singlink.Lib.Runs
import Mathlib.Logic.Hydra
import Mathlib.Tactic.Abel
/-!
# Programs of atomic actions

A thread of the source is a program of atomic actions on a shared state: a
critical section, or one access outside of any lock. What an action reads
decides how the program goes on. `run` executes a program alone; `pool` lets
any number of programs take their actions in any order.

`Triple` gives the rules of pre- and postconditions for programs that run
alone, and `Each` the rule for what every single action keeps, which is all
one can say when others interfere.
-/

namespace Singlink.Lib

open List

/-- `act f k` changes the state by `f` and goes on as `k` says for the state
before. -/
inductive Prog (σ α : Type) where
  | ret (a : α)
  | act (f : σ → σ) (k : σ → Prog σ α)

namespace Prog

variable {σ α β : Type}

def bind : Prog σ α → (α → Prog σ β) → Prog σ β
  | ret a, g => g a
  | act f k, g => act f fun s => (k s).bind g

instance : Monad (Prog σ) where
  pure := ret
  bind := bind

/-- One atomic action with a result. -/
def atomic (g : σ → α × σ) : Prog σ α := act (fun s => (g s).2) fun s => ret (g s).1

def modify (f : σ → σ) : Prog σ Unit := act f fun _ => ret ()

def read (f : σ → α) : Prog σ α := act id fun s => ret (f s)

/-- A program that is run only under a condition. -/
def when (cond : Bool) (p : Prog σ Unit) : Prog σ Unit := if cond then p else pure ()

/-- Two programs at once, which act in the order of a schedule: the first at
`true`. When the schedule is over, what is left of the first runs before what is
left of the second. -/
def par : List Bool → Prog σ α → Prog σ β → Prog σ (α × β)
  | true :: schedule, act f k, q => act f fun s => par schedule (k s) q
  | false :: schedule, p, act f k => act f fun s => par schedule p (k s)
  | _, p, q => p.bind fun a => q.bind fun b => ret (a, b)

/-! ## Alone -/

def run : Prog σ α → σ → α × σ
  | ret a, s => (a, s)
  | act f k, s => (k s).run (f s)

@[simp] theorem run_pure (a : α) (s : σ) : (pure a : Prog σ α).run s = (a, s) := rfl

@[simp] theorem run_atomic (g : σ → α × σ) (s : σ) : (atomic g).run s = g s := rfl

@[simp] theorem run_modify (f : σ → σ) (s : σ) : (modify f).run s = ((), f s) := rfl

@[simp] theorem run_read (f : σ → α) (s : σ) : (read f).run s = (f s, s) := rfl

@[simp] theorem run_when (cond : Bool) (p : Prog σ Unit) (s : σ) :
    (when cond p).run s = if cond then p.run s else ((), s) := by
  cases cond with
  | true => rfl
  | false => rfl

@[simp] theorem run_bind (p : Prog σ α) (g : α → Prog σ β) (s : σ) : (p >>= g).run s = (g (p.run s).1).run (p.run s).2 := by
  induction p generalizing s with
  | ret a => rfl
  | act f k ih => exact ih s (f s)

/-- `p` run alone from a state that meets `P` ends with a result and a state
that meet `Q`. -/
def Triple (P : σ → Prop) (p : Prog σ α) (Q : α → σ → Prop) : Prop := ∀ s, P s → Q (p.run s).1 (p.run s).2

variable {Q : α → σ → Prop} {P : σ → Prop}

theorem Triple.pure {a : α} (h : ∀ s, P s → Q a s) :
    Triple P (Pure.pure a : Prog σ α) Q := h

variable {g : α → Prog σ β} {p : Prog σ α}

theorem Triple.bind {T : β → σ → Prop}
    (hp : Triple P p Q) (hg : ∀ a, Triple (Q a) (g a) T) : Triple P (p >>= g) T := by
  intro s hs
  rw [run_bind]
  exact hg _ _ (hp s hs)

theorem Triple.atomic {g : σ → α × σ} (h : ∀ s, P s → Q (g s).1 (g s).2) :
    Triple P (atomic g) Q := h

theorem Triple.modify {Q : Unit → σ → Prop} {f : σ → σ} (h : ∀ s, P s → Q () (f s)) :
    Triple P (modify f) Q := h

theorem Triple.read {f : σ → α} (h : ∀ s, P s → Q (f s) s) :
    Triple P (read f) Q := h

theorem Triple.conseq {P P' : σ → Prop} {Q Q' : α → σ → Prop} (h : Triple P p Q)
    (hP : ∀ s, P' s → P s) (hQ : ∀ a s, Q a s → Q' a s) : Triple P' p Q' :=
  fun s hs => hQ _ _ (h s (hP s hs))

theorem Triple.given {φ : Prop} (h : φ → Triple P p Q) : Triple (fun s => φ ∧ P s) p Q :=
  fun s hs => h hs.1 s hs.2

/-- `p` run alone keeps `I`. -/
abbrev Stays (I : σ → Prop) (p : Prog σ α) : Prop := Triple I p fun _ => I

variable {I : σ → Prop}

theorem Stays.pure (a : α) : Stays I (Pure.pure a : Prog σ α) := fun _ h => h

theorem Stays.bind (hp : Stays I p) (hg : ∀ a, Stays I (g a)) : Stays I (p >>= g) :=
  Triple.bind hp hg

theorem Stays.read (f : σ → α) : Stays I (read f) := fun _ h => h

/-! ## With others -/

/-- Every action the program can come to meets `P`. -/
def Each (P : (σ → σ) → Prop) : Prog σ α → Prop
  | ret _ => True
  | act f k => P f ∧ ∀ s, (k s).Each P

variable {P : (σ → σ) → Prop}

theorem Each.pure (a : α) : (Pure.pure a : Prog σ α).Each P := trivial

theorem Each.bind (hp : p.Each P) (hg : ∀ a, (g a).Each P) : (p >>= g).Each P := by
  induction p with
  | ret a => exact hg a
  | act f k ih => exact ⟨hp.1, fun s => ih s (hp.2 s)⟩

theorem Each.atomic {g : σ → α × σ} (h : P fun s => (g s).2) : (atomic g).Each P :=
  ⟨h, fun _ => trivial⟩

theorem Each.modify {f : σ → σ} (h : P f) : (modify f).Each P := ⟨h, fun _ => trivial⟩

theorem Each.read (h : P id) (f : σ → α) : (read f).Each P := ⟨h, fun _ => trivial⟩

theorem Each.stays {p : Prog σ α} (h : p.Each fun f => ∀ s, I s → I (f s)) : Stays I p := by
  induction p with
  | ret a => exact fun _ hs => hs
  | act f k ih => exact fun s hs => ih s (h.2 s) (f s) (h.1 s hs)

/-- Programs that share a state. A step is one action of one of them, or a new
program that `spawn` allows. -/
structure Pool (σ : Type) where
  shared : σ
  threads : List (Prog σ Unit)

inductive Pool.Step (spawn : Prog σ Unit → Prop) : Pool σ → Pool σ → Prop
  | act {s : σ} {before after : List (Prog σ Unit)} {f : σ → σ} {k : σ → Prog σ Unit} :
      Step spawn { shared := s, threads := before ++ act f k :: after }
        { shared := f s, threads := before ++ k s :: after }
  | spawn {pool : Pool σ} {p : Prog σ Unit} : spawn p → Step spawn pool { pool with threads := p :: pool.threads }

/-- The pool that starts in one of the states `init` with no program. -/
def pool (init : σ → Prop) (spawn : Prog σ Unit → Prop) : System (Pool σ) Unit where
  init p := init p.shared ∧ p.threads = []
  step p _ p' := Pool.Step spawn p p'

/-- One action of the program at place `i`, if it has one left. -/
def Pool.act (p : Pool σ) (i : Nat) : Pool σ :=
  match p.threads.drop i with
  | .act f k :: after => { shared := f p.shared, threads := p.threads.take i ++ k p.shared :: after }
  | _ => p

variable {ok : Pool σ → Unit → Prop} {spawn : Prog σ Unit → Prop} {init : σ → Prop} {p : Pool σ}

section

variable (hok : ∀ p i, ok p i) (h : Reach (pool init spawn) ok p)

include hok h

theorem Pool.reach_act (i : Nat) : Reach (pool init spawn) ok (p.act i) := by
  obtain ⟨s, threads⟩ := p
  unfold Pool.act
  split
  · rename_i f k after hdrop
    have hthreads : threads = threads.take i ++ .act f k :: after := by
      rw [← hdrop, take_append_drop]
    refine .step h (hok _ ()) ?_
    generalize threads.take i = before at hthreads
    subst hthreads
    exact .act
  · exact h

theorem Pool.reach_spawn {t : Prog σ Unit} (ht : spawn t) :
    Reach (pool init spawn) ok { p with threads := t :: p.threads } :=
  .step h (hok p ()) (.spawn ht)

theorem Pool.reach_acts (is : List Nat) : Reach (pool init spawn) ok (is.foldl Pool.act p) :=
  foldlRecOn is Pool.act h fun _ hq i _ => Pool.reach_act hok hq i

end

/-- An invariant of the state together with what is known of every program: an
action keeps the invariant, what is known of its program, and what is known of
the others. -/
theorem pool_rule (I : σ → Prop)
    (J : Prog σ Unit → σ → Prop) (hinit : ∀ s, init s → I s) (hspawn : ∀ p, spawn p → ∀ s, I s → J p s)
    (hact : ∀ f k s, I s → J (.act f k) s → I (f s) ∧ J (k s) (f s) ∧ ∀ t, J t s → J t (f s))
    (h : Reach (pool init spawn) ok p) : I p.shared ∧ ∀ t ∈ p.threads, J t p.shared := by
  refine Reach.inv (fun p : Pool σ => I p.shared ∧ ∀ t ∈ p.threads, J t p.shared) ?_ ?_ h
  · rintro p ⟨hp, hthreads⟩
    refine ⟨hinit _ hp, fun t ht => ?_⟩
    rw [hthreads] at ht
    cases ht
  · rintro p i p' ⟨hI, hthreads⟩ hok hstep
    cases hstep with
    | act =>
      rename_i s before after f k
      obtain ⟨hI', hk, hothers⟩ := hact f k s hI (hthreads (.act f k) (by simp))
      refine ⟨hI', fun t ht => ?_⟩
      rcases mem_append.1 ht with ht | ht
      · exact hothers t (hthreads t (mem_append_left _ ht))
      · rcases mem_cons.1 ht with rfl | ht
        · exact hk
        · exact hothers t (hthreads t (mem_append_right _ (mem_cons_of_mem _ ht)))
    | spawn hp =>
      refine ⟨hI, fun t ht => ?_⟩
      rcases mem_cons.1 ht with rfl | ht
      · exact hspawn _ hp _ hI
      · exact hthreads t ht

/-- In a pool whose programs only take actions that meet `P`, all programs left
do so, and an invariant of these actions holds of the state. -/
theorem pool_inv (I : σ → Prop) (hinit : ∀ s, init s → I s) (hspawn : ∀ p, spawn p → p.Each P)
    (hP : ∀ f, P f → ∀ s, I s → I (f s)) (h : Reach (pool init spawn) ok p) :
    I p.shared ∧ ∀ t ∈ p.threads, t.Each P := by
  refine pool_rule I (fun t _ => t.Each P) hinit (fun p hp _ _ => hspawn p hp) ?_ h
  rintro f k s hI ⟨hf, hk⟩
  exact ⟨hP f hf s hI, hk s, fun _ ht => ht⟩

/-! ## Schedules that end -/

/-- One action of one of the programs; no program is new. -/
abbrev Pool.Act (p q : Pool σ) : Prop := Pool.Step (fun _ => False) p q

/-- Whatever program acts next, all have ended sooner or later, and then the
state meets `Q`. -/
inductive Pool.Ends (Q : σ → Prop) : Pool σ → Prop
  | intro {p : Pool σ} : ((∀ q, ¬p.Act q) → Q p.shared) → (∀ q, p.Act q → Ends Q q) → Ends Q p

variable {s : σ} {threads : List (Prog σ Unit)}

/-- An action belongs to one of the programs. -/
theorem Pool.act_inv {q : Pool σ} (h : Pool.Act { shared := s, threads } q) :
    ∃ before f k after, threads = before ++ Prog.act f k :: after ∧
      q = { shared := f s, threads := before ++ k s :: after } := by
  generalize hp : ({ shared := s, threads } : Pool σ) = p at h
  cases h with
  | act =>
    cases hp
    exact ⟨_, _, _, _, rfl, rfl⟩
  | spawn h => exact h.elim

theorem Pool.not_act_iff : (∀ q, ¬Pool.Act { shared := s, threads } q) ↔ ∀ t ∈ threads, t = ret () := by
  constructor
  · intro h t ht
    cases t with
    | ret a => rfl
    | act f k =>
      obtain ⟨before, after, rfl⟩ := append_of_mem ht
      exact absurd Pool.Step.act (h _)
  · intro h q hq
    obtain ⟨before, f, k, after, rfl, -⟩ := Pool.act_inv hq
    exact nomatch h (Prog.act f k) (by simp)

/-- What a program may go on as. -/
def Child (t' t : Prog σ α) : Prop := ∃ f k s, t = act f k ∧ t' = k s

theorem wellFounded_child : WellFounded (Child (σ := σ) (α := α)) := by
  refine ⟨fun t => ?_⟩
  induction t with
  | ret a => exact ⟨_, fun t' ⟨f, k, s, h, _⟩ => nomatch h⟩
  | act f k ih =>
    refine ⟨_, fun t' ⟨f', k', s, h, ht'⟩ => ?_⟩
    cases h
    exact ht' ▸ ih s

/-- Programs end under every schedule: an action replaces one program by what it
goes on as. -/
theorem Pool.wellFounded_act : WellFounded fun q p : Pool σ => p.Act q := by
  refine Subrelation.wf ?_ (InvImage.wf (fun p : Pool σ => (p.threads : Multiset (Prog σ Unit)))
    wellFounded_child.cutExpand)
  rintro q ⟨s, threads⟩ h
  obtain ⟨before, f, k, after, rfl, rfl⟩ := Pool.act_inv h
  refine ⟨{k s}, Prog.act f k, fun t ht => ⟨f, k, s, rfl, Multiset.mem_singleton.1 ht⟩, ?_⟩
  simp only [← Multiset.coe_add, ← Multiset.cons_coe, ← Multiset.singleton_add]
  abel

variable {Q : σ → Prop}

/-- An invariant of the actions that gives `Q` once all programs have ended. -/
theorem Pool.Ends.of_inv (I : Pool σ → Prop) (hact : ∀ p q, I p → p.Act q → I q)
    (hend : ∀ p, I p → (∀ q, ¬p.Act q) → Q p.shared) (h : I p) : Pool.Ends Q p := by
  induction p using Pool.wellFounded_act.induction with
  | _ p ih => exact .intro (hend p h) fun q hq => ih q hq (hact p q h hq)

theorem Pool.ends_nil : Pool.Ends Q { shared := s, threads := [] } ↔ Q s := by
  have hended : ∀ q, ¬Pool.Act { shared := s, threads := [] } q := Pool.not_act_iff.2 (by simp)
  constructor
  · rintro ⟨h, -⟩
    exact h hended
  · exact fun hQ => .intro (fun _ => hQ) fun q hq => absurd hq (hended q)

theorem Pool.ends_single {t : Prog σ Unit} (h : Q (t.run s).2) : Pool.Ends Q { shared := s, threads := [t] } := by
  induction t generalizing s with
  | ret a =>
    have hended : ∀ q, ¬Pool.Act { shared := s, threads := [ret a] } q := Pool.not_act_iff.2 (by simp)
    exact .intro (fun _ => h) fun q hq => absurd hq (hended q)
  | act f k ih =>
    refine .intro (fun hended => absurd (Pool.not_act_iff.1 hended (Prog.act f k) (by simp)) nofun) fun q hq => ?_
    obtain ⟨before, f', k', after, heq, rfl⟩ := Pool.act_inv hq
    match before, heq with
    | [], heq =>
      cases heq
      exact ih s h
    | _ :: before, heq => simp at heq

theorem Pool.act_pair {a b : Prog σ Unit} {q : Pool σ} (h : Pool.Act { shared := s, threads := [a, b] } q) :
    (∃ f k, a = Prog.act f k ∧ q = { shared := f s, threads := [k s, b] }) ∨
      ∃ f k, b = Prog.act f k ∧ q = { shared := f s, threads := [a, k s] } := by
  obtain ⟨before, f, k, after, heq, rfl⟩ := Pool.act_inv h
  match before, heq with
  | [], heq =>
    cases heq
    exact .inl ⟨f, k, rfl, rfl⟩
  | [_], heq =>
    cases heq
    exact .inr ⟨f, k, rfl, rfl⟩
  | _ :: _ :: before, heq => simp at heq

end Prog

end Singlink.Lib
