import Mathlib.Order.Defs.PartialOrder
import Singlink.Lib.Prog
/-!
# Programs among others

A rule of pre- and postconditions for programs that share their state with
others. All programs keep one invariant and move the state up in one preorder;
what a program knows between two of its actions is what this leaves true.
-/

namespace Singlink.Lib.Prog

variable {σ α β : Type} [Preorder σ] {I : σ → Prop}

/-- Among programs that keep `I` and move the state up, a program started in `s`
does so too, and `Q` holds once it has returned. -/
def Safe (I : σ → Prop) (Q : α → σ → Prop) : Prog σ α → σ → Prop
  | ret a, s => ∀ s', s ≤ s' → I s' → Q a s'
  | act f k, s => ∀ s', s ≤ s' → I s' → s' ≤ f s' ∧ I (f s') ∧ (k s').Safe I Q (f s')

variable {Q : α → σ → Prop} {T : β → σ → Prop} {p : Prog σ α} {s : σ}

theorem Safe.of_forall (h : ∀ s', s ≤ s' → I s' → p.Safe I Q s') : p.Safe I Q s := by
  cases p with
  | ret a | act f k => exact fun s' hle hI => h s' hle hI s' le_rfl hI

theorem Safe.mono (h : p.Safe I Q s) {s' : σ} (hle : s ≤ s') : p.Safe I Q s' := by
  cases p with
  | ret a | act f k => exact fun s'' hle' => h s'' (hle.trans hle')

theorem Safe.pure {a : α} (h : ∀ s', s ≤ s' → I s' → Q a s') : (Pure.pure a : Prog σ α).Safe I Q s := h

theorem Safe.bind {g : α → Prog σ β} (hp : p.Safe I Q s)
    (hg : ∀ a s', s ≤ s' → I s' → Q a s' → (g a).Safe I T s') : (p >>= g).Safe I T s := by
  induction p generalizing s with
  | ret a => exact .of_forall fun s' hle hI => hg a s' hle hI (hp s' hle hI)
  | act f k ih =>
    intro s' hle hI
    obtain ⟨hup, hI', hk⟩ := hp s' hle hI
    refine ⟨hup, hI', ih s' hk fun a s'' hle' => ?_⟩
    exact hg a s'' (hle.trans (hup.trans hle'))

theorem Safe.atomic {g : σ → α × σ}
    (h : ∀ s', s ≤ s' → I s' → s' ≤ (g s').2 ∧ I (g s').2 ∧ ∀ s'', (g s').2 ≤ s'' → I s'' → Q (g s').1 s'') :
    (atomic g).Safe I Q s := h

theorem Safe.modify {f : σ → σ} {Q : Unit → σ → Prop}
    (h : ∀ s', s ≤ s' → I s' → s' ≤ f s' ∧ I (f s') ∧ ∀ s'', f s' ≤ s'' → I s'' → Q () s'') :
    (modify f).Safe I Q s := h

theorem Safe.read {f : σ → α} (h : ∀ s', s ≤ s' → I s' → ∀ s'', s' ≤ s'' → I s'' → Q (f s') s'') :
    (read f).Safe I Q s :=
  fun s' hle hI => ⟨le_rfl, hI, h s' hle hI⟩

theorem Safe.conseq {Q' : α → σ → Prop} (h : p.Safe I Q s) (hQ : ∀ a s', s ≤ s' → I s' → Q a s' → Q' a s') :
    p.Safe I Q' s := by
  induction p generalizing s with
  | ret a => exact fun s' hle hI => hQ a s' hle hI (h s' hle hI)
  | act f k ih =>
    intro s' hle hI
    obtain ⟨hup, hI', hk⟩ := h s' hle hI
    exact ⟨hup, hI', ih s' hk fun a s'' hle' => hQ a s'' (hle.trans (hup.trans hle'))⟩

theorem Safe.stable (h : p.Safe I Q s) : p.Safe I (fun a s => ∀ s', s ≤ s' → I s' → Q a s') s := by
  induction p generalizing s with
  | ret a => exact fun s' hle _ s'' hle' => h s'' (hle.trans hle')
  | act f k ih =>
    intro s' hle hI
    obtain ⟨hup, hI', hk⟩ := h s' hle hI
    exact ⟨hup, hI', ih s' hk⟩

theorem Safe.when {cond : Bool} {p : Prog σ Unit} {Q : Unit → σ → Prop} (hp : cond = true → p.Safe I Q s)
    (hQ : cond = false → ∀ s', s ≤ s' → I s' → Q () s') : (Prog.when cond p).Safe I Q s := by
  cases cond with
  | true => exact hp rfl
  | false => exact hQ rfl

theorem Safe.par {q : Prog σ β} (schedule : List Bool) (hp : p.Safe I Q s) (hq : q.Safe I T s) :
    (Prog.par schedule p q).Safe I (fun r s => Q r.1 s ∧ T r.2 s) s := by
  have hseq : ∀ {p : Prog σ α} {q : Prog σ β} {s : σ}, p.Safe I Q s → q.Safe I T s →
      (p >>= fun a => q >>= fun b => ret (a, b)).Safe I (fun r s => Q r.1 s ∧ T r.2 s) s := by
    intro p q s hp hq
    refine hp.stable.bind fun a s' hle _ ha => (hq.mono hle).stable.bind fun b s'' hle' _ hb => ?_
    exact fun s3 hle'' hI => ⟨ha s3 (hle'.trans hle'') hI, hb s3 hle'' hI⟩
  induction schedule generalizing p q s with
  | nil => exact hseq hp hq
  | cons turn schedule ih =>
    cases turn with
    | true =>
      cases p with
      | ret a => exact hseq hp hq
      | act f k =>
        intro s' hle hI
        obtain ⟨hup, hI', hk⟩ := hp s' hle hI
        exact ⟨hup, hI', ih hk (hq.mono (hle.trans hup))⟩
    | false =>
      cases q with
      | ret b => exact hseq hp hq
      | act f k =>
        intro s' hle hI
        obtain ⟨hup, hI', hk⟩ := hq s' hle hI
        exact ⟨hup, hI', ih (hp.mono (hle.trans hup)) hk⟩

/-- In a pool of safe programs the invariant holds of every state. -/
theorem pool_safe {init : σ → Prop} {spawn : Prog σ Unit → Prop} {ok : Pool σ → Unit → Prop}
    (hinit : ∀ s, init s → I s) (hspawn : ∀ p, spawn p → ∀ s, I s → p.Safe I (fun _ _ => True) s)
    {p : Pool σ} (h : Reach (pool init spawn) ok p) :
    I p.shared ∧ ∀ t ∈ p.threads, t.Safe I (fun _ _ => True) p.shared := by
  refine pool_rule I (fun t s => t.Safe I (fun _ _ => True) s) hinit hspawn ?_ h
  intro f k s hI hsafe
  obtain ⟨hup, hI', hk⟩ := hsafe s le_rfl hI
  exact ⟨hI', hk, fun t ht => ht.mono hup⟩

end Singlink.Lib.Prog
