import Singlink.Lib.Codec
/-!
# Readers that account for what they ask for

A reader that believes a length before it has seen the elements asks for memory
that its input need not justify, and one that calls itself asks for stack. A metered
reader notes such demands. The readers of a format are written once, for any monad that
may note them: `Follows` says that a metered reader is a plain one, demands aside, and
composes along `bind`, so that formats are proved field by field.
-/

namespace Singlink.Lib

open Codec List

/-- Room for `count` elements while `left` bytes are unread, or a call that is nested
`depth` deep. -/
inductive Demand where
  | alloc (count left : Nat)
  | nest (depth : Nat)
  deriving DecidableEq

/-- What readers run in. A demand may depend on the number of bytes that are left. -/
class Noting (ε : outParam Type) (m : Type → Type) extends Monad m where
  /-- A reader that asks for nothing. -/
  lift {α : Type} : Reader ε α → m α
  note : (Nat → Demand) → m Unit
  left : m Nat

instance {ε : Type} : Noting ε (Reader ε) where
  lift r := r
  note _ := pure ()
  left := fun bytes => .ok (bytes.length, bytes)

open Noting

/-- `make` of a slice. -/
def make {ε : Type} {m : Type → Type} [Noting ε m] (count : Nat) : m Unit := note fun left => .alloc count left

theorem Codec.Reads.after_note {ε α : Type} {r : Reader ε α} {bytes : Bytes} {a : α} {demand : Nat → Demand}
    (h : Reads r bytes a) : Reads (note demand >>= fun _ => r) bytes a := h

/-- The bytes that are unread, and the demands so far, latest first. -/
structure Meter where
  bytes : Bytes
  demands : List Demand := []

def Metered (ε α : Type) := Meter → Except ε α × Meter

namespace Metered

variable {ε α β : Type}

instance : Monad (Metered ε) where
  pure a := fun m => (.ok a, m)
  bind r f := fun m =>
    match r m with
    | (.ok a, m') => f a m'
    | (.error err, m') => (.error err, m')

instance : Noting ε (Metered ε) where
  lift r := fun m =>
    match r m.bytes with
    | .ok (a, rest) => (.ok a, { m with bytes := rest })
    | .error err => (.error err, m)
  note demand := fun m => (.ok (), { m with demands := demand m.bytes.length :: m.demands })
  left := fun m => (.ok m.bytes.length, m)

variable {r : Metered ε α} {f : α → Metered ε β} {m m' : Meter} {a : α} {err : ε}

theorem bind_ok (h : r m = (.ok a, m')) : (r >>= f) m = f a m' := by
  change (match r m with | (.ok a, m') => f a m' | (.error err, m') => (.error err, m')) = _
  rw [h]

theorem bind_error (h : r m = (.error err, m')) : (r >>= f) m = (.error err, m') := by
  change (match r m with | (.ok a, m') => f a m' | (.error err, m') => (.error err, m')) = _
  rw [h]

variable {n : Nat} {r' : Reader ε α}

theorem lift_ok {rest : Bytes} (h : r' m.bytes = .ok (a, rest)) :
    (lift r' : Metered ε α) m = (.ok a, { m with bytes := rest }) := by
  simp only [lift, h]

theorem lift_error (h : r' m.bytes = .error err) : (lift r' : Metered ε α) m = (.error err, m) := by
  simp only [lift, h]

/-! ## Readers that follow others -/

/-- The reader is the other one, demands aside. If it succeeds and `φ` holds, it has taken
`n` bytes at least, and there were as many bytes as elements it asked for. -/
def Follows (φ : Prop) (n : Nat) (r : Metered ε α) (r' : Reader ε α) : Prop :=
  ∀ m, (∀ a rest, r' m.bytes = .ok (a, rest) → ∃ new, r m = (.ok a, ⟨rest, new ++ m.demands⟩) ∧
      (φ → rest.length + n ≤ m.bytes.length ∧ ∀ count left, .alloc count left ∈ new → count ≤ left)) ∧
    ∀ err, r' m.bytes = .error err → ∃ m', r m = (.error err, m')

namespace Follows

variable {φ : Prop}

theorem pure (a : α) : Follows φ 0 (pure a : Metered ε α) (pure a) := by
  refine fun m => ⟨fun a' rest heq => ?_, nofun⟩
  cases heq
  exact ⟨[], rfl, fun _ => ⟨le_rfl, nofun⟩⟩

theorem lift {r : Reader ε α} (h : φ → Consumes n r) : Follows φ n (lift r) r := by
  refine fun m => ⟨fun a rest heq => ⟨[], lift_ok heq, fun hφ => ⟨?_, nofun⟩⟩, fun err heq => ⟨m, lift_error heq⟩⟩
  exact h hφ m.bytes a rest heq

theorem mono {n' : Nat} (h : Follows φ n r r') (hn : n' ≤ n) : Follows φ n' r r' := by
  refine fun m => ⟨fun a rest heq => ?_, (h m).2⟩
  obtain ⟨new, hread, hfrugal⟩ := (h m).1 a rest heq
  refine ⟨new, hread, fun hφ => ⟨?_, (hfrugal hφ).2⟩⟩
  exact (Nat.add_le_add_left hn _).trans (hfrugal hφ).1

theorem bind {n' : Nat} {f' : α → Reader ε β} (h : Follows φ n r r') (hf : ∀ a, Follows φ n' (f a) (f' a)) :
    Follows φ (n + n') (r >>= f) (r' >>= f') := by
  intro m
  change (∀ b rest, (r' m.bytes >>= fun p => f' p.1 p.2) = .ok (b, rest) → _) ∧
    ∀ err, (r' m.bytes >>= fun p => f' p.1 p.2) = .error err → _
  cases hfirst : r' m.bytes with
  | error err =>
    obtain ⟨m₁, heq⟩ := (h m).2 err hfirst
    refine ⟨nofun, fun err' heq' => ?_⟩
    cases heq'
    exact ⟨m₁, bind_error heq⟩
  | ok result =>
    obtain ⟨a, middle⟩ := result
    obtain ⟨new₁, heq, hfrugal₁⟩ := (h m).1 a middle hfirst
    rw [bind_ok heq]
    obtain ⟨hok, herror⟩ := hf a ⟨middle, new₁ ++ m.demands⟩
    refine ⟨fun b rest hsecond => ?_, herror⟩
    obtain ⟨new₂, heq', hfrugal₂⟩ := hok b rest hsecond
    refine ⟨new₂ ++ new₁, by rw [heq', append_assoc], fun hφ => ?_⟩
    obtain ⟨hle₁, hbound₁⟩ := hfrugal₁ hφ
    obtain ⟨hle₂, hbound₂⟩ := hfrugal₂ hφ
    refine ⟨by simp only at hle₂; omega, fun count left hmem => ?_⟩
    rcases mem_append.1 hmem with hmem | hmem
    · exact hbound₂ count left hmem
    · exact hbound₁ count left hmem

theorem map (h : Follows φ n r r') (g : α → β) : Follows φ n (g <$> r) (g <$> r') := h.bind fun a => .pure (g a)

theorem many {k : Nat} (h : Follows φ k r r') (n : Nat) : Follows φ (n * k) (readMany r n) (readMany r' n) := by
  induction n with
  | zero =>
    rw [zero_mul]
    exact .pure []
  | succ n ih =>
    have hall := h.bind fun a => ih.bind fun as => .pure (a :: as)
    exact .mono hall (by rw [Nat.succ_mul]; omega)

theorem after {demand : Nat → Demand} (h : Follows φ n r r')
    (hdemand : ∀ bytes, n ≤ bytes → ∀ count left, demand bytes = .alloc count left → count ≤ left) :
    Follows φ n (note demand >>= fun _ => r) (note demand >>= fun _ => r') := by
  intro m
  obtain ⟨hok, herror⟩ := h { m with demands := demand m.bytes.length :: m.demands }
  refine ⟨fun a rest heq => ?_, herror⟩
  obtain ⟨new, hread, hfrugal⟩ := hok a rest heq
  refine ⟨new ++ [demand m.bytes.length], by rw [append_assoc]; exact hread, fun hφ => ?_⟩
  obtain ⟨hle, hbound⟩ := hfrugal hφ
  refine ⟨hle, fun count left hmem => ?_⟩
  rcases mem_append.1 hmem with hmem | hmem
  · exact hbound count left hmem
  · exact hdemand _ (Nat.le_of_add_left_le hle) count left (mem_singleton.1 hmem).symm

/-- Elements are asked for, and then read from a byte each at least. -/
theorem after_make {count : Nat} (h : Follows φ n r r') (hcount : count ≤ n) :
    Follows φ n (make count >>= fun _ => r) (make count >>= fun _ => r') := by
  refine h.after fun bytes hle _ _ heq => ?_
  cases heq
  exact hcount.trans hle

end Follows

end Metered

end Singlink.Lib
