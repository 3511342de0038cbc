import Singlink.Service.UserManager
/-!
# Requests of several clients at once

`updateUser` and `deleteUser` look for the user in one critical section of the manager and
change it in another. The requests of other clients may come in between.
-/

namespace Singlink.Ssmapi

open Lib

inductive ClientRequest where
  | getUser (userName : String)
  | change (request : Request)

/-- A user, without the counters, or a status. -/
inductive Reply where
  | user (password : String)
  | status (answer : Answer)
  deriving DecidableEq

/-- An update or, without a password, a deletion whose user has been found. -/
structure Found where
  userName : String
  password : Option String
  named : userName ≠ ""

namespace UserManager

def getUser (m : UserManager) (userName : String) : Reply :=
  if userName = "" then .status (.badRequest "")
  else
    match m.get userName with
    | none => .status .notFound
    | some password => .user password

/-- A request that no other comes in between of. -/
def reply (m : UserManager) (r : ClientRequest × Env) : UserManager × Reply :=
  match r.1 with
  | .getUser userName => (m, m.getUser userName)
  | .change request => ((m.serve (request, r.2)).1, .status (m.serve (request, r.2)).2)

/-- One request after the other. -/
def replies (m : UserManager) : List (ClientRequest × Env) → UserManager × List Reply
  | [] => (m, [])
  | r :: rs => (((m.reply r).1.replies rs).1, (m.reply r).2 :: ((m.reply r).1.replies rs).2)

/-- The first critical section of a request that may have another one. -/
def find (m : UserManager) : ClientRequest → Option Found
  | .change (.updateUser userName (.ok password)) =>
    if h : userName ≠ "" ∧ m.get userName ≠ none then some ⟨userName, some password, h.1⟩ else none
  | .change (.deleteUser userName) =>
    if h : userName ≠ "" ∧ m.get userName ≠ none then some ⟨userName, none, h.1⟩ else none
  | _ => none

/-- The second critical section. -/
def finish (m : UserManager) (f : Found) (env : Env) : UserManager × Reply :=
  let result := match f.password with
    | some password => m.update f.userName password env
    | none => m.delete f.userName env
  match result with
  | (m, some err) => (m, .status (.badRequest err))
  | (m, none) => (m, .status .noContent)

end UserManager

def Found.request (f : Found) : ClientRequest :=
  match f.password with
  | some password => .change (.updateUser f.userName (.ok password))
  | none => .change (.deleteUser f.userName)

/-- The manager, the requests that clients have not finished, and those that were answered. -/
structure Clients (C : Type) where
  manager : UserManager
  pending : C → Option Found
  log : List ((ClientRequest × Env) × Reply)

inductive ClientStep (C : Type) where
  | first (client : C) (r : ClientRequest) (env : Env)
  | second (client : C) (env : Env)

namespace Clients

open UserManager

variable {C : Type}

/-- The requests in the order they were answered, one after the other, have the same answers
and leave the same users. -/
def Serial (m : UserManager) (s : Clients C) : Prop :=
  m.replies (s.log.map Prod.fst) = (s.manager, s.log.map Prod.snd)

variable [DecidableEq C]

/-- A step is possible for a client without a request, or with one that is not finished. -/
def step (s : Clients C) : ClientStep C → Option (Clients C)
  | .first client r env =>
    if (s.pending client).isSome then none
    else
      match s.manager.find r with
      | some f => some { s with pending := Function.update s.pending client (some f) }
      | none => some { s with
          manager := (s.manager.reply (r, env)).1, log := s.log ++ [((r, env), (s.manager.reply (r, env)).2)] }
  | .second client env =>
    match s.pending client with
    | none => none
    | some f => some {
        manager := (s.manager.finish f env).1
        pending := Function.update s.pending client none
        log := s.log ++ [((f.request, env), (s.manager.finish f env).2)] }

def system (m : UserManager) : System (Clients C) (ClientStep C) := .ofPartial (· = ⟨m, fun _ => none, []⟩) step

/-- The user is still there when a request changes it. -/
def StillThere (s : Clients C) : ClientStep C → Prop
  | .first _ _ _ => True
  | .second client _ => ∀ f, s.pending client = some f → s.manager.get f.userName ≠ none

/-! ## A serial order -/

section
omit [DecidableEq C]

theorem replies_concat (m : UserManager) (rs : List (ClientRequest × Env)) (r : ClientRequest × Env) :
    m.replies (rs ++ [r]) = (((m.replies rs).1.reply r).1, (m.replies rs).2 ++ [((m.replies rs).1.reply r).2]) := by
  induction rs generalizing m with
  | nil => rfl
  | cons r' rs ih => simp only [List.cons_append, replies, ih]

theorem Serial.concat {m m' : UserManager} {s : Clients C} {r : ClientRequest × Env} {reply : Reply}
    {pending : C → Option Found} (h : Serial m s) (hr : s.manager.reply r = (m', reply)) :
    Serial m ⟨m', pending, s.log ++ [(r, reply)]⟩ := by
  rw [Serial, List.map_append, List.map_append, List.map_singleton, replies_concat, h, hr]
  rfl

/-- The second critical section is the whole request while the user is there. -/
theorem reply_request {m : UserManager} {f : Found} (h : m.get f.userName ≠ none) (env : Env) :
    m.reply (f.request, env) = m.finish f env := by
  obtain ⟨old, hold⟩ := Option.ne_none_iff_exists'.1 h
  obtain ⟨userName, password, hnamed⟩ := f
  cases password with
  | none =>
    simp only [Found.request, reply, serve, deleteUser, if_neg hnamed, hold,
      finish]
    rcases m.delete userName env with ⟨m', _ | err⟩ <;> rfl
  | some password =>
    simp only [Found.request, reply, serve, updateUser, if_neg hnamed, hold,
      finish]
    rcases m.update userName password env with ⟨m', _ | err⟩ <;> rfl

end

theorem Serial.step {m : UserManager} {s s' : Clients C} {i : ClientStep C} (h : Serial m s) (hi : s.StillThere i)
    (hs : s.step i = some s') : Serial m s' := by
  cases i with
  | first client r env =>
    simp only [Clients.step] at hs
    split at hs
    · cases hs
    · split at hs
      · cases hs
        exact h
      · cases hs
        exact h.concat rfl
  | second client env =>
    simp only [Clients.step] at hs
    split at hs
    · cases hs
    · next f hf =>
      cases hs
      exact h.concat (reply_request (hi f hf) env)

/-- A manager with the user `u`. -/
def sample : UserManager := ((newUserManager {}).add "u" "old" {}).1

def run (steps : List (ClientStep Bool)) : Clients Bool :=
  steps.foldl (fun s i => (s.step i).getD s) ⟨sample, fun _ => none, []⟩

end Clients

end Singlink.Ssmapi
