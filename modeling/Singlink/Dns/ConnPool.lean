import Singlink.Lib.Indexed
import Singlink.Lib.Runs
/-!
# The connection pool

`dns/transport/conn_pool.go`. Calls run concurrently, so that a call is a phase between
two of its critical sections, and the steps are the critical sections, the returns of
dials and the calls of the close function. What `IsAlive` answers, what a dial returns
and when, and what becomes of the callers' contexts is up to the environment.
-/

namespace Singlink.Dns

open Lib

inductive ConnPoolMode where
  | single
  | ordered
  deriving DecidableEq

inductive PoolError where
  | errClosed
  | other (text : String)
  deriving DecidableEq

/-- `list.Element`, at its place in memory. -/
structure Element (T : Type) where
  place : Nat
  value : T
  deriving DecidableEq

/-- `connPoolState`; `shared` is none where `hasShared` is false. -/
structure ConnPoolState (T : Type) where
  cancelled : Bool := false
  all : GoMap T Unit := ∅
  idle : List (Element T) := []
  idleElements : GoMap T (Element T) := ∅
  shared : Option T := none
  sharedClaimed : Bool := false
  sharedCtx : Option Nat := none
  connecting : Option Nat := none

/-- Where `connectSingle` is: at the dial, before its critical section, or after it. -/
inductive Connecting (T : Type) where
  | dialing
  | dialed (result : Except PoolError T)
  | finished

/-- `connPoolConnect`, with the call of `connectSingle` that it is for. -/
structure ConnPoolConnect (T : Type) where
  current : Nat
  phase : Connecting T := .dialing
  err : Option PoolError := none
  done : Bool := false

/-- Where a call of `Acquire` or `AcquireShared` is, and what became of it. -/
inductive Call (T : Type) where
  | unused
  | looking
  | slot (current : Nat)
  | dialing (current : Nat)
  | dialed (current : Nat) (conn : T)
  | waiting (current connect : Nat) (startDial : Bool)
  | failed (err : PoolError)
  | returned (conn : T) (connCtx : Option Nat) (created : Bool)
  | released (conn : T) (created : Bool)

/-- `ConnPool`; `state` is none once the pool is closed. `dialed` are the connections
there have been; `closing` are those that a call is about to pass to the close function,
and `passed` those it has been called with. -/
structure ConnPool (T : Type) where
  mode : ConnPoolMode
  maxInflight : Int
  inflight : Nat := 0
  state : Option Nat := some 0
  states : Nat → ConnPoolState T := fun _ => {}
  nextState : Nat := 1
  nextElement : Nat := 0
  connects : Nat → ConnPoolConnect T := fun _ => { current := 0, phase := .finished }
  nextConnect : Nat := 0
  nextCtx : Nat := 0
  cancelledCtxs : List (Nat × PoolError) := []
  calls : Nat → Call T := fun _ => .unused
  dialed : List T := []
  closing : List (T × PoolError) := []
  passed : List (T × PoolError) := []

variable {T : Type} [DecidableEq T]

/-- `removeConn`, on the state. -/
def ConnPoolState.removeConn (mode : ConnPoolMode) (conn : T) (state : ConnPoolState T) : ConnPoolState T :=
  let state := { state with all := state.all.erase conn }
  match mode with
  | .single =>
    if state.shared = some conn then { state with shared := none, sharedClaimed := false, sharedCtx := none } else state
  | .ordered =>
    match state.idleElements.lookup conn with
    | some element =>
      { state with idle := state.idle.erase element, idleElements := state.idleElements.erase conn }
    | none => state

namespace ConnPool

def setCall (p : ConnPool T) (k : Nat) (call : Call T) : ConnPool T :=
  { p with calls := Function.update p.calls k call }

def modifyState (p : ConnPool T) (current : Nat) (f : ConnPoolState T → ConnPoolState T) : ConnPool T :=
  { p with states := Function.update p.states current (f (p.states current)) }

def modifyConnect (p : ConnPool T) (c : Nat) (f : ConnPoolConnect T → ConnPoolConnect T) : ConnPool T :=
  { p with connects := Function.update p.connects c (f (p.connects c)) }

/-- The call is about to call the close function. -/
def toClose (p : ConnPool T) (conn : T) (cause : PoolError) : ConnPool T :=
  { p with closing := p.closing ++ [(conn, cause)] }

def discard (p : ConnPool T) (conn : T) (cause : PoolError) : ConnPool T :=
  { p with passed := p.passed ++ [(conn, cause)] }

def removeConn (p : ConnPool T) (current : Nat) (conn : T) (cause : PoolError) : ConnPool T :=
  let sharedCtxs := if p.mode = .single ∧ (p.states current).shared = some conn then (p.states current).sharedCtx.toList else []
  { p.modifyState current (ConnPoolState.removeConn p.mode conn) with
    cancelledCtxs := p.cancelledCtxs ++ sharedCtxs.map (·, cause) }

/-! ## Ordered connections -/

/-- The loop of `acquireOrdered`. A call that drops a connection stays in the loop. -/
def acquireOrdered (p : ConnPool T) (k current : Nat) (alive : Bool) : ConnPool T :=
  match (p.states current).idle with
  | element :: _ =>
    let p := p.modifyState current fun state =>
      { state with idle := state.idle.erase element, idleElements := state.idleElements.erase element.value }
    if alive then p.setCall k (.returned element.value none false)
    else
      (p.modifyState current fun state => { state with all := state.all.erase element.value }).toClose
        element.value .errClosed
  | [] => p.setCall k (.slot current)

/-- `acquireSlot`: waiting ends with a slot or an error. -/
def acquireSlot (p : ConnPool T) (k current : Nat) : Option PoolError → Option (ConnPool T)
  | none =>
    if 0 < p.maxInflight ∧ p.maxInflight ≤ p.inflight then none
    else some { p.setCall k (.dialing current) with inflight := p.inflight + 1 }
  | some err => if 0 < p.maxInflight then some (p.setCall k (.failed err)) else none

/-- What the dialing call finds its context and that of the state cancelled with. -/
def dialErr (p : ConnPool T) (current : Nat) (cause : Option PoolError) : Option PoolError :=
  cause <|> if (p.states current).cancelled then some .errClosed else none

/-- The dial of `dialAndInstall` returns. -/
def dialOrdered (p : ConnPool T) (k current : Nat) (result : Except PoolError T) (cause : Option PoolError) :
    ConnPool T :=
  let fail (err : PoolError) : ConnPool T := { p.setCall k (.failed err) with inflight := p.inflight - 1 }
  match result, p.dialErr current cause with
  | .error err, none => fail err
  | .error _, some err => fail err
  | .ok conn, some err => { (fail err).discard conn err with dialed := conn :: p.dialed }
  | .ok conn, none => { p.setCall k (.dialed current conn) with dialed := conn :: p.dialed }

/-- The critical section of `dialAndInstall`. -/
def installOrdered (p : ConnPool T) (k current : Nat) (conn : T) : ConnPool T :=
  let p := { p with inflight := p.inflight - 1 }
  if p.state = some current then
    (p.modifyState current fun state => { state with all := state.all.insert conn () }).setCall k
      (.returned conn none true)
  else (p.setCall k (.failed .errClosed)).discard conn .errClosed

/-! ## The shared connection -/

/-- The shared connection is returned. -/
def claimShared (p : ConnPool T) (k current : Nat) (conn : T) : ConnPool T :=
  (p.modifyState current fun state => { state with sharedClaimed := true }).setCall k
    (.returned conn (p.states current).sharedCtx !(p.states current).sharedClaimed)

/-- The first critical section of `acquireShared`; a call that drops the connection stays
in the loop. -/
def acquireShared (p : ConnPool T) (k current : Nat) (alive : Bool) : ConnPool T :=
  match (p.states current).shared with
  | some conn =>
    if alive then p.claimShared k current conn
    else (p.removeConn current conn .errClosed).toClose conn .errClosed
  | none =>
    match (p.states current).connecting with
    | some c => p.setCall k (.waiting current c false)
    | none =>
      let c := p.nextConnect
      { (p.modifyState current fun state => { state with connecting := some c }).setCall k (.waiting current c true) with
        connects := Function.update p.connects c { current }
        nextConnect := p.nextConnect + 1 }

/-- The dial of `connectSingle` returns. -/
def dialSingle (p : ConnPool T) (c : Nat) (result : Except PoolError T) (cause : Option PoolError) : ConnPool T :=
  let dialed (result : Except PoolError T) : ConnPool T := p.modifyConnect c fun it => { it with phase := .dialed result }
  match result, p.dialErr (p.connects c).current cause with
  | .error err, none => dialed (.error err)
  | .error _, some err => dialed (.error err)
  | .ok conn, some err => { (dialed (.error err)).discard conn err with dialed := conn :: p.dialed }
  | .ok conn, none => { dialed (.ok conn) with dialed := conn :: p.dialed }

/-- The critical section of `connectSingle`. -/
def connectSingle (p : ConnPool T) (c : Nat) (result : Except PoolError T) : ConnPool T :=
  let current := (p.connects c).current
  let p := p.modifyState current fun state => { state with connecting := none }
  match result with
  | .error err => p.modifyConnect c fun it => { it with phase := .finished, err := some err }
  | .ok conn =>
    if p.state = some current then
      { (p.modifyState current fun state =>
          { state with shared := some conn, sharedCtx := some p.nextCtx, all := state.all.insert conn () }).modifyConnect c
          fun it => { it with phase := .finished } with
        nextCtx := p.nextCtx + 1 }
    else (p.modifyConnect c fun it => { it with phase := .finished, err := some .errClosed }).discard conn .errClosed

/-- `collectShared`, where a retry goes back to the loop. -/
def collectShared (p : ConnPool T) (k current c : Nat) (startDial alive : Bool) : ConnPool T :=
  match (p.connects c).err with
  | some err => p.setCall k (if startDial then .failed err else .looking)
  | none =>
    if p.state = some current then
      match (p.states current).shared with
      | none => p.setCall k .looking
      | some conn =>
        if alive then p.claimShared k current conn
        else ((p.removeConn current conn .errClosed).toClose conn .errClosed).setCall k .looking
    else p.setCall k (.failed .errClosed)

/-! ## Connections that come back -/

def release (p : ConnPool T) (conn : T) (reuse alive : Bool) : ConnPool T :=
  match p.state with
  | none => p.toClose conn .errClosed
  | some current =>
    if conn ∉ (p.states current).all then p.toClose conn .errClosed
    else if !reuse || !alive then (p.removeConn current conn .errClosed).toClose conn .errClosed
    else if p.mode = .ordered ∧ (p.states current).idleElements.lookup conn = none then
      let element : Element T := ⟨p.nextElement, conn⟩
      { p.modifyState current fun state =>
          { state with idle := state.idle ++ [element], idleElements := state.idleElements.insert conn element } with
        nextElement := p.nextElement + 1 }
    else p

def invalidate (p : ConnPool T) (conn : T) (cause : PoolError) : ConnPool T :=
  match p.state with
  | none => p.toClose conn cause
  | some current =>
    if conn ∉ (p.states current).all then p else (p.removeConn current conn cause).toClose conn cause

/-- The connections that `closeState` is about to close. -/
def closeState (p : ConnPool T) (current : Nat) : ConnPool T :=
  { p with closing := p.closing ++ (p.states current).all.keys.map (·, .errClosed) }

def reset (p : ConnPool T) : ConnPool T :=
  match p.state with
  | none => p
  | some current =>
    { p.closeState current with
      state := some p.nextState
      states := Function.update p.states p.nextState {}
      nextState := p.nextState + 1 }

def close (p : ConnPool T) : ConnPool T :=
  match p.state with
  | none => p
  | some current => { p.closeState current with state := none }

/-- The head of the loops of `acquireOrdered` and `acquireShared`. -/
def look (p : ConnPool T) (k : Nat) (alive : Bool) : ConnPool T :=
  match p.state, p.mode with
  | none, _ => p.setCall k (.failed .errClosed)
  | some current, .ordered => p.acquireOrdered k current alive
  | some current, .single => p.acquireShared k current alive

end ConnPool

inductive PoolOp (T : Type) where
  | acquire (k : Nat)
  | acquireShared (k : Nat)
  | look (k : Nat) (alive : Bool)
  | slot (k : Nat) (err : Option PoolError)
  | dialOrdered (k : Nat) (result : Except PoolError T) (cause : Option PoolError)
  | install (k : Nat)
  | dialSingle (c : Nat) (result : Except PoolError T) (cause : Option PoolError)
  | connect (c : Nat)
  | done (c : Nat)
  | collect (k : Nat) (alive : Bool)
  | cancelled (k : Nat) (err : PoolError)
  | replaced (k : Nat)
  | release (k : Nat) (reuse alive : Bool)
  | invalidate (conn : T) (cause : PoolError)
  | reset
  | close
  | cancelState (current : Nat)
  | pass (entry : T × PoolError)

namespace ConnPool

/-- The steps that can be taken: a call takes those of its phase, and gives back what
it was given once. -/
def step (p : ConnPool T) : PoolOp T → Option (ConnPool T)
  | .acquire k =>
    match p.calls k with
    | .unused => some (p.setCall k .looking)
    | _ => none
  | .acquireShared k =>
    match p.calls k with
    | .unused => some (p.setCall k (if p.mode = .single then .looking else .failed .errClosed))
    | _ => none
  | .look k alive =>
    match p.calls k with
    | .looking => some (p.look k alive)
    | _ => none
  | .slot k err =>
    match p.calls k with
    | .slot current => p.acquireSlot k current err
    | _ => none
  | .dialOrdered k result cause =>
    match p.calls k with
    | .dialing current => some (p.dialOrdered k current result cause)
    | _ => none
  | .install k =>
    match p.calls k with
    | .dialed current conn => some (p.installOrdered k current conn)
    | _ => none
  | .dialSingle c result cause =>
    match (p.connects c).phase with
    | .dialing => some (p.dialSingle c result cause)
    | _ => none
  | .connect c =>
    match (p.connects c).phase with
    | .dialed result => some (p.connectSingle c result)
    | _ => none
  | .done c =>
    match (p.connects c).phase with
    | .finished => some (p.modifyConnect c fun it => { it with done := true })
    | _ => none
  | .collect k alive =>
    match p.calls k with
    | .waiting current c startDial =>
      if (p.connects c).done then some (p.collectShared k current c startDial alive) else none
    | _ => none
  -- the context of the caller is done
  | .cancelled k err =>
    match p.calls k with
    | .waiting _ _ _ => some (p.setCall k (.failed err))
    | _ => none
  -- the context of the state is done
  | .replaced k =>
    match p.calls k with
    | .waiting current _ _ =>
      if (p.states current).cancelled then some (p.setCall k (if p.state = none then .failed .errClosed else .looking))
      else none
    | _ => none
  | .release k reuse alive =>
    match p.calls k with
    | .returned conn _ created => some ((p.setCall k (.released conn created)).release conn reuse alive)
    | _ => none
  | .invalidate conn cause => some (p.invalidate conn cause)
  | .reset => some p.reset
  | .close => some p.close
  -- `closeState` of a state that is not the pool's any more
  | .cancelState current =>
    if p.state = some current then none else some (p.modifyState current fun state => { state with cancelled := true })
  | .pass entry =>
    if entry ∈ p.closing then some { p with closing := p.closing.erase entry, passed := p.passed ++ [entry] } else none

/-- What a step does, with what it finds. -/
inductive Stepped (p : ConnPool T) : PoolOp T → ConnPool T → Prop
  | acquire {k} (hcall : p.calls k = .unused) : Stepped p (.acquire k) (p.setCall k .looking)
  | acquireShared {k} (hcall : p.calls k = .unused) :
    Stepped p (.acquireShared k) (p.setCall k (if p.mode = .single then .looking else .failed .errClosed))
  | look {k} (hcall : p.calls k = .looking) (alive) : Stepped p (.look k alive) (p.look k alive)
  | slot {k current} (hcall : p.calls k = .slot current) {err p'} (h : p.acquireSlot k current err = some p') :
    Stepped p (.slot k err) p'
  | dialOrdered {k current} (hcall : p.calls k = .dialing current) (result cause) :
    Stepped p (.dialOrdered k result cause) (p.dialOrdered k current result cause)
  | install {k current conn} (hcall : p.calls k = .dialed current conn) :
    Stepped p (.install k) (p.installOrdered k current conn)
  | dialSingle {c} (hphase : (p.connects c).phase = .dialing) (result cause) :
    Stepped p (.dialSingle c result cause) (p.dialSingle c result cause)
  | connect {c result} (hphase : (p.connects c).phase = .dialed result) :
    Stepped p (.connect c) (p.connectSingle c result)
  | done {c} (hphase : (p.connects c).phase = .finished) :
    Stepped p (.done c) (p.modifyConnect c fun it => { it with done := true })
  | collect {k current c startDial} (hcall : p.calls k = .waiting current c startDial) (alive) :
    Stepped p (.collect k alive) (p.collectShared k current c startDial alive)
  | cancelled {k current c startDial} (hcall : p.calls k = .waiting current c startDial) (err) :
    Stepped p (.cancelled k err) (p.setCall k (.failed err))
  | replaced {k current c startDial} (hcall : p.calls k = .waiting current c startDial) :
    Stepped p (.replaced k) (p.setCall k (if p.state = none then .failed .errClosed else .looking))
  | release {k conn connCtx created} (hcall : p.calls k = .returned conn connCtx created) (reuse alive) :
    Stepped p (.release k reuse alive) ((p.setCall k (.released conn created)).release conn reuse alive)
  | invalidate (conn cause) : Stepped p (.invalidate conn cause) (p.invalidate conn cause)
  | reset : Stepped p .reset p.reset
  | close : Stepped p .close p.close
  | cancelState (current) :
    Stepped p (.cancelState current) (p.modifyState current fun state => { state with cancelled := true })
  | pass (entry) :
    Stepped p (.pass entry) { p with closing := p.closing.erase entry, passed := p.passed ++ [entry] }

theorem stepped {p p' : ConnPool T} {op : PoolOp T} (hstep : p.step op = some p') : Stepped p op p' := by
  revert hstep
  fun_cases ConnPool.step p op <;> intro hstep
  case case7 hcall => exact .slot hcall hstep
  all_goals
    cases hstep
    try constructor
    try assumption

/-- A dial returns a new connection. -/
def Possible (p : ConnPool T) : PoolOp T → Prop
  | .dialOrdered _ (.ok conn) _ | .dialSingle _ (.ok conn) _ => conn ∉ p.dialed
  | _ => True

def system (T : Type) [DecidableEq T] : System (ConnPool T) (PoolOp T) :=
  .ofPartial (fun p => ∃ mode maxInflight, p = { mode, maxInflight }) step

end ConnPool

end Singlink.Dns
