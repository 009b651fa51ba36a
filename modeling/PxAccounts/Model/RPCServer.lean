import PxAccounts.Lib.Run

/-!
# RPC server life cycle

The owner of an `RPCServer` and the threads it starts take turns in any order, one step at a time;
each step reads or writes `isRunning` at most once.
-/

namespace PxAccounts

namespace RPCServer

/-- Where a server thread stands. -/
inductive Thread
  | settingUp
  /-- Before `instance->isRunning = true`. -/
  | ready
  /-- Before the test of `while (instance->isRunning)`. -/
  | checking
  | polling
  | leaving
  | ended
deriving DecidableEq

/-- The public operations; `destroy` is the destructor. -/
inductive Operation
  | start
  | stop
  | restart
  | destroy
deriving DecidableEq

/-- What the owner goes on with when `stop` returns: `stop` was called for itself, by `restart`, or
by the destructor. -/
inductive After
  | idle
  | start
  | destroy
deriving DecidableEq

/-- Where the owner stands. -/
inductive Owner
  | idle
  /-- In `start`, before it reads `isRunning`. -/
  | starting
  /-- In `start`, before it assigns a new thread to `tServer`. -/
  | assigning
  /-- In `stop`, before it reads `isRunning`. -/
  | stopping (after : After)
  /-- In `stop`, before it writes `isRunning`. -/
  | clearing (after : After)
  /-- In `tServer.join()`. -/
  | joining (after : After)
  /-- In the destructor, before the members are destroyed. -/
  | destroying
  | destroyed
  /-- `std::terminate` was called, since `tServer` was assigned or destroyed while joinable. -/
  | terminated
  /-- `join` threw, since there was no thread to join. -/
  | threw
deriving DecidableEq

end RPCServer

/-- `RPCServer`, with its owner and all the threads started so far. -/
structure RPCServer where
  isRunning : Bool := false
  /-- The thread that `tServer` can join. -/
  tServer : Option ℕ := none
  threads : List RPCServer.Thread := []
  owner : RPCServer.Owner := .idle
  /-- `stop` has returned, and no thread was started since. -/
  stopped : Bool := false
deriving DecidableEq

namespace RPCServer

/-- Who takes the next step. -/
inductive Act
  | call (operation : Operation)
  | owner
  | thread (i : ℕ)
deriving DecidableEq

/-- The owner calls an operation. -/
def call (s : RPCServer) : Operation → RPCServer
  | .start => { s with owner := .starting }
  | .stop => { s with owner := .stopping .idle }
  | .restart => { s with owner := .stopping .start }
  | .destroy => { s with owner := .stopping .destroy }

/-- `stop` returns. -/
def stopReturns (s : RPCServer) (after : After) : RPCServer :=
  { s with
    stopped := true
    owner := match after with
      | .idle => .idle
      | .start => .starting
      | .destroy => .destroying }

/-- `tServer = std::thread(...)`: the new thread is started before `tServer` is assigned. -/
def assign (s : RPCServer) : RPCServer :=
  let s' := { s with threads := s.threads ++ [Thread.settingUp], stopped := false }
  if s.tServer.isSome then { s' with owner := .terminated }
  else { s' with tServer := some s.threads.length, owner := .idle }

/-- `tServer.join()`, which waits for the thread to end. -/
def join (s : RPCServer) (after : After) : Option RPCServer :=
  match s.tServer with
  | none => some { s with owner := .threw }
  | some i =>
    if s.threads[i]? = some .ended then some ({ s with tServer := none }.stopReturns after)
    else none

/-- The next step of `start`, `stop`, `restart` or the destructor. -/
def ownerStep (s : RPCServer) : Option RPCServer :=
  match s.owner with
  | .starting => some { s with owner := if s.isRunning then .idle else .assigning }
  | .assigning => some s.assign
  | .stopping after =>
    some (if s.isRunning then { s with owner := .clearing after } else s.stopReturns after)
  | .clearing after => some { s with isRunning := false, owner := .joining after }
  | .joining after => s.join after
  | .destroying =>
    some { s with owner := if s.tServer.isSome then .terminated else .destroyed }
  | .idle | .destroyed | .terminated | .threw => none

/-- The thread `i` goes on to `t`. -/
def setThread (s : RPCServer) (i : ℕ) (t : Thread) : RPCServer :=
  { s with threads := s.threads.set i t }

/-- The next step of the thread `i`. -/
def threadStep (s : RPCServer) (i : ℕ) : Option RPCServer :=
  match s.threads[i]? with
  | some .settingUp => some (s.setThread i .ready)
  | some .ready => some ({ s with isRunning := true }.setThread i .checking)
  | some .checking => some (s.setThread i (if s.isRunning then .polling else .leaving))
  | some .polling => some (s.setThread i .checking)
  | some .leaving => some (s.setThread i .ended)
  | some .ended | none => none

/-- One step; there is none after `std::terminate`. -/
def step (s : RPCServer) (act : Act) : Option RPCServer :=
  if s.owner = .terminated then none
  else match act with
    | .call operation => if s.owner = .idle then some (s.call operation) else none
    | .owner => s.ownerStep
    | .thread i => s.threadStep i

end RPCServer

end PxAccounts
