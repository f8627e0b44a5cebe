import Ivykis.Basic
import Ivykis.Kit.Lts

/-!
# Handles on Windows (`iv_handle.c`)

Each registered handle has a poll thread that waits for it. When the handle is signalled, the poll
thread puts it on one of two lists, according to whether it has a handler, and waits for the owner
before it looks at the handle again. The owner waits for `st->wait`, takes the handles that are
active and have a handler, and runs the handlers, which may change or unregister any handle.

One step of the model is one section under `active_handle_list_lock`, one operation on an event, or
a call of the owner that needs no lock. Events are reset by the wait that they end.
-/

namespace Ivykis

/-- The address of a `struct iv_handle_`. -/
abbrev HandlePtr := ℕ

/-- A function that can be a handler. -/
abbrev HandlerFn := ℕ

/-- Where a poll thread is. -/
inductive PollPc where
  /-- It has not been started, or has ended. -/
  | gone
  | start
  /-- It has left the lock, and is going to wait for `num` objects. -/
  | left (num : ℕ) (sig : Bool)
  | waiting (num : ℕ)
  /-- The wait has returned `WAIT_OBJECT_0 + ret`. -/
  | woken (ret : ℕ)
  /-- It has left the loop, and is going to set `thread_stop`. -/
  | stopping
  deriving DecidableEq, Repr

/-- Where the owner is in `iv_handle_poll_and_run`. -/
inductive OwnerPc where
  | outside
  /-- It waits for `st->wait`. -/
  | waiting
  /-- The wait has ended. -/
  | woken
  /-- In the loop over `handles`. -/
  | loop
  /-- In the handler of `h`. -/
  | handler (h : HandlePtr)
  deriving DecidableEq, Repr

/-- The handles, their poll threads, and the handle part of the owner's `struct iv_state`. -/
structure HandleState where
  /-- `!iv_list_empty(&h->list)`. -/
  registered    : HandlePtr → Bool
  handler       : HandlePtr → Option HandlerFn
  /-- The state of `h->signal_handle`. -/
  signalHandle  : HandlePtr → Bool
  poll          : HandlePtr → PollPc
  /-- `active_with_handler`. -/
  withHandler   : List HandlePtr
  /-- `active_without_handler`. -/
  withoutHandler : List HandlePtr
  /-- `handles`, in `iv_handle_poll_and_run`. -/
  handles       : List HandlePtr
  /-- The state of `st->wait`. -/
  wait          : Bool
  /-- The state of `st->thread_stop`. -/
  threadStop    : Bool
  handledHandle : Option HandlePtr
  pc            : OwnerPc
  /-- The owner is in `iv_handle_unregister`, and waits for the poll thread. -/
  unregistering : Option HandlePtr

namespace HandleState

/-- The handles whose `list_active` is not empty. -/
def active (st : HandleState) : List HandlePtr :=
  st.withHandler ++ st.withoutHandler ++ st.handles

/-- `iv_list_del(&h->list_active)`. -/
def unlink (st : HandleState) (h : HandlePtr) : HandleState :=
  { st with
    withHandler    := st.withHandler.erase h
    withoutHandler := st.withoutHandler.erase h
    handles        := st.handles.erase h }

def setPoll (st : HandleState) (h : HandlePtr) (pc : PollPc) : HandleState :=
  { st with poll := Function.update st.poll h pc }

/-- `iv_handle_move_to_list(h, &st->active_with_handler)`. -/
def moveToWith (st : HandleState) (h : HandlePtr) : HandleState :=
  { st.unlink h with withHandler := (st.unlink h).withHandler ++ [h] }

/-- `iv_handle_move_to_list(h, &st->active_without_handler)`. -/
def moveToWithout (st : HandleState) (h : HandlePtr) : HandleState :=
  { st.unlink h with withoutHandler := (st.unlink h).withoutHandler ++ [h] }

/-- User code of the owner is running. -/
def inUserCode (st : HandleState) : Bool :=
  st.unregistering.isNone && match st.pc with
    | .outside | .handler _       => true
    | .waiting | .woken | .loop => false

end HandleState

/-! ### The poll thread -/

/-- The `while` in `iv_handle_poll_thread`, up to where the lock is left. -/
def pollThreadLoop (st : HandleState) (h : HandlePtr) (sig : Bool) : HandleState :=
  if st.registered h then st.setPoll h (.left (if h ∈ st.active then 1 else 2) sig)
  else st.setPoll h .stopping

/-- What the poll thread does under the lock when its wait has returned. -/
def pollThreadWoken (st : HandleState) (h : HandlePtr) (ret : ℕ) : HandleState :=
  if ret = 0 then pollThreadLoop st h false
  else if st.handler h ≠ none then
    pollThreadLoop { st with withHandler := st.withHandler ++ [h] } h st.withHandler.isEmpty
  else pollThreadLoop { st with withoutHandler := st.withoutHandler ++ [h] } h false

/-- The poll thread has left the lock: it sets `st->wait` if it has to, and waits. -/
def pollThreadLeft (st : HandleState) (h : HandlePtr) (num : ℕ) (sig : Bool) : HandleState :=
  { st.setPoll h (.waiting num) with wait := st.wait || sig }

/-! ### The owner -/

/-- `iv_handle_register`, for a handle with this handler. -/
def ivHandleRegister (st : HandleState) (h : HandlePtr) (handler : Option HandlerFn) :
    Except Fault HandleState :=
  if st.registered h then
    .error (.fatal "iv_handle_register: called with handle which is still registered")
  else .ok { st with
    registered   := Function.update st.registered h true
    handler      := Function.update st.handler h handler
    signalHandle := Function.update st.signalHandle h false
    poll         := Function.update st.poll h .start }

/-- `iv_handle_unregister`, up to where it waits in `iv_handle_stop_poll_thread`. -/
def ivHandleUnregister (st : HandleState) (h : HandlePtr) : Except Fault HandleState :=
  if !st.registered h then
    .error (.fatal "iv_handle_unregister: called with handle which is not registered")
  else .ok { st with
    registered    := Function.update st.registered h false
    signalHandle  := Function.update st.signalHandle h true
    unregistering := some h }

/-- The rest of `iv_handle_unregister`, when `thread_stop` has been set. -/
def ivHandleUnregisterRest (st : HandleState) (h : HandlePtr) : HandleState :=
  let st := { st with threadStop := false }
  let st := if h ∈ st.active then st.unlink h else st
  { st with
    handledHandle := if st.handledHandle = some h then none else st.handledHandle
    unregistering := none }

/-- `iv_handle_set_handler`. -/
def ivHandleSetHandler (st : HandleState) (h : HandlePtr) (handler : Option HandlerFn) :
    Except Fault HandleState :=
  if !st.registered h then
    .error (.fatal "iv_handle_set_handler: called with handle which is not registered")
  else
    let st :=
      if h ∈ st.active then
        if st.handler h = none ∧ handler ≠ none then st.moveToWith h
        else if st.handler h ≠ none ∧ handler = none then st.moveToWithout h
        else st
      else st
    .ok { st with handler := Function.update st.handler h handler }

/-- `__iv_list_steal_elements(&st->active_with_handler, &handles)`. -/
def stealHandles (st : HandleState) : HandleState :=
  { st with withHandler := [], handles := st.withHandler, pc := .loop }

/-- `iv_handle_poll_and_run`, up to where it leaves the lock for the first time. -/
def ivHandlePollAndRun (st : HandleState) : HandleState :=
  if st.withHandler.isEmpty then { st with pc := .waiting } else stealHandles st

/-- The body of the loop in `iv_handle_poll_and_run`, up to the call of the handler. -/
def callHandler (st : HandleState) (h : HandlePtr) (rest : List HandlePtr) :
    Except Fault HandleState :=
  match st.handler h with
  | none   => .error .invalidAccess
  | some _ => .ok { st with handles := rest, handledHandle := some h, pc := .handler h }

/-- The rest of the body, when the handler has returned. -/
def handlerReturned (st : HandleState) (h : HandlePtr) : HandleState :=
  if st.handledHandle = some h then
    { st with
      signalHandle  := Function.update st.signalHandle h true
      handledHandle := none
      pc            := .loop }
  else { st with pc := .loop }

/-! ### Runs -/

/-- What the owner and the poll threads do. -/
inductive HandleLabel where
  | register (h : HandlePtr) (handler : Option HandlerFn)
  | unregister (h : HandlePtr)
  /-- The wait for `thread_stop` ends. -/
  | stopped
  | setHandler (h : HandlePtr) (handler : Option HandlerFn)
  | pollAndRun
  /-- The wait for `st->wait` ends because it has been set. -/
  | wake
  /-- It ends for another reason. -/
  | timeout
  | steal
  | call (h : HandlePtr)
  | ret
  | finish
  /-- The poll thread of `h` enters the lock for the first time. -/
  | pollStart (h : HandlePtr)
  | pollLeft (h : HandlePtr)
  /-- Its wait ends; if `ret` is `1` then the handle is signalled. -/
  | pollWake (h : HandlePtr) (ret : ℕ)
  | pollWoken (h : HandlePtr)
  /-- It sets `thread_stop`, and ends. -/
  | pollStop (h : HandlePtr)
  deriving DecidableEq, Repr

/-- The code that runs in a step, if the step can be taken. The owner registers handles that are not
registered, and calls the other functions for handles that are. -/
def handleCode (st : HandleState) : HandleLabel → Option (Except Fault HandleState)
  | .register h handler =>
    if st.inUserCode ∧ !st.registered h then some (ivHandleRegister st h handler) else none
  | .unregister h =>
    if st.inUserCode ∧ st.registered h then some (ivHandleUnregister st h) else none
  | .stopped =>
    match st.unregistering with
    | some h => if st.threadStop then some (.ok (ivHandleUnregisterRest st h)) else none
    | none   => none
  | .setHandler h handler =>
    if st.inUserCode ∧ st.registered h then some (ivHandleSetHandler st h handler) else none
  | .pollAndRun =>
    if st.unregistering = none ∧ st.pc = .outside then some (.ok (ivHandlePollAndRun st)) else none
  | .wake =>
    if st.pc = .waiting ∧ st.wait then some (.ok { st with wait := false, pc := .woken }) else none
  | .timeout => if st.pc = .waiting then some (.ok { st with pc := .woken }) else none
  | .steal => if st.pc = .woken then some (.ok (stealHandles st)) else none
  | .call h =>
    match st.handles with
    | h' :: rest => if st.pc = .loop ∧ h' = h then some (callHandler st h rest) else none
    | []         => none
  | .ret =>
    match st.pc with
    | .handler h => if st.unregistering = none then some (.ok (handlerReturned st h)) else none
    | _          => none
  | .finish =>
    if st.pc = .loop ∧ st.handles = [] then some (.ok { st with pc := .outside }) else none
  | .pollStart h =>
    if st.poll h = .start then some (.ok (pollThreadLoop st h false)) else none
  | .pollLeft h =>
    match st.poll h with
    | .left num sig => some (.ok (pollThreadLeft st h num sig))
    | _             => none
  | .pollWake h ret =>
    match st.poll h with
    | .waiting num =>
      if ret = 0 ∧ st.signalHandle h then
        some (.ok { st.setPoll h (.woken 0) with
          signalHandle := Function.update st.signalHandle h false })
      else if ret = 1 ∧ num = 2 then some (.ok (st.setPoll h (.woken 1)))
      else none
    | _ => none
  | .pollWoken h =>
    match st.poll h with
    | .woken ret => some (.ok (pollThreadWoken st h ret))
    | _          => none
  | .pollStop h =>
    if st.poll h = .stopping then some (.ok { st.setPoll h .gone with threadStop := true })
    else none

/-- `iv_handle_init`. Before they are registered, handles hold whatever they hold. -/
def ivHandleInit (handler : HandlePtr → Option HandlerFn) : HandleState where
  registered _   := false
  handler        := handler
  signalHandle _ := false
  poll _         := .gone
  withHandler    := []
  withoutHandler := []
  handles        := []
  wait           := false
  threadStop     := false
  handledHandle  := none
  pc             := .outside
  unregistering  := none

def handleLts (handler : HandlePtr → Option HandlerFn) : Kit.Lts HandleState HandleLabel where
  init := ivHandleInit handler
  step st a := (handleCode st a).bind Except.toOption

end Ivykis
