import Mathlib.Data.Finset.Basic
import Ivykis.Basic
import Ivykis.Kit.Lts

/-!
# Timers (`iv_timer.c`)

Registered timers are kept in a binary heap whose slots are the leaf slots of a radix tree with
`128` children per node. The tree has `rat_depth` levels above its leaves and grows and shrinks
at powers of `128`. Its first leaf is part of `struct iv_state`, and so is the root pointer: the
two share a union, and `timer_root` is the unused slot `0` of `first_leaf`.

The model has addresses for timers and tree nodes, a store of child slots and the set of live
nodes. Following a pointer that is null, freed or of the wrong kind is a fault, and so are
shifts and sums that C does not define.
-/

namespace Ivykis

/-- `IV_TIMER_SPLIT_BITS`. -/
def timerSplitBits : ℕ := 7

/-- `IV_TIMER_SPLIT_NODES`. -/
def timerSplitNodes : ℕ := 1 <<< timerSplitBits

/-- The address of a `struct iv_timer_`. -/
abbrev TimerPtr := ℕ

/-- The address of a `struct iv_timer_ratnode`. -/
abbrev NodePtr := ℕ

/-- `&st->ratnode.first_leaf`, which is never allocated and never freed. -/
def firstLeaf : NodePtr := 0

/-- What a `void *` of `child[]` can point to. -/
inductive Child where
  | null
  | node (n : NodePtr)
  | timer (t : TimerPtr)
  deriving DecidableEq, Repr

/-- A `struct iv_timer_ **`: the address of one child slot. -/
structure Slot where
  node : NodePtr
  off  : ℕ
  deriving DecidableEq, Repr

/-- `p + 1`. -/
def Slot.next (p : Slot) : Slot := ⟨p.node, p.off + 1⟩

/-- `&st->ratnode.timer_root`. -/
def timerRoot : Slot := ⟨firstLeaf, 0⟩

/-- The timer part of `struct iv_state`, the tree nodes, and the timers themselves. -/
structure TimerState where
  numobjs   : ℤ
  time      : Timespec
  timeValid : Bool
  numTimers : ℕ
  ratDepth  : ℕ
  child     : NodePtr → ℕ → Child
  live      : NodePtr → Bool
  /-- The address that `calloc` hands out next. -/
  brk       : NodePtr
  /-- How many more nodes there is memory for. -/
  avail     : ℕ
  expires   : TimerPtr → Timespec
  index     : TimerPtr → ℤ
  /-- The list `timers` of `iv_run_timers`. -/
  expired   : List TimerPtr

namespace TimerState

/-- Read a child slot. -/
def load (st : TimerState) (p : Slot) : Except Fault Child :=
  if st.live p.node ∧ p.off < timerSplitNodes then .ok (st.child p.node p.off)
  else .error .invalidAccess

/-- `*p = c`, without the checks. -/
def setChild (st : TimerState) (p : Slot) (c : Child) : TimerState :=
  { st with child := fun n j => if n = p.node ∧ j = p.off then c else st.child n j }

/-- Write a child slot. -/
def store (st : TimerState) (p : Slot) (c : Child) : Except Fault TimerState :=
  if st.live p.node ∧ p.off < timerSplitNodes then .ok (st.setChild p c)
  else .error .invalidAccess

/-- Read a child slot whose contents are then followed as a timer. -/
def loadTimer (st : TimerState) (p : Slot) : Except Fault TimerPtr := do
  match ← st.load p with
  | .timer t => .ok t
  | _        => .error .invalidAccess

/-- Read a child slot whose contents are then followed as a tree node. -/
def loadNode (st : TimerState) (p : Slot) : Except Fault NodePtr := do
  match ← st.load p with
  | .node n => .ok n
  | _       => .error .invalidAccess

/-- `t->index = i`. -/
def setIndex (st : TimerState) (t : TimerPtr) (i : ℤ) : TimerState :=
  { st with index := Function.update st.index t i }

/-- The state after `calloc` has handed out a zeroed node at `st.brk`. -/
def calloc (st : TimerState) : TimerState :=
  { st with
    child := fun n j => if n = st.brk then .null else st.child n j
    live  := Function.update st.live st.brk true
    brk   := st.brk + 1
    avail := st.avail - 1 }

/-- `free(n)`. -/
def free (st : TimerState) (n : NodePtr) : Except Fault TimerState :=
  if n ≠ firstLeaf ∧ st.live n then
    .ok { st with live := Function.update st.live n false, avail := st.avail + 1 }
  else .error .invalidFree

end TimerState

/-! ### Internal use -/

/-- `iv_timer_init`, on the zeroed state that `iv_init` allocates. All timers have gone through
`IV_TIMER_INIT`. -/
def ivTimerInit (expires : TimerPtr → Timespec) (avail : ℕ) : TimerState where
  numobjs   := 0
  time      := ⟨0, 0⟩
  timeValid := false
  numTimers := 0
  ratDepth  := 0
  child n j := if n = firstLeaf ∧ j = 0 then .node firstLeaf else .null
  live n    := n == firstLeaf
  brk       := 1
  avail     := avail
  expires   := expires
  index _   := -1
  expired   := []

/-- `iv_get_soonest_timeout`. -/
def ivGetSoonestTimeout (st : TimerState) : Except Fault (Option Timespec) := do
  if st.numTimers ≠ 0 then
    let t ← st.loadTimer ⟨firstLeaf, 1⟩
    .ok (some (st.expires t))
  else .ok none

/-- The loop over the children of a node in `iv_timer_free_ratnode` and in
`iv_timer_radix_tree_remove_level`: at most `k` children from `i` on, up to the first null. -/
def freeChildren (freeChild : TimerState → NodePtr → Except Fault TimerState) (n : NodePtr) :
    ℕ → ℕ → TimerState → Except Fault TimerState
  | 0, _, st => .ok st
  | k + 1, i, st => do
    match ← st.load ⟨n, i⟩ with
    | .null    => .ok st
    | .node c  =>
      let st ← freeChild st c
      freeChildren freeChild n k (i + 1) st
    | .timer _ => .error .invalidAccess

/-- `iv_timer_free_ratnode`. -/
def ivTimerFreeRatnode : ℕ → TimerState → NodePtr → Except Fault TimerState
  | 0, st, n => st.free n
  | depth + 1, st, n => do
    let st ← freeChildren (ivTimerFreeRatnode depth) n timerSplitNodes 0 st
    st.free n

/-- `iv_timer_radix_tree_remove_level`. -/
def ivTimerRadixTreeRemoveLevel (st : TimerState) : Except Fault TimerState := do
  let st := { st with ratDepth := st.ratDepth - 1 }
  let root ← st.loadNode timerRoot
  let st ← freeChildren (ivTimerFreeRatnode st.ratDepth) root (timerSplitNodes - 1) 1 st
  let c ← st.load ⟨root, 0⟩
  let st ← st.store timerRoot c
  st.free root

/-! ### Public use -/

/-- How `iv_timer_allocate_ratnode` fails. -/
def outOfMemory : Fault := .fatal "iv_timer_allocate_ratnode: out of memory"

/-- `iv_timer_allocate_ratnode`. -/
def ivTimerAllocateRatnode (st : TimerState) : Except Fault (NodePtr × TimerState) :=
  if st.avail = 0 then .error outOfMemory else .ok (st.brk, st.calloc)

/-- The first half of `iv_timer_get_node`: put one more level on top of the tree. -/
def getNodeGrow (st : TimerState) : Except Fault TimerState := do
  let st := { st with ratDepth := st.ratDepth + 1 }
  let (r, st) ← ivTimerAllocateRatnode st
  let st ← st.store ⟨r, 0⟩ (← st.load timerRoot)
  st.store timerRoot (.node r)

/-- The loop of `iv_timer_get_node`, from level `i` down to the leaf. -/
def getNodeLoop (index : ℕ) : ℕ → NodePtr → TimerState → Except Fault (NodePtr × TimerState)
  | 0, r, st => .ok (r, st)
  | i + 1, r, st => do
    let bits := (← shiftRight index ((i + 1) * timerSplitBits)) &&& (timerSplitNodes - 1)
    match ← st.load ⟨r, bits⟩ with
    | .null    =>
      let (c, st) ← ivTimerAllocateRatnode st
      let st ← st.store ⟨r, bits⟩ (.node c)
      getNodeLoop index i c st
    | .node c  => getNodeLoop index i c st
    | .timer _ => .error .invalidAccess

/-- `iv_timer_get_node`. -/
def ivTimerGetNode (st : TimerState) (index : ℕ) : Except Fault (Slot × TimerState) := do
  let above ← shiftRight index ((st.ratDepth + 1) * timerSplitBits)
  let st ← if above ≠ 0 then getNodeGrow st else .ok st
  let r ← st.loadNode timerRoot
  let (r, st) ← getNodeLoop index st.ratDepth r st
  .ok (⟨r, index &&& (timerSplitNodes - 1)⟩, st)

/-- `timer_ptr_gt`. -/
def timerPtrGt (st : TimerState) (a b : TimerPtr) : Bool :=
  timespecGt (st.expires a) (st.expires b)

/-- `pull_up`; the first argument bounds the number of iterations. -/
def pullUp : ℕ → TimerState → ℕ → Slot → Except Fault TimerState
  | 0, _, _, _ => .error .stuck
  | fuel + 1, st, index, i => do
    if index = 1 then .ok st
    else
      let parent := index / 2
      let (p, st) ← ivTimerGetNode st parent
      let tp ← st.loadTimer p
      let et ← st.loadTimer i
      if !timerPtrGt st tp et then .ok st
      else
        let st ← st.store i (.timer tp)
        let st ← st.store p (.timer et)
        let st := st.setIndex tp index
        let st := st.setIndex et parent
        pullUp fuel st parent p

/-- `iv_timer_register`. -/
def ivTimerRegister (st : TimerState) (t : TimerPtr) : Except Fault TimerState := do
  if st.index t ≠ -1 then
    .error (.fatal "iv_timer_register: called with timer still on the heap")
  else
    let st := { st with numobjs := st.numobjs + 1 }
    let index ← checkInt (st.numTimers + 1)
    let st := { st with numTimers := index }
    let (p, st) ← ivTimerGetNode st index
    let st ← st.store p (.timer t)
    let st := st.setIndex t index
    pullUp index st index p

/-- The part of `push_down`'s loop that selects the least of a slot and its children. -/
def selectMin (st : TimerState) (index : ℕ) (i : Slot) :
    Except Fault (ℕ × Slot × TimerState) := do
  let left ← checkInt (2 * index)
  if left ≤ st.numTimers then
    let (p, st) ← ivTimerGetNode st left
    let ti ← st.loadTimer i
    let t0 ← st.loadTimer p
    let (indexMin, imin) := if timerPtrGt st ti t0 then (left, p) else (index, i)
    match ← st.load p.next with
    | .null => .ok (indexMin, imin, st)
    | _     =>
      let tm ← st.loadTimer imin
      let t1 ← st.loadTimer p.next
      if timerPtrGt st tm t1 then .ok (left + 1, p.next, st) else .ok (indexMin, imin, st)
  else .ok (index, i, st)

/-- `push_down`; the first argument bounds the number of iterations. -/
def pushDown : ℕ → TimerState → ℕ → Slot → Except Fault TimerState
  | 0, _, _, _ => .error .stuck
  | fuel + 1, st, index, i => do
    let (indexMin, imin, st) ← selectMin st index i
    if index = indexMin then .ok st
    else
      let et ← st.loadTimer i
      let tm ← st.loadTimer imin
      let st ← st.store i (.timer tm)
      let st ← st.store imin (.timer et)
      let st := st.setIndex tm index
      let st := st.setIndex et indexMin
      pushDown fuel st indexMin imin

/-- `iv_timer_unregister` up to the point where the last slot is cleared: `t`'s slot `p` takes
over the timer of the last slot `m`. -/
def unregisterUnlink (st : TimerState) (t : TimerPtr) :
    Except Fault (Slot × Slot × TimerState) := do
  if st.index t > st.numTimers then
    let i := st.index t
    let n := st.numTimers
    .error (.fatal s!"iv_timer_unregister: timer index {i} > {n}")
  else
    let (p, st) ← ivTimerGetNode st (st.index t).toNat
    if (← st.load p) ≠ .timer t then
      .error (.fatal
        "iv_timer_unregister: unregistered timer index belonging to other timer")
    else
      let (m, st) ← ivTimerGetNode st st.numTimers
      let last ← st.loadTimer m
      let st ← st.store p (.timer last)
      let st := st.setIndex last (st.index t)
      let st ← st.store m .null
      .ok (p, m, st)

/-- The condition under which `iv_timer_unregister` removes a level, and the removal. -/
def unregisterShrink (st : TimerState) : Except Fault TimerState := do
  if st.ratDepth > 0 then
    let boundary ← shiftLeftOne (st.ratDepth * timerSplitBits)
    if st.numTimers = boundary then ivTimerRadixTreeRemoveLevel st else .ok st
  else .ok st

/-- `iv_timer_unregister` from the level removal on: restore the heap order around `p`. -/
def unregisterRestore (st : TimerState) (p m : Slot) : Except Fault TimerState := do
  let st := { st with numTimers := st.numTimers - 1 }
  if p ≠ m then
    let t ← st.loadTimer p
    let st ← pullUp (st.index t).toNat st (st.index t).toNat p
    let t ← st.loadTimer p
    pushDown (st.numTimers + 1) st (st.index t).toNat p
  else .ok st

/-- `iv_timer_unregister`. -/
def ivTimerUnregister (st : TimerState) (t : TimerPtr) : Except Fault TimerState := do
  if st.index t = -1 then
    .error (.fatal "iv_timer_unregister: called with timer not on the heap")
  else if st.index t ≠ 0 then
    let (p, m, st) ← unregisterUnlink st t
    let st ← unregisterShrink st
    let st ← unregisterRestore st p m
    let st := { st with numobjs := st.numobjs - 1 }
    .ok (st.setIndex t (-1))
  else
    -- the timer has expired and waits on the list of `iv_run_timers`
    let st := { st with expired := st.expired.erase t }
    .ok (st.setIndex t (-1))

/-- The first loop of `iv_run_timers`: move the timers that are due from the heap to the list
`timers`. The first argument bounds the number of iterations. -/
def runTimersCollect : ℕ → TimerState → Except Fault TimerState
  | 0, _ => .error .stuck
  | fuel + 1, st => do
    if st.numTimers = 0 then .ok st
    else
      let t ← st.loadTimer ⟨firstLeaf, 1⟩
      if st.index t ≠ 1 then
        let i := st.index t
        .error (.fatal s!"iv_run_timers: root timer has heap index {i}")
      else if timespecGt (st.expires t) st.time then .ok st
      else
        let st ← ivTimerUnregister st t
        let st := { st with expired := st.expired ++ [t] }
        runTimersCollect fuel (st.setIndex t 0)

/-! ### Runs -/

/-- What a program does with timers between two rounds of the main loop. -/
inductive TimerOp where
  | register (t : TimerPtr)
  | unregister (t : TimerPtr)
  /-- The user writes `t->expires`. -/
  | setExpires (t : TimerPtr) (e : Timespec)
  deriving DecidableEq, Repr

/-- One operation, made as the manual allows it: a timer is registered when it is off the heap,
unregistered when it is on it, and its expiry time is written only while it is not registered.
The number of timers stays below `cap`. -/
def timerStep (cap : ℕ) (st : TimerState) : TimerOp → Option TimerState
  | .register t =>
    if st.index t = -1 ∧ st.numTimers + 1 < cap then (ivTimerRegister st t).toOption else none
  | .unregister t =>
    if 1 ≤ st.index t then (ivTimerUnregister st t).toOption else none
  | .setExpires t e =>
    if st.index t = -1 then some { st with expires := Function.update st.expires t e } else none

/-- The timers of one thread, with at most `cap - 1` of them registered at any time. -/
def timerLts (cap : ℕ) (expires : TimerPtr → Timespec) (avail : ℕ) :
    Kit.Lts TimerState TimerOp where
  init := ivTimerInit expires avail
  step := timerStep cap

/-- The timers that a sequence of operations has registered and not since unregistered. -/
def registeredTimers : List TimerOp → Finset TimerPtr :=
  List.foldl (fun R op => match op with
    | .register t     => insert t R
    | .unregister t   => R.erase t
    | .setExpires _ _ => R) ∅

end Ivykis
