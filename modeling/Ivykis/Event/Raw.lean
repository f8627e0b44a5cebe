import Mathlib.Algebra.Order.Ring.Int
import Mathlib.Tactic.Common
import Ivykis.Kit.Lts

/-!
# Raw events (`iv_event_raw_posix.c`, `eventfd-linux.h`)

A raw event is a descriptor to which any thread writes, and from which its owner reads. It is an
eventfd, or a pipe if the kernel has no eventfds. `eventfd_in_use` says which of the two is used,
and it is this variable that decides how an event is read, written and closed, not the way in which
the event was made.

One step is one call. Writes that find no room and reads that find nothing fail.
-/

namespace Ivykis

/-- The address of a `struct iv_event_raw`. -/
abbrev RawPtr := ℕ

inductive RawKind where
  | eventfd
  | pipe
  deriving DecidableEq, Repr

/-- The number of descriptors. -/
def RawKind.descriptors : RawKind → ℤ
  | .eventfd => 1
  | .pipe    => 2

/-- What a raw event writes to and reads from. -/
structure RawChannel where
  kind  : RawKind
  /-- The value of the eventfd, or the number of bytes in the pipe. -/
  count : ℕ
  deriving DecidableEq, Repr

/-- The result of a system call that makes an eventfd. -/
inductive EventfdResult where
  | fd
  | einval
  | enosys
  /-- Any other error. -/
  | error
  deriving DecidableEq, Repr

structure RawState where
  /-- `eventfd_in_use`. -/
  inUse   : ℕ
  channel : RawPtr → Option RawChannel
  /-- The descriptors that have been opened for an event, less those that have been closed. -/
  opened  : RawPtr → ℤ

/-- `eventfd_grab`, and `eventfd_in_use` after it. -/
def eventfdGrab (eventfd2 eventfd : EventfdResult) (inUse : ℕ) : EventfdResult × ℕ :=
  if inUse = 2 ∧ (eventfd2 = .fd ∨ eventfd2 = .error) then (eventfd2, 2)
  else if inUse ≠ 0 ∧ eventfd ≠ .enosys then (if eventfd = .fd then .fd else .error, 1)
  else (.enosys, 0)

def RawState.openChannel (st : RawState) (this : RawPtr) (kind : RawKind) : RawState :=
  { st with
    channel := Function.update st.channel this (some ⟨kind, 0⟩)
    opened  := Function.update st.opened this (st.opened this + kind.descriptors) }

/-- The first part of `iv_event_raw_register`. -/
def RawState.grab (st : RawState) (eventfd2 eventfd : EventfdResult) : EventfdResult × ℕ :=
  if st.inUse ≠ 0 then eventfdGrab eventfd2 eventfd st.inUse else (.enosys, 0)

/-- `iv_event_raw_register`. -/
def ivEventRawRegister (st : RawState) (this : RawPtr) (eventfd2 eventfd : EventfdResult)
    (pipe : Bool) : ℤ × RawState :=
  let st' := { st with inUse := (st.grab eventfd2 eventfd).2 }
  match (st.grab eventfd2 eventfd).1 with
  | .fd     => (0, st'.openChannel this .eventfd)
  | .enosys => if pipe then (0, st'.openChannel this .pipe) else (-1, st')
  | _       => (-1, st')

/-- `iv_event_raw_unregister`. -/
def ivEventRawUnregister (st : RawState) (this : RawPtr) : RawState :=
  { st with
    channel := Function.update st.channel this none
    opened  := Function.update st.opened this (st.opened this - if st.inUse = 0 then 2 else 1) }

/-- The `write` of `iv_event_raw_post`, with room for `size` bytes in a pipe. -/
def RawChannel.write (size inUse : ℕ) (c : RawChannel) : RawChannel :=
  match c.kind, inUse with
  -- an eventfd takes eight bytes, a number to be added to its value
  | .eventfd, 0     => c
  | .eventfd, _ + 1 => if c.count < 2 ^ 64 - 2 then { c with count := c.count + 1 } else c
  | .pipe, 0        => if c.count < size then { c with count := c.count + 1 } else c
  | .pipe, _ + 1    => if c.count + 8 ≤ size then { c with count := c.count + 8 } else c

/-- The `read` of `iv_event_raw_got_event`; `none` stands for `EAGAIN`. -/
def RawChannel.read (inUse : ℕ) (c : RawChannel) : Option RawChannel :=
  if c.count = 0 then none
  else match c.kind with
    | .eventfd => some { c with count := 0 }
    | .pipe    => some { c with count := c.count - if inUse = 0 then 1024 else 8 }

inductive RawLabel where
  | register (this : RawPtr) (eventfd2 eventfd : EventfdResult) (pipe : Bool)
  | unregister (this : RawPtr)
  /-- `iv_event_raw_post`, in any thread. -/
  | post (this : RawPtr)
  /-- `iv_event_raw_got_event`, and whether it calls the handler. -/
  | gotEvent (this : RawPtr) (called : Bool)
  deriving DecidableEq, Repr

/-- The system calls that there are, and the size of a pipe. -/
structure RawKernel where
  eventfd2 : Bool
  eventfd  : Bool
  pipeSize : ℕ

def rawStep (K : RawKernel) (st : RawState) : RawLabel → Option RawState
  | .register this eventfd2 eventfd pipe =>
    if st.channel this = none then some (ivEventRawRegister st this eventfd2 eventfd pipe).2
    else none
  | .unregister this => (st.channel this).map fun _ => ivEventRawUnregister st this
  | .post this =>
    (st.channel this).map fun c =>
      { st with channel := Function.update st.channel this (some (c.write K.pipeSize st.inUse)) }
  | .gotEvent this true =>
    ((st.channel this).bind (·.read st.inUse)).map fun c =>
      { st with channel := Function.update st.channel this (some c) }
  | .gotEvent this false =>
    (st.channel this).bind fun c => if c.read st.inUse = none then some st else none

/-- The kernel has a system call or does not have it. -/
def RawKernel.answers (K : RawKernel) : RawLabel → Prop
  | .register _ eventfd2 eventfd _ =>
    (eventfd2 = .einval ∨ eventfd2 = .enosys ↔ K.eventfd2 = false) ∧
      (eventfd = .enosys ↔ K.eventfd = false)
  | _ => True

instance (K : RawKernel) : DecidablePred K.answers
  | .register _ _ _ _                      => inferInstanceAs (Decidable (_ ∧ _))
  | .unregister _ | .post _ | .gotEvent _ _ => isTrue trivial

/-- The raw events of a process. -/
def rawLts (K : RawKernel) : Kit.Lts RawState RawLabel where
  init := ⟨2, fun _ => none, fun _ => 0⟩
  step st a := if K.answers a then rawStep K st a else none

/-! ### The invariant -/

variable {K : RawKernel} {st st' : RawState} {this : RawPtr} {a : RawLabel} {tr : List RawLabel}

/-- Events are made as `eventfd_in_use` says. It changes only if the kernel lacks a system call, and
then no event has been made with it. -/
structure RawOk (K : RawKernel) (st : RawState) : Prop where
  two : st.inUse ≠ 2 → K.eventfd2 = false
  zero : st.inUse = 0 → K.eventfd = false
  eventfd : ∀ this c, st.channel this = some c → c.kind = .eventfd →
    K.eventfd2 = true ∨ K.eventfd = true
  pipe : ∀ this c, st.channel this = some c → c.kind = .pipe → st.inUse = 0
  opened : ∀ this, st.opened this = (st.channel this).elim 0 (·.kind.descriptors)

/-- The way in which an event is used is the way in which it was made. -/
lemma RawOk.kind_eq (h : RawOk K st) {c : RawChannel} (hc : st.channel this = some c) :
    c.kind = if st.inUse = 0 then .pipe else .eventfd := by
  cases hkind : c.kind with
  | eventfd =>
    have hhas := h.eventfd this c hc hkind
    split_ifs with hzero
    · simp [h.two (by omega), h.zero hzero] at hhas
    · rfl
  | pipe => rw [if_pos (h.pipe this c hc hkind)]

/-- No pipe is used as long as the kernel makes eventfds. -/
lemma eventfdGrab_spec {eventfd2 eventfd ret : EventfdResult} {inUse inUse' : ℕ} {pipe : Bool}
    (hK : K.answers (.register this eventfd2 eventfd pipe)) (hin : inUse ≠ 0)
    (htwo : inUse ≠ 2 → K.eventfd2 = false)
    (h : eventfdGrab eventfd2 eventfd inUse = (ret, inUse')) :
    (inUse' ≠ 2 → K.eventfd2 = false) ∧ (inUse' = 0 → K.eventfd = false) ∧
      (ret = .enosys → inUse' = 0) ∧ (ret = .fd → K.eventfd2 = true ∨ K.eventfd = true) := by
  obtain ⟨hK₂, hK₁⟩ := hK
  unfold eventfdGrab at h
  split_ifs at h with hfirst hsecond
  all_goals
    obtain ⟨rfl, rfl⟩ := Prod.mk.inj h
    cases eventfd2 <;> cases eventfd <;> simp_all

namespace RawOk

/-- What an event writes to is replaced. -/
lemma set {o : Option RawChannel} {n : ℤ} (h : RawOk K st)
    (heventfd : ∀ c, o = some c → c.kind = .eventfd → K.eventfd2 = true ∨ K.eventfd = true)
    (hpipe : ∀ c, o = some c → c.kind = .pipe → st.inUse = 0)
    (hn : n = o.elim 0 (·.kind.descriptors)) :
    RawOk K ⟨st.inUse, Function.update st.channel this o, Function.update st.opened this n⟩ := by
  refine ⟨h.two, h.zero, fun u c hc => ?_, fun u c hc => ?_, fun u => ?_⟩
  all_goals by_cases hu : u = this
  · exact heventfd c (by simpa [hu] using hc)
  · exact h.eventfd u c (by simpa [hu] using hc)
  · exact hpipe c (by simpa [hu] using hc)
  · exact h.pipe u c (by simpa [hu] using hc)
  · simp [hu, hn]
  · simp [hu, h.opened]

lemma openChannel {kind : RawKind} (h : RawOk K st) (hnew : st.channel this = none)
    (heventfd : kind = .eventfd → K.eventfd2 = true ∨ K.eventfd = true)
    (hpipe : kind = .pipe → st.inUse = 0) : RawOk K (st.openChannel this kind) := by
  refine h.set (fun c hc => ?_) (fun c hc => ?_) (by simp [h.opened, hnew])
  all_goals obtain rfl := Option.some.inj hc
  · exact heventfd
  · exact hpipe

/-- A read or a write. -/
lemma update {c c' : RawChannel} (h : RawOk K st) (hc : st.channel this = some c)
    (hkind : c'.kind = c.kind) :
    RawOk K { st with channel := Function.update st.channel this (some c') } := by
  rw [← Function.update_eq_self this st.opened]
  refine h.set (fun d hd hk => ?_) (fun d hd hk => ?_) (by simp [h.opened, hc, hkind])
  all_goals obtain rfl := Option.some.inj hd
  · exact h.eventfd this c hc (hkind ▸ hk)
  · exact h.pipe this c hc (hkind ▸ hk)

/-- If `eventfd_in_use` changes, then no event has been made yet. -/
lemma grab {eventfd2 eventfd ret : EventfdResult} {pipe : Bool} {inUse : ℕ} (h : RawOk K st)
    (hK : K.answers (.register this eventfd2 eventfd pipe))
    (heq : st.grab eventfd2 eventfd = (ret, inUse)) : RawOk K { st with inUse := inUse } ∧
      (ret = .enosys → inUse = 0) ∧ (ret = .fd → K.eventfd2 = true ∨ K.eventfd = true) := by
  unfold RawState.grab at heq
  split_ifs at heq with hin
  · obtain ⟨htwo, hzero, henosys, hfd⟩ := eventfdGrab_spec hK hin h.two heq
    refine ⟨⟨htwo, hzero, h.eventfd, fun u d hd hk => ?_, h.opened⟩, henosys, hfd⟩
    exact absurd (h.pipe u d hd hk) hin
  · obtain ⟨rfl, rfl⟩ := Prod.mk.inj heq
    exact ⟨not_not.mp hin ▸ h, fun _ => rfl, nofun⟩

lemma register {eventfd2 eventfd : EventfdResult} {pipe : Bool} (h : RawOk K st)
    (hK : K.answers (.register this eventfd2 eventfd pipe)) (hnew : st.channel this = none) :
    RawOk K (ivEventRawRegister st this eventfd2 eventfd pipe).2 := by
  obtain ⟨hok, henosys, hfd⟩ := h.grab hK rfl
  unfold ivEventRawRegister
  cases hret : (st.grab eventfd2 eventfd).1 with
  | fd => exact hok.openChannel hnew (fun _ => hfd hret) nofun
  | enosys =>
    cases pipe with
    | true => exact hok.openChannel hnew nofun fun _ => henosys hret
    | false => exact hok
  | einval => exact hok
  | error => exact hok

lemma unregister {c : RawChannel} (h : RawOk K st) (hc : st.channel this = some c) :
    RawOk K (ivEventRawUnregister st this) := by
  refine h.set nofun nofun ?_
  simp only [h.opened, hc, Option.elim_some, Option.elim_none, h.kind_eq hc]
  split_ifs <;> rfl

end RawOk

/-- A write that finds no room leaves what is there to be read. -/
lemma RawChannel.write_count {c : RawChannel} {size inUse : ℕ} (hsize : 0 < size)
    (hkind : c.kind = if inUse = 0 then .pipe else .eventfd) :
    (c.write size inUse).count ≠ 0 ∧ (c.write size inUse).count ≤ c.count + 1 := by
  cases inUse with
  | zero =>
    simp only [write, hkind, if_true]
    split_ifs
    · simp
    · omega
  | succ n =>
    simp only [write, hkind, Nat.succ_ne_zero, if_false]
    split_ifs
    · simp
    · omega

lemma RawChannel.kind_write {c : RawChannel} {size inUse : ℕ} :
    (c.write size inUse).kind = c.kind := by
  unfold write
  split <;> (try split_ifs) <;> rfl

lemma RawChannel.read_eq_some {c c' : RawChannel} {inUse : ℕ} (h : c.read inUse = some c') :
    c'.kind = c.kind ∧ c'.count + 1 ≤ c.count := by
  obtain ⟨kind, count⟩ := c
  obtain ⟨hcount, h⟩ := Option.ite_none_left_eq_some.mp h
  cases kind with
  | eventfd =>
    obtain rfl := Option.some.inj h
    exact ⟨rfl, Nat.pos_of_ne_zero hcount⟩
  | pipe =>
    obtain rfl := Option.some.inj h
    refine ⟨rfl, ?_⟩
    dsimp only at hcount ⊢
    split_ifs <;> omega

/-! ### Runs -/

/-- What there is to be read of an event. -/
def RawState.count (st : RawState) (this : RawPtr) : ℕ :=
  (st.channel this).elim 0 (·.count)

/-- The step answers the posts before it. -/
def RawLabel.settles (this : RawPtr) (a : RawLabel) : Prop :=
  a = .gotEvent this true ∨ a = .unregister this

lemma rawOk_init : RawOk K ⟨2, fun _ => none, fun _ => 0⟩ :=
  ⟨fun h => absurd rfl h, nofun, nofun, nofun, fun _ => rfl⟩

lemma count_update {c : RawChannel} {u : RawPtr} :
    { st with channel := Function.update st.channel this (some c) }.count u =
      if u = this then c.count else st.count u := by
  by_cases hu : u = this <;> simp [RawState.count, hu]

lemma count_register {eventfd2 eventfd : EventfdResult} {pipe : Bool} {u : RawPtr}
    (hnew : st.channel this = none) :
    (ivEventRawRegister st this eventfd2 eventfd pipe).2.count u = st.count u := by
  unfold ivEventRawRegister
  cases (st.grab eventfd2 eventfd).1 <;> cases pipe <;> by_cases hu : u = this <;>
    simp [RawState.count, RawState.openChannel, hu, hnew]

/-- The step changes what there is to be read from `n` to `n'`. A post leaves something, only a call
of the handler takes it away, and only posts add to it. -/
def RawLabel.Tracks (u : RawPtr) (n n' : ℕ) (a : RawLabel) : Prop :=
  (a = .post u ∨ (n ≠ 0 ∧ ¬ a.settles u) → n' ≠ 0) ∧
    n' + (if a = .gotEvent u true then 1 else 0) ≤ n + if a = .post u then 1 else 0

lemma RawLabel.tracks_same {u : RawPtr} {n : ℕ} (hpost : a ≠ .post u)
    (hgot : a ≠ .gotEvent u true) : a.Tracks u n n :=
  ⟨fun ha => (ha.resolve_left hpost).1, by simp [hpost, hgot]⟩

lemma RawOk.step (h : RawOk K st) (hsize : 0 < K.pipeSize) (hK : K.answers a)
    (hstep : rawStep K st a = some st') (u : RawPtr) :
    RawOk K st' ∧ a.Tracks u (st.count u) (st'.count u) := by
  cases a with
  | register this eventfd2 eventfd pipe =>
    obtain ⟨hnew, hst⟩ := Option.ite_none_right_eq_some.mp hstep
    obtain rfl := Option.some.inj hst
    rw [count_register hnew]
    exact ⟨h.register hK hnew, RawLabel.tracks_same nofun nofun⟩
  | unregister this =>
    obtain ⟨c, hc, rfl⟩ := Option.map_eq_some_iff.mp hstep
    refine ⟨h.unregister hc, ?_⟩
    by_cases hu : u = this
    · simp [RawLabel.Tracks, RawLabel.settles, RawState.count, ivEventRawUnregister, hu]
    · have heq : (ivEventRawUnregister st this).count u = st.count u := by
        simp [RawState.count, ivEventRawUnregister, hu]
      rw [heq]
      exact RawLabel.tracks_same nofun nofun
  | post this =>
    obtain ⟨c, hc, rfl⟩ := Option.map_eq_some_iff.mp hstep
    refine ⟨h.update hc RawChannel.kind_write, ?_⟩
    rw [count_update]
    split_ifs with hu
    · subst hu
      obtain ⟨hne, hle⟩ := RawChannel.write_count hsize (h.kind_eq hc)
      exact ⟨fun _ => hne, by simpa [RawState.count, hc] using hle⟩
    · exact RawLabel.tracks_same (by simp [Ne.symm hu]) nofun
  | gotEvent this called =>
    cases called with
    | true =>
      obtain ⟨c', hread, rfl⟩ := Option.map_eq_some_iff.mp hstep
      obtain ⟨c, hc, hread⟩ := Option.bind_eq_some_iff.mp hread
      obtain ⟨hkind, hlt⟩ := RawChannel.read_eq_some hread
      refine ⟨h.update hc hkind, ?_⟩
      rw [count_update]
      split_ifs with hu
      · subst hu
        simpa [RawLabel.Tracks, RawLabel.settles, RawState.count, hc] using hlt
      · exact RawLabel.tracks_same nofun (by simp [Ne.symm hu])
    | false =>
      obtain ⟨c, -, hst⟩ := Option.bind_eq_some_iff.mp hstep
      obtain rfl := Option.some.inj (Option.ite_none_right_eq_some.mp hst).2
      exact ⟨h, RawLabel.tracks_same nofun nofun⟩

/-- No post of a raw event is lost, with an eventfd and with a pipe, even one that is full. As long
as a post has not been followed by a call of the handler, the descriptor can be read, and
`iv_event_raw_got_event` then calls the handler. There are no more of these calls than posts.
Every descriptor that is opened for the event is closed once, when it is unregistered. -/
theorem rawEvent_noLostPost (hsize : 0 < K.pipeSize) (h : (rawLts K).Run tr st) (this : RawPtr) :
    (Kit.Lts.Owed (· = .post this) (RawLabel.settles this) tr →
      (∃ st', rawStep K st (.gotEvent this true) = some st') ∧
        rawStep K st (.gotEvent this false) = none) ∧
    tr.countP (· = .gotEvent this true) ≤ tr.countP (· = .post this) ∧
    st.opened this = (st.channel this).elim 0 (·.kind.descriptors) := by
  obtain ⟨hok, howed, hcount⟩ := h.induct (P := fun tr st => RawOk K st ∧
    (Kit.Lts.Owed (· = .post this) (RawLabel.settles this) tr → st.count this ≠ 0) ∧
    st.count this + tr.countP (· = .gotEvent this true) ≤ tr.countP (· = .post this))
    ⟨rawOk_init, fun ho => absurd ho Kit.Lts.not_owed_nil, by exact Nat.le_refl 0⟩ (by
      rintro tr s a s' - ⟨hok, howed, hcount⟩ hstep
      obtain ⟨hK, hstep⟩ := Option.ite_none_right_eq_some.mp hstep
      obtain ⟨hok', hkeep, hle⟩ := hok.step hsize hK hstep this
      refine ⟨hok', fun ho => hkeep ?_, ?_⟩
      · exact (Kit.Lts.owed_snoc.mp ho).imp_right fun ho => ⟨howed ho.1, ho.2⟩
      · simp only [List.countP_append, List.countP_singleton, decide_eq_true_eq]
        omega)
  refine ⟨fun ho => ?_, by omega, hok.opened this⟩
  have hne := howed ho
  cases hc : st.channel this with
  | none => simp [RawState.count, hc] at hne
  | some c =>
    have hread : ∃ c', c.read st.inUse = some c' := by
      simp only [RawState.count, hc, Option.elim_some] at hne
      unfold RawChannel.read
      cases c.kind <;> simp [hne]
    obtain ⟨c', hc'⟩ := hread
    simp [rawStep, hc, hc']

/-- A pipe with room for one byte. -/
def fullPipe : List RawLabel :=
  [.register 0 .enosys .enosys true, .post 0, .post 0]

theorem rawEvent_noLostPost_fullPipe : ∃ st, (rawLts ⟨false, false, 1⟩).Run fullPipe st ∧
    ∃ st', rawStep ⟨false, false, 1⟩ st (.gotEvent 0 true) = some st' := by
  obtain ⟨st, hst⟩ : ∃ st, (rawLts ⟨false, false, 1⟩).Run fullPipe st := ⟨_, rfl⟩
  refine ⟨st, hst, ((rawEvent_noLostPost Nat.one_pos hst 0).1 ?_).1⟩
  exact ⟨[.register 0 .enosys .enosys true], .post 0, [.post 0], rfl, rfl,
    by simp [RawLabel.settles]⟩

end Ivykis
