import Ivykis.Fd.Basic
import Ivykis.Kit.Lts

/-!
# Dispatch (`iv_fd_poll_and_run`)

One round of `iv_fd_poll_and_run`. The poll method first reports descriptors that are ready, then it
runs pending events, and then the list of active descriptors is worked off. Handlers and event
callbacks are sequences of calls that the environment chooses.
-/

namespace Ivykis

variable {μ : Type}

/-- Where the round stands. -/
inductive DispatchPc where
  /-- In `method->poll`, before and between calls of `iv_fd_make_ready`. -/
  | collecting
  /-- In `method->poll`, where pending events are run. -/
  | events
  /-- At the head of the loop over `active`. -/
  | loop
  /-- Before the test that guards the handler of a band. -/
  | test (fd : FdPtr) (band : Band)
  | handler (fd : FdPtr) (band : Band)
  | done
  deriving DecidableEq

namespace DispatchPc

/-- The place after the handler of a band. -/
def after (fd : FdPtr) : Band → DispatchPc
  | .maskErr => .test fd .maskIn
  | .maskIn  => .test fd .maskOut
  | .maskOut => .loop

/-- The user's code is running. -/
def inUser : DispatchPc → Bool
  | .events      => true
  | .handler _ _ => true
  | _            => false

/-- The descriptor that has been taken from the list last. -/
def current : DispatchPc → Option FdPtr
  | .test fd _    => some fd
  | .handler fd _ => some fd
  | _             => none

end DispatchPc

structure DispatchState (μ : Type) where
  st : FdState μ
  pc : DispatchPc

inductive DispatchLabel where
  /-- The poll method reports bands of a descriptor. -/
  | ready (fd : FdPtr) (bands : Finset Band)
  | collected
  /-- A handler or a callback makes a call. -/
  | op (o : FdOp)
  /-- `method->poll` returns. -/
  | dispatch
  | take (fd : FdPtr)
  | call (fd : FdPtr) (band : Band)
  /-- The bands or the handler say that there is no call to be made. -/
  | skip (fd : FdPtr) (band : Band)
  /-- `st->handled_fd` says that the descriptor must not be looked at any more. -/
  | abandon (fd : FdPtr) (band : Band)
  /-- The handler returns. -/
  | ret
  | finish
  deriving DecidableEq

/-- The loop looks at a field of `p`. -/
def DispatchLabel.reads (p : FdPtr) : DispatchLabel → Bool
  | .take fd   => fd == p
  | .call fd _ => fd == p
  | .skip fd _ => fd == p
  | _          => false

/-- Whether the test for a band gets as far as the bands that were reported. The test for errors
comes first and does not ask for `handled_fd`. -/
def FdState.looks (st : FdState μ) : Band → Bool
  | .maskErr => true
  | _        => st.handledFd.isSome

/-- The handler for a band is due: the band was reported and the handler is set. -/
def Fd.due (fd : Fd) (band : Band) : Bool :=
  decide (band ∈ fd.readyBands) && (fd.handler band).isSome

/-- The steps of a round. Poll methods hand over descriptors that are registered. -/
def dispatchStep (m : PollMethod μ) (s : DispatchState μ) :
    DispatchLabel → Option (DispatchState μ)
  | .ready fd bands =>
    if s.pc = .collecting ∧ (s.st.fds fd).registered = true then
      some { s with st := ivFdMakeReady s.st fd bands }
    else none
  | .collected => if s.pc = .collecting then some { s with pc := .events } else none
  | .op o =>
    if s.pc.inUser then (fdStep m s.st o).map fun st => { s with st := st } else none
  | .dispatch => if s.pc = .events then some { s with pc := .loop } else none
  | .take fd =>
    match s.pc, s.st.active with
    | .loop, p :: active =>
      if p = fd then
        some ⟨{ s.st with active := active, handledFd := some fd }, .test fd .maskErr⟩
      else none
    | _, _ => none
  | .call fd band =>
    if s.pc = .test fd band ∧ s.st.looks band ∧ (s.st.fds fd).due band then
      some { s with pc := .handler fd band }
    else none
  | .skip fd band =>
    if s.pc = .test fd band ∧ s.st.looks band ∧ ¬ (s.st.fds fd).due band then
      some { s with pc := .after fd band }
    else none
  | .abandon fd band =>
    if s.pc = .test fd band ∧ ¬ s.st.looks band then some { s with pc := .after fd band } else none
  | .ret =>
    match s.pc with
    | .handler fd band => some { s with pc := .after fd band }
    | _                => none
  | .finish => if s.pc = .loop ∧ s.st.active = [] then some { s with pc := .done } else none

/-- A round that starts in `st`. No descriptor is on the new list yet. -/
def dispatchLts (m : PollMethod μ) (st : FdState μ) : Kit.Lts (DispatchState μ) DispatchLabel where
  init := ⟨{ st with active := [] }, .collecting⟩
  step := dispatchStep m

/-! ### The steps -/

inductive DispatchStep (m : PollMethod μ) (st : FdState μ) :
    DispatchPc → DispatchLabel → FdState μ → DispatchPc → Prop
  | ready {fd : FdPtr} {bands : Finset Band} (hreg : (st.fds fd).registered = true) :
      DispatchStep m st .collecting (.ready fd bands) (ivFdMakeReady st fd bands) .collecting
  | collected : DispatchStep m st .collecting .collected st .events
  | op {pc : DispatchPc} {o : FdOp} {st' : FdState μ} (huser : pc.inUser = true)
      (hop : FdStep m st o st') : DispatchStep m st pc (.op o) st' pc
  | dispatch : DispatchStep m st .events .dispatch st .loop
  | take {fd : FdPtr} {active : List FdPtr} (hactive : st.active = fd :: active) :
      DispatchStep m st .loop (.take fd) { st with active := active, handledFd := some fd }
        (.test fd .maskErr)
  | call {fd : FdPtr} {band : Band} (hlooks : st.looks band = true)
      (hdue : (st.fds fd).due band = true) :
      DispatchStep m st (.test fd band) (.call fd band) st (.handler fd band)
  | skip {fd : FdPtr} {band : Band} (hlooks : st.looks band = true)
      (hdue : (st.fds fd).due band = false) :
      DispatchStep m st (.test fd band) (.skip fd band) st (.after fd band)
  | abandon {fd : FdPtr} {band : Band} (hlooks : st.looks band = false) :
      DispatchStep m st (.test fd band) (.abandon fd band) st (.after fd band)
  | ret {fd : FdPtr} {band : Band} :
      DispatchStep m st (.handler fd band) .ret st (.after fd band)
  | finish (hactive : st.active = []) : DispatchStep m st .loop .finish st .done

lemma DispatchStep.of_step {m : PollMethod μ} {s s' : DispatchState μ} {a : DispatchLabel}
    (h : dispatchStep m s a = some s') : DispatchStep m s.st s.pc a s'.st s'.pc := by
  obtain ⟨st, pc⟩ := s
  cases a with
  | ready fd bands =>
    obtain ⟨⟨rfl, hreg⟩, rfl⟩ := Option.ite_none_right_eq_some.mp h |>.imp_right Option.some.inj
    exact .ready hreg
  | collected =>
    obtain ⟨rfl, rfl⟩ := Option.ite_none_right_eq_some.mp h |>.imp_right Option.some.inj
    exact .collected
  | op o =>
    obtain ⟨huser, h⟩ := Option.ite_none_right_eq_some.mp h
    obtain ⟨st', hop, rfl⟩ := Option.map_eq_some_iff.mp h
    exact .op huser (.of_step hop)
  | dispatch =>
    obtain ⟨rfl, rfl⟩ := Option.ite_none_right_eq_some.mp h |>.imp_right Option.some.inj
    exact .dispatch
  | take fd =>
    simp only [dispatchStep] at h
    split at h
    · next p active hactive =>
      obtain ⟨rfl, rfl⟩ := Option.ite_none_right_eq_some.mp h |>.imp_right Option.some.inj
      exact .take hactive
    · cases h
  | call fd band =>
    obtain ⟨⟨rfl, hlooks, hdue⟩, rfl⟩ :=
      Option.ite_none_right_eq_some.mp h |>.imp_right Option.some.inj
    exact .call hlooks hdue
  | skip fd band =>
    obtain ⟨⟨rfl, hlooks, hdue⟩, rfl⟩ :=
      Option.ite_none_right_eq_some.mp h |>.imp_right Option.some.inj
    exact .skip hlooks (Bool.not_eq_true _ ▸ hdue)
  | abandon fd band =>
    obtain ⟨⟨rfl, hlooks⟩, rfl⟩ := Option.ite_none_right_eq_some.mp h |>.imp_right Option.some.inj
    exact .abandon (Bool.not_eq_true _ ▸ hlooks)
  | ret =>
    simp only [dispatchStep] at h
    split at h
    · obtain rfl := Option.some.inj h
      exact .ret
    · cases h
  | finish =>
    obtain ⟨⟨rfl, hactive⟩, rfl⟩ := Option.ite_none_right_eq_some.mp h |>.imp_right Option.some.inj
    exact .finish hactive

/-! ### What a round has done so far -/

namespace Dispatch

variable {p : FdPtr} {b : Band} {tr : List DispatchLabel} {a : DispatchLabel}

/-- The poll method has reported the band. -/
def Reported (p : FdPtr) (b : Band) (tr : List DispatchLabel) : Prop :=
  ∃ bands, .ready p bands ∈ tr ∧ b ∈ bands

/-- The descriptor has been unregistered. -/
def Gone (p : FdPtr) (tr : List DispatchLabel) : Prop :=
  ∃ o, .op o ∈ tr ∧ o.unregisters p = true

/-- The bands for which the handlers of `p` have been called. -/
def callsOf (p : FdPtr) (tr : List DispatchLabel) : List Band :=
  tr.filterMap fun
    | .call fd band => if fd = p then some band else none
    | _             => none

/-- The handler of the band has been called, or it was not set when its turn came. -/
def Served (m : PollMethod μ) (st : FdState μ) (p : FdPtr) (b : Band)
    (tr : List DispatchLabel) : Prop :=
  .call p b ∈ tr ∨ ∃ tr₁ tr₂ s, tr = tr₁ ++ .skip p b :: tr₂ ∧ (dispatchLts m st).Run tr₁ s ∧
    (s.st.fds p).handler b = none

@[simp]
lemma reported_snoc :
    Reported p b (tr ++ [a]) ↔ Reported p b tr ∨ ∃ bands, a = .ready p bands ∧ b ∈ bands := by
  simp only [Reported, List.mem_append, List.mem_singleton, or_and_right, exists_or,
    eq_comm (a := a)]

@[simp]
lemma gone_snoc :
    Gone p (tr ++ [a]) ↔ Gone p tr ∨ ∃ o, a = .op o ∧ o.unregisters p = true := by
  simp only [Gone, List.mem_append, List.mem_singleton, or_and_right, exists_or, eq_comm (a := a)]

@[simp]
lemma callsOf_snoc : callsOf p (tr ++ [a]) = callsOf p tr ++ callsOf p [a] := by
  simp only [callsOf, List.filterMap_append]

lemma callsOf_call (p fd : FdPtr) (b : Band) :
    callsOf p [.call fd b] = if fd = p then [b] else [] := by
  by_cases h : fd = p <;> simp [callsOf, h]

lemma callsOf_of_ne (h : ∀ fd band, a ≠ .call fd band) : callsOf p [a] = [] := by
  cases a with
  | call fd band => exact absurd rfl (h fd band)
  | _ => rfl

lemma Served.snoc {m : PollMethod μ} {st : FdState μ} (h : Served m st p b tr)
    (a : DispatchLabel) : Served m st p b (tr ++ [a]) := by
  rcases h with h | ⟨tr₁, tr₂, s, rfl, hrun, hnone⟩
  · exact Or.inl (List.mem_append_left _ h)
  · exact Or.inr ⟨tr₁, tr₂ ++ [a], s, by simp, hrun, hnone⟩

end Dispatch

/-- The bands that are tested before a band. -/
def Band.before : Band → List Band
  | .maskErr => []
  | .maskIn  => [.maskErr]
  | .maskOut => [.maskErr, .maskIn]

/-- The bands of `p` that are behind, once `p` has been taken. -/
def DispatchPc.behind (p : FdPtr) : DispatchPc → List Band
  | .test fd band    => if fd = p then band.before else [.maskErr, .maskIn, .maskOut]
  | .handler fd band => if fd = p then band.before ++ [band] else [.maskErr, .maskIn, .maskOut]
  | _                => [.maskErr, .maskIn, .maskOut]

/-! ### The invariant -/

open Dispatch

/-- What a round has done for `p`, when its labels so far are `tr`. -/
structure DispatchInv (m : PollMethod μ) (st₀ : FdState μ) (p : FdPtr) (tr : List DispatchLabel)
    (st : FdState μ) (pc : DispatchPc) : Prop where
  nodup : st.active.Nodup
  registered : ∀ q ∈ st.active, (st.fds q).registered = true
  early : pc = .collecting → ¬ Gone p tr ∧ .take p ∉ tr
  waiting : p ∈ st.active →
    ¬ Gone p tr ∧ .take p ∉ tr ∧ ∀ b, b ∈ (st.fds p).readyBands ↔ Reported p b tr
  untaken : .take p ∉ tr →
    callsOf p tr = [] ∧ (p ∉ st.active → ¬ Gone p tr → ∀ b, ¬ Reported p b tr)
  once : tr.count (.take p) ≤ 1
  current : pc.current = some p → p ∉ st.active ∧ .take p ∈ tr ∧
    (Gone p tr → st.handledFd = none) ∧
    (¬ Gone p tr → st.handledFd = some p ∧ (st.fds p).registered = true ∧
      ∀ b, b ∈ (st.fds p).readyBands ↔ Reported p b tr)
  first : pc = .test p .maskErr → ¬ Gone p tr
  calls : .take p ∈ tr → (callsOf p tr).Sublist (pc.behind p)
  served : .take p ∈ tr → ¬ Gone p tr → ∀ b ∈ pc.behind p, Reported p b tr → Served m st₀ p b tr
  finished : pc = .done → st.active = []

section Invariant

variable {m : PollMethod μ} {st₀ st st' : FdState μ} {pc pc' : DispatchPc} {p q : FdPtr} {b : Band}
  {tr : List DispatchLabel} {a : DispatchLabel} {bands : Finset Band}

lemma ivFdMakeReady_active_of_mem (h : q ∈ st.active) :
    (ivFdMakeReady st q bands).active = st.active := by
  simp [ivFdMakeReady, h]

lemma ivFdMakeReady_active_of_notMem (h : q ∉ st.active) :
    (ivFdMakeReady st q bands).active = st.active ++ [q] := by
  simp [ivFdMakeReady, h]

lemma ivFdMakeReady_registered (st : FdState μ) (p q : FdPtr) (bands : Finset Band) :
    ((ivFdMakeReady st q bands).fds p).registered = (st.fds p).registered := by
  unfold ivFdMakeReady
  by_cases hpq : p = q
  · subst hpq
    split_ifs <;> simp
  · split_ifs <;> simp [hpq]

lemma ivFdMakeReady_fds_of_ne (h : p ≠ q) : (ivFdMakeReady st q bands).fds p = st.fds p := by
  unfold ivFdMakeReady
  split_ifs <;> simp [h]

/-- A first report replaces what an earlier round has left in `ready_bands`. -/
lemma ivFdMakeReady_readyBands (st : FdState μ) (q : FdPtr) (bands : Finset Band) :
    ((ivFdMakeReady st q bands).fds q).readyBands =
      if q ∈ st.active then (st.fds q).readyBands ∪ bands else bands := by
  unfold ivFdMakeReady
  split_ifs <;> simp

lemma DispatchPc.current_after {fd : FdPtr} (h : (DispatchPc.after fd b).current = some p) :
    fd = p := by
  cases b <;> simp_all [DispatchPc.after, DispatchPc.current]

lemma DispatchPc.behind_after (fd : FdPtr) (b : Band) :
    (DispatchPc.after fd b).behind p = (DispatchPc.handler fd b).behind p := by
  cases b <;> simp [DispatchPc.after, DispatchPc.behind, Band.before]

lemma DispatchPc.after_ne_first (fd : FdPtr) (b : Band) :
    DispatchPc.after fd b ≠ .test p .maskErr := by
  cases b <;> simp [DispatchPc.after]

lemma DispatchPc.after_ne_done (fd : FdPtr) (b : Band) : DispatchPc.after fd b ≠ .done := by
  cases b <;> simp [DispatchPc.after]

lemma DispatchPc.after_ne_collecting (fd : FdPtr) (b : Band) :
    DispatchPc.after fd b ≠ .collecting := by
  cases b <;> simp [DispatchPc.after]

lemma dispatchInv_init (p : FdPtr) :
    DispatchInv m st₀ p [] { st₀ with active := [] } .collecting where
  nodup := List.nodup_nil
  registered := by simp
  early _ := by simp [Gone]
  waiting h := by simp at h
  untaken _ := by simp [callsOf, Reported]
  once := by simp
  current h := by simp [DispatchPc.current] at h
  first h := by simp at h
  calls h := by simp at h
  served h := by simp at h
  finished h := by simp at h

/-- A report during the collection. -/
lemma DispatchInv.ready (h : DispatchInv m st₀ p tr st .collecting)
    (hreg : (st.fds q).registered = true) :
    DispatchInv m st₀ p (tr ++ [.ready q bands]) (ivFdMakeReady st q bands) .collecting := by
  obtain ⟨hgone, htake⟩ := h.early rfl
  have hactive : ∀ x, x ∈ (ivFdMakeReady st q bands).active ↔ x ∈ st.active ∨ x = q := by
    intro x
    by_cases hq : q ∈ st.active
    · rw [ivFdMakeReady_active_of_mem hq]
      exact ⟨Or.inl, fun hx => hx.elim id fun hx => hx ▸ hq⟩
    · simp [ivFdMakeReady_active_of_notMem hq]
  constructor
  case nodup =>
    by_cases hq : q ∈ st.active
    · rw [ivFdMakeReady_active_of_mem hq]
      exact h.nodup
    · rw [ivFdMakeReady_active_of_notMem hq, List.nodup_append_comm]
      exact List.nodup_cons.mpr ⟨hq, h.nodup⟩
  case registered =>
    intro x hx
    rw [ivFdMakeReady_registered]
    rcases (hactive x).mp hx with hx | rfl
    · exact h.registered x hx
    · exact hreg
  case early => simp [hgone, htake]
  case waiting =>
    intro hp
    refine ⟨by simpa using hgone, by simpa using htake, fun b => ?_⟩
    by_cases hpq : p = q
    · subst hpq
      -- a first report finds nothing that was reported before
      rw [ivFdMakeReady_readyBands]
      split_ifs with hmem
      · simp [(h.waiting hmem).2.2 b]
      · simp [(h.untaken htake).2 hmem hgone b]
    · have hmem : p ∈ st.active := ((hactive p).mp hp).resolve_right hpq
      simp [ivFdMakeReady_fds_of_ne hpq, (h.waiting hmem).2.2 b, Ne.symm hpq]
  case untaken =>
    intro _
    refine ⟨?_, fun hp _ b => ?_⟩
    · rw [callsOf_snoc, callsOf_of_ne (by simp), (h.untaken htake).1, List.append_nil]
    · have hne := not_or.mp (mt (hactive p).mpr hp)
      simp [(h.untaken htake).2 hne.1 hgone b, Ne.symm hne.2]
  case once => simpa using h.once
  case current => simp [DispatchPc.current]
  case first => simp
  case calls => simp [htake]
  case served => simp [htake]
  case finished => simp

/-- A step that leaves the descriptors and the list alone. -/
lemma DispatchInv.move (h : DispatchInv m st₀ p tr st pc) (hready : ∀ fd bands, a ≠ .ready fd bands)
    (hop : ∀ o, a ≠ .op o) (htake : ∀ fd, a ≠ .take fd) (hcoll : pc' ≠ .collecting)
    (hfirst : pc' ≠ .test p .maskErr) (hcur : pc'.current = some p → pc.current = some p)
    (huntaken : .take p ∉ tr → callsOf p [a] = [])
    (hcalls : .take p ∈ tr → (callsOf p (tr ++ [a])).Sublist (pc'.behind p))
    (hserved : .take p ∈ tr → ¬ Gone p tr → ∀ b ∈ pc'.behind p, Reported p b tr →
      Served m st₀ p b (tr ++ [a])) (hfin : pc' = .done → st.active = []) :
    DispatchInv m st₀ p (tr ++ [a]) st pc' := by
  have hgone : Gone p (tr ++ [a]) ↔ Gone p tr := by simp [hop]
  have hrep : ∀ b, Reported p b (tr ++ [a]) ↔ Reported p b tr := by simp [hready]
  have htaken : .take p ∈ tr ++ [a] ↔ .take p ∈ tr := by simp [(htake p).symm]
  constructor
  case nodup => exact h.nodup
  case registered => exact h.registered
  case early => exact fun hpc => absurd hpc hcoll
  case waiting => simpa only [hgone, hrep, htaken] using h.waiting
  case untaken =>
    rw [htaken]
    intro ht
    simpa only [hgone, hrep, callsOf_snoc, huntaken ht, List.append_nil] using h.untaken ht
  case once =>
    have := h.once
    rw [List.count_append, List.count_singleton, if_neg (by simpa using htake p)]
    exact this
  case current =>
    simpa only [hgone, hrep, htaken] using fun hpc => h.current (hcur hpc)
  case first => exact fun hpc => absurd hpc hfirst
  case calls => rwa [htaken]
  case served => simpa only [hgone, hrep, htaken] using hserved
  case finished => exact hfin

/-- A call by a handler or a callback. -/
lemma DispatchInv.op {o : FdOp} (h : DispatchInv m st₀ p tr st pc) (huser : pc.inUser = true)
    (hop : FdStep m st o st') : DispatchInv m st₀ p (tr ++ [.op o]) st' pc := by
  have hmem : ∀ x, x ∈ st'.active ↔ x ∈ st.active ∧ o.unregisters x = false :=
    fun x => hop.mem_active h.nodup
  have hgone : Gone p (tr ++ [.op o]) ↔ Gone p tr ∨ o.unregisters p = true := by simp
  have hrep : ∀ b, Reported p b (tr ++ [.op o]) ↔ Reported p b tr := by simp
  have htaken : .take p ∈ tr ++ [.op o] ↔ .take p ∈ tr := by simp
  have hcalls : callsOf p (tr ++ [.op o]) = callsOf p tr := by
    rw [callsOf_snoc, callsOf_of_ne (by simp), List.append_nil]
  constructor
  case nodup => exact hop.active_sublist.nodup h.nodup
  case registered =>
    intro x hx
    obtain ⟨hx, hun⟩ := (hmem x).mp hx
    exact (hop.kept (h.registered x hx) hun).1
  case early =>
    rintro rfl
    simp [DispatchPc.inUser] at huser
  case waiting =>
    intro hp
    obtain ⟨hp, hun⟩ := (hmem p).mp hp
    obtain ⟨hng, htake, hready⟩ := h.waiting hp
    rw [hgone, htaken, (hop.kept (h.registered p hp) hun).2]
    simpa only [hrep, hun, Bool.false_eq_true, or_false] using ⟨hng, htake, hready⟩
  case untaken =>
    rw [htaken, hcalls, hgone]
    intro htake
    refine ⟨(h.untaken htake).1, fun hp hng b => ?_⟩
    obtain ⟨hng, hun⟩ := not_or.mp hng
    rw [hrep]
    exact (h.untaken htake).2 (fun hp' => hp ((hmem p).mpr ⟨hp', Bool.not_eq_true _ ▸ hun⟩)) hng b
  case once => simpa using h.once
  case current =>
    intro hpc
    obtain ⟨hp, htake, hnone, hsome⟩ := h.current hpc
    rw [htaken, hgone, hop.handledFd_eq]
    refine ⟨fun hp' => hp ((hmem p).mp hp').1, htake, fun hg => ?_, fun hng => ?_⟩
    · by_cases hg' : Gone p tr
      · simp [hnone hg']
      · simp [(hsome hg').1, hg.resolve_left hg', Option.filter]
    · obtain ⟨hng, hun⟩ := not_or.mp hng
      obtain ⟨hhandled, hreg, hready⟩ := hsome hng
      obtain ⟨hreg', hready'⟩ := hop.kept hreg (Bool.not_eq_true _ ▸ hun)
      refine ⟨by simp [hhandled, Bool.not_eq_true _ ▸ hun, Option.filter], hreg', fun b => ?_⟩
      rw [hready', hready, hrep]
  case first =>
    rintro rfl
    simp [DispatchPc.inUser] at huser
  case calls =>
    rw [htaken, hcalls]
    exact h.calls
  case served =>
    rw [htaken, hgone]
    intro htake hng b hb hr
    exact (h.served htake (not_or.mp hng).1 b hb ((hrep b).mp hr)).snoc _
  case finished =>
    rintro rfl
    simp [DispatchPc.inUser] at huser

/-- The head of the list is taken. -/
lemma DispatchInv.take {active : List FdPtr} (h : DispatchInv m st₀ p tr st .loop)
    (hactive : st.active = q :: active) :
    DispatchInv m st₀ p (tr ++ [.take q]) { st with active := active, handledFd := some q }
      (.test q .maskErr) := by
  have hnodup := h.nodup
  rw [hactive, List.nodup_cons] at hnodup
  have hgone : Gone p (tr ++ [.take q]) ↔ Gone p tr := by simp
  have hrep : ∀ b, Reported p b (tr ++ [.take q]) ↔ Reported p b tr := by simp
  have hcalls : callsOf p (tr ++ [.take q]) = callsOf p tr := by
    rw [callsOf_snoc, callsOf_of_ne (by simp), List.append_nil]
  have htaken : p ≠ q → (.take p ∈ tr ++ [.take q] ↔ .take p ∈ tr) := by
    intro hne
    simp [hne]
  constructor
  case nodup => exact hnodup.2
  case registered =>
    intro x hx
    exact h.registered x (hactive ▸ List.mem_cons_of_mem q hx)
  case early => simp
  case waiting =>
    intro hp
    have hne : p ≠ q := fun hpq => hnodup.1 (hpq ▸ hp)
    rw [hgone, htaken hne]
    simpa only [hrep] using h.waiting (hactive ▸ List.mem_cons_of_mem q hp)
  case untaken =>
    intro htake
    have hne : p ≠ q := by
      rintro rfl
      simp at htake
    rw [htaken hne] at htake
    rw [hcalls, hgone]
    refine ⟨(h.untaken htake).1, fun hp hng b => ?_⟩
    rw [hrep]
    exact (h.untaken htake).2 (by simpa [hactive, hne] using hp) hng b
  case once =>
    by_cases hpq : q = p
    · subst hpq
      have htake := (h.waiting (hactive ▸ List.mem_cons_self)).2.1
      simp [List.count_eq_zero.mpr htake]
    · simpa [List.count_singleton, hpq] using h.once
  case current =>
    intro hpc
    obtain rfl : q = p := by simpa [DispatchPc.current] using hpc
    have hmem : q ∈ st.active := hactive ▸ List.mem_cons_self
    obtain ⟨hng, -, hready⟩ := h.waiting hmem
    refine ⟨hnodup.1, by simp, fun hg => absurd (hgone.mp hg) hng, fun _ => ⟨rfl, ?_, ?_⟩⟩
    · exact h.registered q hmem
    · simpa only [hrep] using hready
  case first =>
    intro hpc
    obtain ⟨rfl, -⟩ := DispatchPc.test.inj hpc
    rw [hgone]
    exact (h.waiting (hactive ▸ List.mem_cons_self)).1
  case calls =>
    by_cases hpq : q = p
    · subst hpq
      have htake := (h.waiting (hactive ▸ List.mem_cons_self)).2.1
      simp [hcalls, (h.untaken htake).1]
    · rw [htaken (Ne.symm hpq), hcalls]
      simpa [DispatchPc.behind, hpq] using h.calls
  case served =>
    by_cases hpq : q = p
    · simp [hpq, DispatchPc.behind, Band.before]
    · rw [htaken (Ne.symm hpq), hgone]
      intro htake hng b hb hr
      refine (h.served htake hng b ?_ ((hrep b).mp hr)).snoc _
      simpa [DispatchPc.behind, hpq] using hb
  case finished => simp

lemma DispatchInv.call (h : DispatchInv m st₀ p tr st (.test q b)) :
    DispatchInv m st₀ p (tr ++ [.call q b]) st (.handler q b) := by
  refine h.move (by simp) (by simp) (by simp) (by simp) (by simp) id ?_ ?_ ?_ (by simp)
  · intro htake
    rw [callsOf_call, if_neg]
    rintro rfl
    exact htake (h.current rfl).2.1
  · intro htake
    have hsub := h.calls htake
    rw [callsOf_snoc, callsOf_call]
    by_cases hqp : q = p
    · simp only [DispatchPc.behind, hqp, if_true] at hsub ⊢
      exact hsub.append (List.Sublist.refl _)
    · simpa only [DispatchPc.behind, hqp, if_false, List.append_nil] using hsub
  · intro htake hng b' hb' hr
    by_cases hqp : q = p
    · subst hqp
      simp only [DispatchPc.behind, if_true, List.mem_append, List.mem_singleton] at hb'
      rcases hb' with hb' | rfl
      · exact (h.served htake hng b' (by simpa [DispatchPc.behind] using hb') hr).snoc _
      · exact Or.inl (by simp)
    · exact (h.served htake hng b' (by simpa [DispatchPc.behind, hqp] using hb') hr).snoc _

/-- The band is over and done with, by whatever step. -/
lemma DispatchInv.leave (h : DispatchInv m st₀ p tr st pc)
    (hpc : pc = .test q b ∨ pc = .handler q b)
    (hready : ∀ fd bands, a ≠ .ready fd bands) (hop : ∀ o, a ≠ .op o) (htake : ∀ fd, a ≠ .take fd)
    (hcall : ∀ fd band, a ≠ .call fd band)
    (hserved : pc = .test q b → q = p → ¬ Gone p tr → Reported p b tr →
      Served m st₀ p b (tr ++ [a])) :
    DispatchInv m st₀ p (tr ++ [a]) st (.after q b) := by
  have hbehind : ∀ {b'}, b' ∈ (DispatchPc.handler q b).behind p →
      b' ∈ pc.behind p ∨ (pc = .test q b ∧ q = p ∧ b' = b) := by
    intro b' hb'
    rcases hpc with rfl | rfl
    · by_cases hqp : q = p <;> simp_all [DispatchPc.behind]
    · exact Or.inl hb'
  have hsub : (pc.behind p).Sublist ((DispatchPc.handler q b).behind p) := by
    rcases hpc with rfl | rfl
    · by_cases hqp : q = p <;> simp [DispatchPc.behind, hqp]
    · exact List.Sublist.refl _
  refine h.move hready hop htake (DispatchPc.after_ne_collecting q b)
    (DispatchPc.after_ne_first q b) ?_ ?_ ?_ ?_ (fun hdone => absurd hdone
      (DispatchPc.after_ne_done q b))
  · intro hcur
    obtain rfl := DispatchPc.current_after hcur
    rcases hpc with rfl | rfl <;> rfl
  · exact fun _ => callsOf_of_ne hcall
  · intro htaken
    rw [callsOf_snoc, callsOf_of_ne hcall, List.append_nil, DispatchPc.behind_after]
    exact (h.calls htaken).trans hsub
  · intro htaken hng b' hb' hr
    rw [DispatchPc.behind_after] at hb'
    rcases hbehind hb' with hb' | ⟨htest, hqp, rfl⟩
    · exact (h.served htaken hng b' hb' hr).snoc _
    · exact hserved htest hqp hng hr

lemma Fd.handler_eq_none_of_not_due {fd : Fd} (hdue : fd.due b = false) (hb : b ∈ fd.readyBands) :
    fd.handler b = none := by
  simpa [Fd.due, hb] using hdue

/-- While a band of `p` is tested, `handled_fd` tells whether `p` has been unregistered. -/
lemma DispatchInv.looks_iff (h : DispatchInv m st₀ p tr st (.test p b)) :
    st.looks b = true ↔ ¬ Gone p tr := by
  obtain ⟨-, -, hnone, hsome⟩ := h.current rfl
  by_cases hg : Gone p tr
  · cases b with
    | maskErr => exact absurd hg (h.first rfl)
    | maskIn | maskOut => simp [FdState.looks, hnone hg, hg]
  · cases b <;> simp [FdState.looks, (hsome hg).1, hg]

lemma DispatchInv.step {s : DispatchState μ} (hrun : (dispatchLts m st₀).Run tr s)
    (h : DispatchInv m st₀ p tr s.st s.pc) (hstep : DispatchStep m s.st s.pc a st' pc') :
    DispatchInv m st₀ p (tr ++ [a]) st' pc' := by
  obtain ⟨st, pc⟩ := s
  cases hstep with
  | ready hreg => exact h.ready hreg
  | op huser hop => exact h.op huser hop
  | take hactive => exact h.take hactive
  | call hlooks hdue => exact h.call
  | @skip fd band hlooks hdue =>
    refine h.leave (Or.inl rfl) (by simp) (by simp) (by simp) (by simp) ?_
    rintro - rfl hng hr
    have hready := ((h.current rfl).2.2.2 hng).2.2 band
    exact Or.inr ⟨tr, [], _, rfl, hrun, Fd.handler_eq_none_of_not_due hdue (hready.mpr hr)⟩
  | @abandon fd band hlooks =>
    refine h.leave (Or.inl rfl) (by simp) (by simp) (by simp) (by simp) ?_
    rintro - rfl hng hr
    exact absurd (h.looks_iff.mpr hng) (by simp [hlooks])
  | ret => exact h.leave (Or.inr rfl) (by simp) (by simp) (by simp) (by simp) (by simp)
  | finish hactive =>
    exact h.move (by simp) (by simp) (by simp) (by simp) (by simp) id
      (fun _ => rfl) (by simpa [DispatchPc.behind, callsOf_of_ne] using h.calls)
      (fun htake hng b hb hr => (h.served htake hng b hb hr).snoc _) (fun _ => hactive)
  | collected | dispatch =>
    exact h.move (by simp) (by simp) (by simp) (by simp) (by simp) (by simp [DispatchPc.current])
      (fun _ => rfl) (by simpa [DispatchPc.behind, callsOf_of_ne] using h.calls)
      (fun htake hng b hb hr => (h.served htake hng b hb hr).snoc _) (by simp)

lemma dispatchInv_of_run {s : DispatchState μ} (p : FdPtr) (h : (dispatchLts m st₀).Run tr s) :
    DispatchInv m st₀ p tr s.st s.pc := by
  refine Kit.Lts.Run.induct (P := fun tr s => DispatchInv m st₀ p tr s.st s.pc)
    (dispatchInv_init p) ?_ h
  intro tr s a s' hrun ih hstep
  exact ih.step hrun (.of_step hstep)

end Invariant

/-! ### The end of a round -/

section Progress

variable {m : PollMethod μ} {s s' : DispatchState μ} {a : DispatchLabel}

/-- The steps that are not reports and not calls of the user. -/
def DispatchLabel.internal : DispatchLabel → Bool
  | .ready _ _ => false
  | .op _      => false
  | _          => true

def DispatchLabel.isReady : DispatchLabel → Bool
  | .ready _ _ => true
  | _          => false

/-- A bound on the number of internal steps until the loop is at its end or at the next
descriptor. -/
def DispatchPc.work : DispatchPc → ℕ
  | .collecting          => 3
  | .events              => 2
  | .loop                => 1
  | .test _ .maskErr     => 7
  | .handler _ .maskErr  => 6
  | .test _ .maskIn      => 5
  | .handler _ .maskIn   => 4
  | .test _ .maskOut     => 3
  | .handler _ .maskOut  => 2
  | .done                => 0

def DispatchState.work (s : DispatchState μ) : ℕ :=
  7 * s.st.active.length + s.pc.work

lemma DispatchPc.work_after (fd : FdPtr) (b : Band) :
    (DispatchPc.after fd b).work < (DispatchPc.handler fd b).work ∧
      (DispatchPc.handler fd b).work < (DispatchPc.test fd b).work := by
  cases b <;> simp [DispatchPc.after, DispatchPc.work]

lemma dispatchStep_work (h : dispatchStep m s a = some s') :
    s'.work + a.internal.toNat ≤ s.work + 7 * a.isReady.toNat := by
  obtain ⟨st, pc⟩ := s
  obtain ⟨st', pc'⟩ := s'
  have hstep := DispatchStep.of_step h
  simp only [DispatchState.work]
  dsimp only at hstep
  cases hstep with
  | @ready fd bands hreg =>
    by_cases hmem : fd ∈ st.active
    · rw [ivFdMakeReady_active_of_mem hmem]
      exact Nat.le_add_right _ _
    · rw [ivFdMakeReady_active_of_notMem hmem, List.length_append]
      simp only [DispatchLabel.internal, DispatchLabel.isReady, List.length_singleton,
        Bool.toNat_true, Bool.toNat_false]
      omega
  | op huser hop =>
    have := hop.active_sublist.length_le
    simp only [DispatchLabel.internal, DispatchLabel.isReady, Bool.toNat_false]
    omega
  | take hactive =>
    simp only [hactive, List.length_cons, DispatchPc.work, DispatchLabel.internal,
      DispatchLabel.isReady, Bool.toNat_true, Bool.toNat_false]
    omega
  | @call fd band _ _ | @skip fd band _ _ | @abandon fd band _ | @ret fd band =>
    have := DispatchPc.work_after fd band
    simp only [DispatchLabel.internal, DispatchLabel.isReady, Bool.toNat_true, Bool.toNat_false]
    omega
  | collected | dispatch | finish _ =>
    simp [DispatchPc.work, DispatchLabel.internal, DispatchLabel.isReady]

/-- Until the round is over there is a next step. -/
lemma dispatchStep_progress (m : PollMethod μ) (hpc : s.pc ≠ .done) :
    ∃ a, a.internal = true ∧ (dispatchStep m s a).isSome = true := by
  obtain ⟨st, pc⟩ := s
  cases pc with
  | collecting => exact ⟨.collected, rfl, by simp [dispatchStep]⟩
  | events => exact ⟨.dispatch, rfl, by simp [dispatchStep]⟩
  | loop =>
    cases hactive : st.active with
    | nil => exact ⟨.finish, rfl, by simp [dispatchStep, hactive]⟩
    | cons fd active => exact ⟨.take fd, rfl, by simp [dispatchStep, hactive]⟩
  | test fd band =>
    by_cases hlooks : st.looks band = true
    · by_cases hdue : (st.fds fd).due band = true
      · exact ⟨.call fd band, rfl, by simp [dispatchStep, hlooks, hdue]⟩
      · exact ⟨.skip fd band, rfl, by simp [dispatchStep, hlooks, hdue]⟩
    · exact ⟨.abandon fd band, rfl, by simp [dispatchStep, hlooks]⟩
  | handler fd band => exact ⟨.ret, rfl, by simp [dispatchStep]⟩
  | done => exact absurd rfl hpc

end Progress

/-! ### Dispatch is safe -/

/-- What a round, with the labels `tr` so far, has done for the descriptor `p`. -/
structure DispatchSafe (m : PollMethod μ) (st₀ : FdState μ) (p : FdPtr)
    (tr : List DispatchLabel) : Prop where
  takenOnce : tr.count (.take p) ≤ 1
  /-- The handlers are called in this order, and each of them at most once. -/
  inOrder : (callsOf p tr).Sublist [.maskErr, .maskIn, .maskOut]
  /-- Only for a band that has been reported, with a handler that is set at this time. -/
  called : ∀ tr₁ tr₂ b, tr = tr₁ ++ .call p b :: tr₂ → Reported p b tr₁ ∧
    ∃ s, (dispatchLts m st₀).Run tr₁ s ∧ (s.st.fds p).handler b ≠ none
  /-- Once the descriptor is unregistered nobody looks at it. -/
  unread : ∀ tr₁ tr₂ a, tr = tr₁ ++ a :: tr₂ → a.reads p = true → ¬ Gone p tr₁

section Safe

variable {m : PollMethod μ} {st₀ : FdState μ} {tr : List DispatchLabel} {s : DispatchState μ}
  {p : FdPtr}

lemma DispatchInv.not_gone_of_reads {a : DispatchLabel} {s' : DispatchState μ}
    (h : DispatchInv m st₀ p tr s.st s.pc) (hstep : dispatchStep m s a = some s')
    (ha : a.reads p = true) : ¬ Gone p tr := by
  obtain ⟨st, pc⟩ := s
  obtain ⟨st', pc'⟩ := s'
  have hstep := DispatchStep.of_step hstep
  dsimp only at h hstep
  cases hstep with
  | take hactive =>
    obtain rfl := beq_iff_eq.mp ha
    exact (h.waiting (hactive ▸ List.mem_cons_self)).1
  | call hlooks _ | skip hlooks _ =>
    obtain rfl := beq_iff_eq.mp ha
    exact h.looks_iff.mp hlooks
  | _ => cases ha

/-- A band whose handler is due while `p` is handled has been reported. -/
lemma DispatchInv.reported_of_call {b : Band} {s' : DispatchState μ}
    (h : DispatchInv m st₀ p tr s.st s.pc) (hstep : dispatchStep m s (.call p b) = some s') :
    Reported p b tr ∧ (s.st.fds p).handler b ≠ none := by
  have hng := h.not_gone_of_reads hstep (beq_self_eq_true p)
  obtain ⟨st, pc⟩ := s
  obtain ⟨st', pc'⟩ := s'
  have hstep := DispatchStep.of_step hstep
  dsimp only at h hstep
  cases hstep with
  | call hlooks hdue =>
    obtain ⟨hb, hhandler⟩ : b ∈ (st.fds p).readyBands ∧ (st.fds p).handler b ≠ none := by
      simpa [Fd.due, Option.isSome_iff_ne_none] using hdue
    exact ⟨(((h.current rfl).2.2.2 hng).2.2 b).mp hb, hhandler⟩

lemma dispatchSafe_of_run (p : FdPtr) (h : (dispatchLts m st₀).Run tr s) :
    DispatchSafe m st₀ p tr := by
  have hinv := dispatchInv_of_run p h
  constructor
  case takenOnce => exact hinv.once
  case inOrder =>
    by_cases htake : .take p ∈ tr
    · refine (hinv.calls htake).trans ?_
      cases hpc : s.pc with
      | test fd b | handler fd b =>
        by_cases hfd : fd = p
        · cases b <;> simp [DispatchPc.behind, hfd, Band.before]
        · simp [DispatchPc.behind, hfd]
      | _ => exact List.Sublist.refl _
    · simp [(hinv.untaken htake).1]
  case called =>
    rintro tr₁ tr₂ b rfl
    obtain ⟨s₁, s₂, hrun, hstep, -⟩ := Kit.Lts.run_append_cons.mp h
    obtain ⟨hrep, hhandler⟩ := (dispatchInv_of_run p hrun).reported_of_call hstep
    exact ⟨hrep, s₁, hrun, hhandler⟩
  case unread =>
    rintro tr₁ tr₂ a rfl ha
    obtain ⟨s₁, s₂, hrun, hstep, -⟩ := Kit.Lts.run_append_cons.mp h
    exact (dispatchInv_of_run p hrun).not_gone_of_reads hstep ha

/-- At the end of a round all reported bands are served, except for the descriptors that have been
unregistered. -/
lemma served_of_done (p : FdPtr) (h : (dispatchLts m st₀).Run tr s) (hpc : s.pc = .done)
    (hng : ¬ Gone p tr) (b : Band) (hr : Reported p b tr) : Served m st₀ p b tr := by
  have hinv := dispatchInv_of_run p h
  have htake : .take p ∈ tr := by
    by_contra htake
    refine (hinv.untaken htake).2 ?_ hng b hr
    rw [hinv.finished hpc]
    exact List.not_mem_nil
  refine hinv.served htake hng b ?_ hr
  cases b <;> simp [hpc, DispatchPc.behind]

/-- A round of `iv_fd_poll_and_run`, with any poll method and with handlers that make any calls. It
does to every descriptor only what it should; it comes to its end if the handlers do; and by then
the descriptors that are still registered have been served. -/
theorem fdDispatch_safe (h : (dispatchLts m st₀).Run tr s) :
    (∀ p, DispatchSafe m st₀ p tr) ∧
    (s.pc = .done → ∀ p, ¬ Gone p tr → ∀ b, Reported p b tr → Served m st₀ p b tr) ∧
    (s.pc ≠ .done → ∃ a, a.internal = true ∧ (dispatchStep m s a).isSome = true) ∧
    tr.countP DispatchLabel.internal ≤ 3 + 7 * tr.countP DispatchLabel.isReady := by
  refine ⟨fun p => dispatchSafe_of_run p h, fun hpc p => served_of_done p h hpc,
    dispatchStep_progress m, ?_⟩
  have hle := Kit.Lts.exec_countP_le (L := dispatchLts m st₀) (fun _ _ _ => dispatchStep_work) h
  exact (Nat.le_add_left _ _).trans hle

/-- A poll method that keeps nothing. -/
def idleMethod : PollMethod Unit where
  registerFd st _ := .ok st
  unregisterFd _ st _ := .ok st
  notifyFd st _ := .ok st
  notifyFdSync _ st _ := .ok (false, st)
  registerFd_core h := Except.ok.inj h ▸ .refl _
  unregisterFd_core h := Except.ok.inj h ▸ .refl _
  notifyFd_core h := Except.ok.inj h ▸ .refl _
  notifyFdSync_core h := (Prod.mk.inj (Except.ok.inj h)).2 ▸ .refl _

/-- Two registered descriptors with all of their handlers. -/
def twoFds : FdState Unit where
  numobjs := 2
  numfds := 2
  handledFd := none
  fds p := ⟨p, some 1, some 2, some 3, ∅, p == 5 || p == 6, {.maskIn, .maskOut, .maskErr}, ∅⟩
  active := []
  method := ()

/-- The first descriptor is unregistered and registered again by its error handler. -/
def reregistered : List DispatchLabel :=
  [.ready 5 {.maskIn, .maskErr}, .ready 6 {.maskIn}, .collected, .dispatch, .take 5,
    .call 5 .maskErr, .op (.unregister 5 false), .op (.register 5), .ret, .abandon 5 .maskIn,
    .abandon 5 .maskOut, .take 6, .skip 6 .maskErr, .call 6 .maskIn, .ret, .skip 6 .maskOut,
    .finish]

theorem fdDispatch_safe_reregistered :
    ∃ s, (dispatchLts idleMethod twoFds).Run reregistered s ∧ s.pc = .done ∧
      DispatchSafe idleMethod twoFds 5 reregistered ∧
      Served idleMethod twoFds 6 .maskIn reregistered := by
  refine Kit.Lts.exists_run_of_decide (·.pc = .done) (by decide) fun s hrun hpc => ?_
  obtain ⟨hsafe, hserved, -⟩ := fdDispatch_safe hrun
  refine ⟨hpc, hsafe 5, hserved hpc 6 ?_ .maskIn ?_⟩
  · simp [Gone, reregistered, FdOp.unregisters]
  · exact ⟨{.maskIn}, by simp [reregistered], by simp⟩

end Safe

end Ivykis
