import Mathlib.Data.List.Nodup
import Mathlib.Data.List.Perm.Basic
import Ivykis.Handle.Basic

/-!
# No handle is lost

A poll thread that makes `active_with_handler` non-empty sets `st->wait` after it has left the lock.
It does not do so if its handle has been unregistered meanwhile; but then the owner is not waiting,
and looks at the list before it waits again.
-/

namespace Ivykis

/-- The poll thread waits, or is going to wait, for the handle. -/
def PollPc.Watches : PollPc → Prop
  | .left num _ => num = 2
  | .waiting num => num = 2
  | .woken ret => ret ≠ 0
  | .gone | .start | .stopping => False

/-- The poll thread waits, or is going to wait, for the owner only. -/
def PollPc.Asleep : PollPc → Prop
  | .left num _ => num ≠ 2
  | .waiting num => num ≠ 2
  | .gone | .start | .woken _ | .stopping => False

namespace HandleState

/-- The handle is registered, or is being unregistered. -/
def Known (st : HandleState) (h : HandlePtr) : Prop :=
  st.registered h = true ∨ st.unregistering = some h

lemma mem_active {st : HandleState} {h : HandlePtr} : h ∈ st.active ↔
    h ∈ st.withHandler ∨ h ∈ st.withoutHandler ∨ h ∈ st.handles := by
  simp [active]

end HandleState

/-- The lists, and the handlers of the handles on them. -/
structure ListsInv (st : HandleState) : Prop where
  nodup   : st.active.Nodup
  with_   : ∀ h ∈ st.withHandler, st.handler h ≠ none
  without : ∀ h ∈ st.withoutHandler, st.handler h = none
  handles : ∀ h ∈ st.handles, st.handler h ≠ none

/-- The poll thread of `h`. -/
structure PollInv (st : HandleState) (h : HandlePtr) : Prop where
  listed   : h ∈ st.active → st.Known h
  watches  : (st.poll h).Watches → h ∉ st.active
  runs     : st.registered h = true → st.poll h ≠ .gone ∧ st.poll h ≠ .stopping
  gone     : ¬ st.Known h → st.poll h = .gone
  /-- A thread that only waits for the owner is going to hear from it. -/
  attended : st.registered h = true → (st.poll h).Asleep →
    h ∈ st.active ∨ st.handledHandle = some h ∨ st.signalHandle h = true

/-- The owner. -/
structure OwnerInv (st : HandleState) : Prop where
  stop     : st.threadStop = true → ∃ h, st.unregistering = some h ∧ st.poll h = .gone
  user     : ∀ h, st.unregistering = some h →
    st.registered h = false ∧ (st.pc = .outside ∨ ∃ h, st.pc = .handler h)
  idle     : st.pc = .outside ∨ st.pc = .waiting ∨ st.pc = .woken → st.handles = []
  handled  : ∀ h, st.handledHandle = some h → st.pc = .handler h
  blocked  : st.pc = .waiting → st.withHandler ≠ [] →
    st.wait = true ∨ ∃ h num, st.poll h = .left num true

structure HandleInv (st : HandleState) : Prop where
  lists : ListsInv st
  polls : ∀ h, PollInv st h
  owner : OwnerInv st

/-! ### Lists -/

section Lists

variable {st : HandleState} {h h' : HandlePtr}

lemma ListsInv.nodups (hl : ListsInv st) :
    st.withHandler.Nodup ∧ st.withoutHandler.Nodup ∧ st.handles.Nodup := by
  have h₁ := List.nodup_append.mp hl.nodup
  have h₂ := List.nodup_append.mp h₁.1
  exact ⟨h₂.1, h₂.2.1, h₁.2.1⟩

lemma ListsInv.mem_unlink (hl : ListsInv st) :
    h' ∈ (st.unlink h).active ↔ h' ≠ h ∧ h' ∈ st.active := by
  obtain ⟨h₁, h₂, h₃⟩ := hl.nodups
  simp only [HandleState.mem_active, HandleState.unlink, h₁.mem_erase_iff, h₂.mem_erase_iff,
    h₃.mem_erase_iff]
  tauto

lemma ListsInv.unlink (hl : ListsInv st) (h : HandlePtr) : ListsInv (st.unlink h) where
  nodup := by
    refine hl.nodup.sublist ?_
    exact ((List.erase_sublist).append List.erase_sublist).append List.erase_sublist
  with_ i hi := hl.with_ i (List.mem_of_mem_erase hi)
  without i hi := hl.without i (List.mem_of_mem_erase hi)
  handles i hi := hl.handles i (List.mem_of_mem_erase hi)

/-- A handle that is on no list is added to `active_with_handler`. -/
lemma ListsInv.addWith (hl : ListsInv st) (hh : h ∉ st.active) (hfn : st.handler h ≠ none) :
    ListsInv { st with withHandler := st.withHandler ++ [h] } where
  nodup := by
    have hperm : List.Perm (st.withHandler ++ [h] ++ st.withoutHandler ++ st.handles)
        (h :: st.active) := by
      simp only [HandleState.active, List.append_assoc]
      exact List.perm_middle
    exact hperm.nodup_iff.mpr (List.nodup_cons.mpr ⟨hh, hl.nodup⟩)
  with_ i hi := by
    rcases List.mem_append.mp hi with hi | hi
    · exact hl.with_ i hi
    · rwa [List.mem_singleton.mp hi]
  without := hl.without
  handles := hl.handles

/-- A handle that is on no list is added to `active_without_handler`. -/
lemma ListsInv.addWithout (hl : ListsInv st) (hh : h ∉ st.active) (hfn : st.handler h = none) :
    ListsInv { st with withoutHandler := st.withoutHandler ++ [h] } where
  nodup := by
    have hperm : List.Perm (st.withHandler ++ (st.withoutHandler ++ [h]) ++ st.handles)
        (h :: st.active) := by
      have hmid : List.Perm ((st.withHandler ++ st.withoutHandler) ++ h :: st.handles)
          (h :: ((st.withHandler ++ st.withoutHandler) ++ st.handles)) := List.perm_middle
      simpa [HandleState.active] using hmid
    exact hperm.nodup_iff.mpr (List.nodup_cons.mpr ⟨hh, hl.nodup⟩)
  with_ := hl.with_
  without i hi := by
    rcases List.mem_append.mp hi with hi | hi
    · exact hl.without i hi
    · rwa [List.mem_singleton.mp hi]
  handles := hl.handles

lemma mem_addWith : h' ∈ { st with withHandler := st.withHandler ++ [h] }.active ↔
    h' = h ∨ h' ∈ st.active := by
  simp only [HandleState.mem_active, List.mem_append, List.mem_singleton]
  tauto

lemma mem_addWithout : h' ∈ { st with withoutHandler := st.withoutHandler ++ [h] }.active ↔
    h' = h ∨ h' ∈ st.active := by
  simp only [HandleState.mem_active, List.mem_append, List.mem_singleton]
  tauto

/-- Handlers of handles on lists are replaced by others, but do not come or go. -/
lemma ListsInv.setHandler (hl : ListsInv st) (fn : Option HandlerFn)
    (hfn : h ∈ st.active → (fn = none ↔ st.handler h = none)) :
    ListsInv { st with handler := Function.update st.handler h fn } := by
  have hiff : ∀ i ∈ st.active,
      (Function.update st.handler h fn i = none ↔ st.handler i = none) := by
    intro i hi
    by_cases hih : i = h
    · subst hih
      rw [Function.update_self]
      exact hfn hi
    · rw [Function.update_of_ne hih]
  refine ⟨hl.nodup, fun i hi => ?_, fun i hi => ?_, fun i hi => ?_⟩
  · exact (hiff i (HandleState.mem_active.mpr (Or.inl hi))).not.mpr (hl.with_ i hi)
  · exact (hiff i (HandleState.mem_active.mpr (Or.inr (Or.inl hi)))).mpr (hl.without i hi)
  · exact (hiff i (HandleState.mem_active.mpr (Or.inr (Or.inr hi)))).not.mpr (hl.handles i hi)

/-- A handle gets a handler. -/
lemma ListsInv.moveToWith (hl : ListsInv st) {fn : Option HandlerFn} (hfn : fn ≠ none) :
    ListsInv { st.moveToWith h with handler := Function.update st.handler h fn } := by
  have hnot : h ∉ (st.unlink h).active := fun hmem => (hl.mem_unlink.mp hmem).1 rfl
  have hset : ListsInv { st.unlink h with handler := Function.update st.handler h fn } :=
    (hl.unlink h).setHandler fn fun hmem => absurd hmem hnot
  refine hset.addWith hnot ?_
  change Function.update st.handler h fn h ≠ none
  rwa [Function.update_self]

/-- A handle loses its handler. -/
lemma ListsInv.moveToWithout (hl : ListsInv st) {fn : Option HandlerFn} (hfn : fn = none) :
    ListsInv { st.moveToWithout h with handler := Function.update st.handler h fn } := by
  have hnot : h ∉ (st.unlink h).active := fun hmem => (hl.mem_unlink.mp hmem).1 rfl
  have hset : ListsInv { st.unlink h with handler := Function.update st.handler h fn } :=
    (hl.unlink h).setHandler fn fun hmem => absurd hmem hnot
  refine hset.addWithout hnot ?_
  change Function.update st.handler h fn h = none
  rwa [Function.update_self]

lemma ListsInv.mem_moveToWith (hl : ListsInv st) (hh : h ∈ st.active) :
    h' ∈ (st.moveToWith h).active ↔ h' ∈ st.active := by
  refine mem_addWith.trans ?_
  rw [hl.mem_unlink]
  by_cases he : h' = h
  · simp [he, hh]
  · simp [he]

lemma ListsInv.mem_moveToWithout (hl : ListsInv st) (hh : h ∈ st.active) :
    h' ∈ (st.moveToWithout h).active ↔ h' ∈ st.active := by
  refine mem_addWithout.trans ?_
  rw [hl.mem_unlink]
  by_cases he : h' = h
  · simp [he, hh]
  · simp [he]

end Lists

/-! ### Poll threads -/

section Poll

variable {st st' : HandleState} {h h' : HandlePtr}

/-- The poll thread of `h` is not concerned. -/
lemma PollInv.congr (hp : PollInv st h) (hreg : st'.registered h = st.registered h)
    (hun : st'.unregistering = some h ↔ st.unregistering = some h)
    (hact : h ∈ st'.active ↔ h ∈ st.active) (hpoll : st'.poll h = st.poll h)
    (hatt : st.handledHandle = some h ∨ st.signalHandle h = true →
      st'.handledHandle = some h ∨ st'.signalHandle h = true) : PollInv st' h := by
  have hknown : st'.Known h ↔ st.Known h := by rw [HandleState.Known, HandleState.Known, hreg, hun]
  refine ⟨fun hm => hknown.mpr (hp.listed (hact.mp hm)), ?_, ?_, ?_, fun hr ha => ?_⟩
  · rw [hpoll, hact]
    exact hp.watches
  · rw [hpoll, hreg]
    exact hp.runs
  · rw [hpoll, hknown]
    exact hp.gone
  · rw [hpoll] at ha
    rw [hreg] at hr
    exact (hp.attended hr ha).imp hact.mpr hatt

lemma PollInv.setPoll (hp : PollInv st h) (hne : h ≠ h') (pc : PollPc) :
    PollInv (st.setPoll h' pc) h :=
  hp.congr rfl Iff.rfl Iff.rfl (Function.update_of_ne hne _ _) id

lemma pollThreadLoop_eq (st : HandleState) (h : HandlePtr) (sig : Bool) :
    ∃ pc, pollThreadLoop st h sig = st.setPoll h pc ∧
    (st.registered h = true ∧ pc = .left (if h ∈ st.active then 1 else 2) sig ∨
      st.registered h = false ∧ pc = .stopping) := by
  rw [pollThreadLoop]
  cases hreg : st.registered h with
  | true => exact ⟨_, rfl, Or.inl ⟨rfl, rfl⟩⟩
  | false => exact ⟨_, rfl, Or.inr ⟨rfl, rfl⟩⟩

/-- The poll thread decides, under the lock, what to wait for. -/
lemma pollInv_loop (st : HandleState) (hl : h ∈ st.active → st.Known h) (hk : st.Known h)
    {pc : PollPc} {sig : Bool}
    (hpc : st.registered h = true ∧ pc = .left (if h ∈ st.active then 1 else 2) sig ∨
      st.registered h = false ∧ pc = .stopping) : PollInv (st.setPoll h pc) h := by
  have hself : (st.setPoll h pc).poll h = pc := Function.update_self ..
  refine ⟨hl, ?_, fun hr => ?_, fun hn => absurd hk hn, fun hr => ?_⟩
  · rw [hself]
    rcases hpc with ⟨-, rfl⟩ | ⟨-, rfl⟩
    · change (if h ∈ st.active then 1 else 2) = 2 → _
      split_ifs with hm
      · intro he
        cases he
      · exact fun _ => hm
    · exact fun he => absurd he id
  · have hr : st.registered h = true := hr
    rcases hpc with ⟨-, rfl⟩ | ⟨hr', -⟩
    · rw [hself]
      simp
    · rw [hr] at hr'
      cases hr'
  · rw [hself]
    rcases hpc with ⟨-, rfl⟩ | ⟨-, rfl⟩
    · change (if h ∈ st.active then 1 else 2) ≠ 2 → _
      split_ifs with hm
      · exact fun _ => Or.inl hm
      · exact fun he => absurd rfl he
    · exact fun he => absurd he id

end Poll

/-! ### Steps -/

namespace HandleInv

variable {st st' : HandleState} {h h' : HandlePtr} {fn : Option HandlerFn}

lemma inUserCode_iff : st.inUserCode = true ↔
    st.unregistering = none ∧ (st.pc = .outside ∨ ∃ h, st.pc = .handler h) := by
  rw [HandleState.inUserCode]
  cases st.pc <;> simp

/-- While user code runs nobody has been told to stop. -/
lemma threadStop_eq (hi : HandleInv st) (hun : st.unregistering = none) :
    st.threadStop = false := by
  by_contra hne
  obtain ⟨h, hh, -⟩ := hi.owner.stop (by simpa using hne)
  rw [hun] at hh
  cases hh

lemma register (hi : HandleInv st) (hu : st.inUserCode) (hreg : st.registered h = false) :
    ∃ st', ivHandleRegister st h fn = .ok st' ∧ HandleInv st' := by
  obtain ⟨hun, hpc⟩ := inUserCode_iff.mp hu
  have hknown : ¬ st.Known h := by
    rintro (hr | hr)
    · rw [hreg] at hr
      cases hr
    · rw [hun] at hr
      cases hr
  have hact : h ∉ st.active := fun hm => hknown ((hi.polls h).listed hm)
  refine ⟨_, by rw [ivHandleRegister, hreg]; rfl, ?_, fun i => ?_, ?_⟩
  · have hl := hi.lists.setHandler (h := h) fn fun hm => absurd hm hact
    exact ⟨hl.nodup, hl.with_, hl.without, hl.handles⟩
  · by_cases hih : i = h
    · subst hih
      refine ⟨fun hm => absurd hm hact, fun hw => ?_, fun _ => ?_, fun hn => ?_, fun _ ha => ?_⟩
      · simp [PollPc.Watches] at hw
      · simp
      · exact absurd (Or.inl (Function.update_self ..)) hn
      · simp [PollPc.Asleep] at ha
    · exact (hi.polls i).congr (Function.update_of_ne hih _ _) Iff.rfl Iff.rfl
        (Function.update_of_ne hih _ _) (by simp [hih])
  · refine ⟨fun hs => ?_, fun j hj => ?_, hi.owner.idle, hi.owner.handled, fun hw => ?_⟩
    · rw [show _ = false from hi.threadStop_eq hun] at hs
      cases hs
    · rw [show _ = none from hun] at hj
      cases hj
    · rcases hpc with hpc | ⟨j, hpc⟩ <;> rw [show _ = _ from hpc] at hw <;> cases hw

lemma unregister (hi : HandleInv st) (hu : st.inUserCode) (hreg : st.registered h = true) :
    ∃ st', ivHandleUnregister st h = .ok st' ∧ HandleInv st' := by
  obtain ⟨hun, hpc⟩ := inUserCode_iff.mp hu
  refine ⟨_, by rw [ivHandleUnregister, hreg]; rfl, ?_, fun i => ?_, ?_⟩
  · exact ⟨hi.lists.nodup, hi.lists.with_, hi.lists.without, hi.lists.handles⟩
  · have hp := hi.polls i
    by_cases hih : i = h
    · subst hih
      refine ⟨fun _ => Or.inr rfl, hp.watches, fun hr => ?_, fun hn => absurd (Or.inr rfl) hn,
        fun hr => ?_⟩
      · simp at hr
      · simp at hr
    · refine hp.congr (Function.update_of_ne hih _ _) ?_ Iff.rfl rfl (by simp [hih])
      simp [hun, Ne.symm hih]
  · refine ⟨fun hs => ?_, fun j hj => ?_, hi.owner.idle, hi.owner.handled, hi.owner.blocked⟩
    · rw [show _ = false from hi.threadStop_eq hun] at hs
      cases hs
    · obtain rfl := Option.some.inj hj
      exact ⟨Function.update_self .., hpc⟩

/-- `iv_handle_unregister` returns: the poll thread is gone, and the handle is on no list. -/
lemma stopped (hi : HandleInv st) (hun : st.unregistering = some h) (hs : st.threadStop = true) :
    HandleInv (ivHandleUnregisterRest st h) := by
  obtain ⟨h₀, hh₀, hgone⟩ := hi.owner.stop hs
  obtain rfl := Option.some.inj (hh₀.symm.trans hun)
  obtain ⟨hreg, hpc⟩ := hi.owner.user h₀ hun
  -- whether or not the handle was on a list
  obtain ⟨w, wo, hs, hst, hlists, hmem, hempty⟩ : ∃ w wo hs, ivHandleUnregisterRest st h₀ =
      { st with
        withHandler := w, withoutHandler := wo, handles := hs, threadStop := false
        handledHandle := if st.handledHandle = some h₀ then none else st.handledHandle
        unregistering := none } ∧
      ListsInv { st with withHandler := w, withoutHandler := wo, handles := hs } ∧
      (∀ i, i ∈ w ++ wo ++ hs ↔ i ≠ h₀ ∧ i ∈ st.active) ∧ (st.handles = [] → hs = []) := by
    by_cases hm : h₀ ∈ st.active
    · refine ⟨_, _, _, ?_, hi.lists.unlink h₀, fun i => hi.lists.mem_unlink, fun he => ?_⟩
      · simp only [ivHandleUnregisterRest,
          if_pos (show h₀ ∈ { st with threadStop := false }.active from hm)]
        rfl
      · rw [he]
        rfl
    · refine ⟨st.withHandler, st.withoutHandler, st.handles, ?_, hi.lists, fun i => ?_, id⟩
      · simp only [ivHandleUnregisterRest,
          if_neg (show h₀ ∉ { st with threadStop := false }.active from hm)]
      · refine ⟨fun hmi => ⟨?_, hmi⟩, fun hmi => hmi.2⟩
        rintro rfl
        exact hm hmi
  rw [hst]
  refine ⟨⟨hlists.nodup, hlists.with_, hlists.without, hlists.handles⟩, fun i => ?_, ?_⟩
  · by_cases hih : i = h₀
    · subst hih
      refine ⟨fun hm => absurd rfl ((hmem i).mp hm).1, fun hw => ?_, fun hr => ?_, fun _ => hgone,
        fun hr => ?_⟩
      · rw [show _ = _ from hgone] at hw
        exact absurd hw id
      · rw [show _ = false from hreg] at hr
        cases hr
      · rw [show _ = false from hreg] at hr
        cases hr
    · refine (hi.polls i).congr rfl ?_ ?_ rfl ?_
      · simp [hun, Ne.symm hih]
      · exact (hmem i).trans (and_iff_right hih)
      · rintro (hh | hh)
        · left
          change (if st.handledHandle = some h₀ then none else st.handledHandle) = some i
          rw [if_neg, hh]
          rw [hh]
          simpa using hih
        · exact Or.inr hh
  · refine ⟨fun hs => ?_, fun j hj => ?_, fun hp => hempty (hi.owner.idle hp), fun j hj => ?_,
      fun hw => ?_⟩
    · cases hs
    · cases hj
    · change (if st.handledHandle = some h₀ then none else st.handledHandle) = some j at hj
      split_ifs at hj
      exact hi.owner.handled j hj
    · rcases hpc with hpc | ⟨j, hpc⟩ <;> rw [show _ = _ from hpc] at hw <;> cases hw

/-- The lists change, but not which handles are on them, and `active_with_handler` only while the
owner is not waiting. -/
lemma relist (hi : HandleInv st) {w wo hs : List HandlePtr} {handler : HandlePtr → Option HandlerFn}
    (hl : ListsInv { st with
      withHandler := w, withoutHandler := wo, handles := hs, handler := handler })
    (hmem : ∀ i, i ∈ w ++ wo ++ hs ↔ i ∈ st.active) (hempty : st.handles = [] → hs = [])
    (hpc : st.pc ≠ .waiting) : HandleInv { st with
      withHandler := w, withoutHandler := wo, handles := hs, handler := handler } where
  lists := hl
  polls i := (hi.polls i).congr rfl Iff.rfl (hmem i) rfl id
  owner := ⟨hi.owner.stop, hi.owner.user, fun hp => hempty (hi.owner.idle hp), hi.owner.handled,
    fun hw => absurd hw hpc⟩

lemma setHandler (hi : HandleInv st) (hu : st.inUserCode) (hreg : st.registered h = true) :
    ∃ st', ivHandleSetHandler st h fn = .ok st' ∧ HandleInv st' := by
  have hpc : st.pc ≠ .waiting := by
    rcases (inUserCode_iff.mp hu).2 with hpc | ⟨j, hpc⟩ <;> simp [hpc]
  have herase : st.handles = [] → st.handles.erase h = [] := by
    intro he
    rw [he]
    rfl
  refine ⟨_, by rw [ivHandleSetHandler, hreg]; rfl, ?_⟩
  by_cases hact : h ∈ st.active
  · rw [if_pos hact]
    split_ifs with hto hfrom
    · exact hi.relist (hi.lists.moveToWith hto.2) (fun i => hi.lists.mem_moveToWith hact)
        herase hpc
    · exact hi.relist (hi.lists.moveToWithout hfrom.2) (fun i => hi.lists.mem_moveToWithout hact)
        herase hpc
    · refine hi.relist (hi.lists.setHandler fn fun _ => ?_) (fun i => Iff.rfl) id hpc
      tauto
  · rw [if_neg hact]
    exact hi.relist (hi.lists.setHandler fn fun hm => absurd hm hact) (fun i => Iff.rfl) id hpc

/-- The owner takes the handles that are active and have a handler. -/
lemma steal (hi : HandleInv st) (hun : st.unregistering = none)
    (hpc : st.pc = .outside ∨ st.pc = .waiting ∨ st.pc = .woken) : HandleInv (stealHandles st) := by
  have hempty := hi.owner.idle hpc
  have hactive : st.active = st.withHandler ++ st.withoutHandler := by
    rw [HandleState.active, hempty, List.append_nil]
  have hperm : List.Perm ([] ++ st.withoutHandler ++ st.withHandler) st.active := by
    rw [hactive]
    exact List.perm_append_comm
  have hnot : ∀ j, st.pc ≠ .handler j := by
    rcases hpc with hpc | hpc | hpc <;> simp [hpc]
  refine ⟨⟨hperm.nodup_iff.mpr hi.lists.nodup, ?_, hi.lists.without, hi.lists.with_⟩,
    fun i => ?_, ?_⟩
  · simp [stealHandles]
  · exact (hi.polls i).congr rfl Iff.rfl hperm.mem_iff rfl id
  · refine ⟨hi.owner.stop, fun j hj => ?_, fun hp => ?_, fun j hj => ?_, fun hw => ?_⟩
    · have hj : st.unregistering = some j := hj
      rw [hun] at hj
      cases hj
    · simp [stealHandles] at hp
    · exact absurd (hi.owner.handled j hj) (hnot j)
    · simp [stealHandles] at hw

/-- While the owner polls, it is not in `iv_handle_unregister`. -/
lemma unregistering_eq (hi : HandleInv st)
    (hpc : st.pc = .waiting ∨ st.pc = .woken ∨ st.pc = .loop) :
    st.unregistering = none := by
  by_contra hne
  obtain ⟨j, hj⟩ := Option.ne_none_iff_exists'.mp hne
  rcases (hi.owner.user j hj).2 with hpc' | ⟨k, hpc'⟩ <;> simp [hpc'] at hpc

lemma pollAndRun (hi : HandleInv st) (hun : st.unregistering = none) (hpc : st.pc = .outside) :
    HandleInv (ivHandlePollAndRun st) := by
  rw [ivHandlePollAndRun]
  split_ifs with hempty
  · refine ⟨⟨hi.lists.nodup, hi.lists.with_, hi.lists.without, hi.lists.handles⟩, fun i => ?_, ?_⟩
    · exact (hi.polls i).congr rfl Iff.rfl Iff.rfl rfl id
    · refine ⟨hi.owner.stop, fun j hj => ?_, fun _ => hi.owner.idle (Or.inl hpc), fun j hj => ?_,
        fun _ hne => absurd (List.isEmpty_iff.mp hempty) hne⟩
      · rw [show _ = none from hun] at hj
        cases hj
      · have := hi.owner.handled j hj
        rw [hpc] at this
        cases this
  · exact hi.steal hun (Or.inl hpc)

/-- The wait for `st->wait` ends. -/
lemma wake (hi : HandleInv st) (hpc : st.pc = .waiting) (wait : Bool) :
    HandleInv { st with wait := wait, pc := .woken } := by
  have hun := hi.unregistering_eq (Or.inl hpc)
  refine ⟨⟨hi.lists.nodup, hi.lists.with_, hi.lists.without, hi.lists.handles⟩, fun i => ?_, ?_⟩
  · exact (hi.polls i).congr rfl Iff.rfl Iff.rfl rfl id
  · refine ⟨hi.owner.stop, fun j hj => ?_, fun _ => hi.owner.idle (Or.inr (Or.inl hpc)),
      fun j hj => ?_, fun hw => ?_⟩
    · rw [show _ = none from hun] at hj
      cases hj
    · have := hi.owner.handled j hj
      rw [hpc] at this
      cases this
    · cases hw

lemma call (hi : HandleInv st) {rest : List HandlePtr} (hpc : st.pc = .loop)
    (hh : st.handles = h :: rest) : ∃ st', callHandler st h rest = .ok st' ∧ HandleInv st' := by
  have hun := hi.unregistering_eq (Or.inr (Or.inr hpc))
  obtain ⟨fn, hfn⟩ := Option.ne_none_iff_exists'.mp
    (hi.lists.handles h (hh ▸ List.mem_cons_self))
  have hperm : List.Perm st.active (h :: (st.withHandler ++ st.withoutHandler ++ rest)) := by
    rw [HandleState.active, hh]
    exact List.perm_middle
  have hnd := hperm.nodup_iff.mp hi.lists.nodup
  refine ⟨{ st with handles := rest, handledHandle := some h, pc := .handler h },
    by rw [callHandler, hfn], ⟨(List.nodup_cons.mp hnd).2, hi.lists.with_, hi.lists.without,
    fun i hi' => hi.lists.handles i (hh ▸ List.mem_cons_of_mem _ hi')⟩, fun i => ?_, ?_⟩
  · by_cases hih : i = h
    · subst hih
      have hp := hi.polls i
      have hmem : i ∈ st.active := hperm.mem_iff.mpr List.mem_cons_self
      exact ⟨fun _ => hp.listed hmem, fun _ => (List.nodup_cons.mp hnd).1, hp.runs, hp.gone,
        fun _ _ => Or.inr (Or.inl rfl)⟩
    · refine (hi.polls i).congr rfl Iff.rfl ?_ rfl ?_
      · rw [hperm.mem_iff, List.mem_cons, or_iff_right hih]
        rfl
      · rintro (hc | hc)
        · have := hi.owner.handled i hc
          rw [hpc] at this
          cases this
        · exact Or.inr hc
  · refine ⟨hi.owner.stop, fun j hj => ?_, fun hp => ?_, fun j hj => ?_, fun hw => ?_⟩
    · rw [show _ = none from hun] at hj
      cases hj
    · simp at hp
    · rw [Option.some.inj hj]
    · cases hw

lemma ret (hi : HandleInv st) (hpc : st.pc = .handler h) (hun : st.unregistering = none) :
    HandleInv (handlerReturned st h) := by
  have hown : ∀ {sh : HandlePtr → Bool} {hh : Option HandlePtr}, (∀ j, hh ≠ some j) →
      OwnerInv { st with signalHandle := sh, handledHandle := hh, pc := .loop } := by
    intro sh hh hne
    refine ⟨hi.owner.stop, fun j hj => ?_, fun hp => ?_, fun j hj => absurd hj (hne j),
      fun hw => ?_⟩
    · rw [show _ = none from hun] at hj
      cases hj
    · simp at hp
    · cases hw
  rw [handlerReturned]
  split_ifs with hhandled
  · refine ⟨⟨hi.lists.nodup, hi.lists.with_, hi.lists.without, hi.lists.handles⟩, fun i => ?_,
      hown (by simp)⟩
    refine (hi.polls i).congr rfl Iff.rfl Iff.rfl rfl ?_
    rintro (hc | hc)
    · obtain rfl := Option.some.inj (hhandled.symm.trans hc)
      exact Or.inr (Function.update_self ..)
    · refine Or.inr ?_
      by_cases hih : i = h
      · rw [hih]
        exact Function.update_self ..
      · exact (Function.update_of_ne hih _ _).trans hc
  · refine ⟨⟨hi.lists.nodup, hi.lists.with_, hi.lists.without, hi.lists.handles⟩, fun i => ?_,
      hown fun j hj => ?_⟩
    · exact (hi.polls i).congr rfl Iff.rfl Iff.rfl rfl id
    · have hj' := hi.owner.handled j hj
      rw [hpc] at hj'
      obtain rfl := OwnerPc.handler.inj hj'
      exact hhandled hj

lemma finish (hi : HandleInv st) (hpc : st.pc = .loop) (hempty : st.handles = []) :
    HandleInv { st with pc := .outside } := by
  refine ⟨⟨hi.lists.nodup, hi.lists.with_, hi.lists.without, hi.lists.handles⟩, fun i => ?_, ?_⟩
  · exact (hi.polls i).congr rfl Iff.rfl Iff.rfl rfl id
  · refine ⟨hi.owner.stop, fun j hj => ⟨(hi.owner.user j hj).1, Or.inl rfl⟩, fun _ => hempty,
      fun j hj => ?_, fun hw => ?_⟩
    · have := hi.owner.handled j hj
      rw [hpc] at this
      cases this
    · cases hw

/-! ### Steps of poll threads -/

lemma known_of_poll (hi : HandleInv st) (hp : st.poll h ≠ .gone) : st.Known h :=
  not_not.mp fun hn => hp ((hi.polls h).gone hn)

/-- The poll thread of `h`, which is not the one that is going to wake the owner, moves. -/
lemma ownerInv_setPoll (hi : HandleInv st) (pc : PollPc) (hp : st.poll h ≠ .gone)
    (hleft : ∀ num, st.poll h = .left num true → st.wait = true) :
    OwnerInv (st.setPoll h pc) := by
  refine ⟨fun hs => ?_, hi.owner.user, hi.owner.idle, hi.owner.handled, fun hw hne => ?_⟩
  · obtain ⟨j, hj, hgone⟩ := hi.owner.stop hs
    refine ⟨j, hj, (Function.update_of_ne ?_ _ _).trans hgone⟩
    rintro rfl
    exact hp hgone
  · rcases hi.owner.blocked hw hne with hwait | ⟨j, num, hj⟩
    · exact Or.inl hwait
    · by_cases hjh : j = h
      · subst hjh
        exact Or.inl (hleft num hj)
      · exact Or.inr ⟨j, num, (Function.update_of_ne hjh _ _).trans hj⟩

/-- The poll thread of `h` goes through its loop, without a change to the lists. -/
lemma loop (hi : HandleInv st) (hp : st.poll h ≠ .gone)
    (hleft : ∀ num sig, st.poll h ≠ .left num sig) :
    HandleInv (pollThreadLoop st h false) := by
  obtain ⟨pc, heq, hpc⟩ := pollThreadLoop_eq st h false
  rw [heq]
  refine ⟨⟨hi.lists.nodup, hi.lists.with_, hi.lists.without, hi.lists.handles⟩, fun i => ?_,
    hi.ownerInv_setPoll pc hp fun num hl => absurd hl (hleft num true)⟩
  by_cases hih : i = h
  · subst hih
    exact pollInv_loop st (hi.polls i).listed (hi.known_of_poll hp) hpc
  · exact (hi.polls i).setPoll hih pc

/-- The poll thread of `h` has put the handle on a list. -/
lemma added (hi : HandleInv st) {sig : Bool} {w wo : List HandlePtr} {n : ℕ}
    (hp : st.poll h = .woken n)
    (hl : ListsInv { st with withHandler := w, withoutHandler := wo })
    (hmem : ∀ i, i ∈ { st with withHandler := w, withoutHandler := wo }.active ↔
      i = h ∨ i ∈ st.active)
    (hsig : w ≠ [] → st.withHandler ≠ [] ∨ sig = true) :
    HandleInv (pollThreadLoop { st with withHandler := w, withoutHandler := wo } h sig) := by
  have hknown : st.Known h := hi.known_of_poll (by simp [hp])
  obtain ⟨pc, heq, hpc⟩ := pollThreadLoop_eq
    { st with withHandler := w, withoutHandler := wo } h sig
  rw [heq]
  refine ⟨⟨hl.nodup, hl.with_, hl.without, hl.handles⟩, fun i => ?_, ?_⟩
  · by_cases hih : i = h
    · subst hih
      exact pollInv_loop { st with withHandler := w, withoutHandler := wo } (fun _ => hknown)
        hknown hpc
    · refine PollInv.setPoll ?_ hih pc
      refine (hi.polls i).congr rfl Iff.rfl ?_ rfl id
      rw [hmem, or_iff_right hih]
  · refine ⟨fun hs => ?_, hi.owner.user, hi.owner.idle, hi.owner.handled, fun hw hne => ?_⟩
    · obtain ⟨j, hj, hgone⟩ := hi.owner.stop hs
      refine ⟨j, hj, (Function.update_of_ne ?_ _ _).trans hgone⟩
      rintro rfl
      rw [hp] at hgone
      cases hgone
    · rcases hsig hne with hne | rfl
      · rcases hi.owner.blocked hw hne with hwait | ⟨j, num, hj⟩
        · exact Or.inl hwait
        · refine Or.inr ⟨j, num, (Function.update_of_ne ?_ _ _).trans hj⟩
          rintro rfl
          rw [hp] at hj
          cases hj
      · -- the owner waits, so that the handle is still registered
        rcases hpc with ⟨-, rfl⟩ | ⟨hreg, -⟩
        · exact Or.inr ⟨h, _, Function.update_self ..⟩
        · rcases hknown with hr | hun
          · rw [show _ = false from hreg] at hr
            cases hr
          · rw [hi.unregistering_eq (Or.inl hw)] at hun
            cases hun

lemma woken (hi : HandleInv st) {n : ℕ} (hp : st.poll h = .woken n) :
    HandleInv (pollThreadWoken st h n) := by
  rw [pollThreadWoken]
  by_cases hn : n = 0
  · rw [if_pos hn]
    exact hi.loop (by simp [hp]) (by simp [hp])
  · have hnot : h ∉ st.active := (hi.polls h).watches (by rw [hp]; exact hn)
    rw [if_neg hn]
    split_ifs with hfn
    · refine hi.added hp (hi.lists.addWith hnot hfn) (fun i => mem_addWith) fun _ => ?_
      cases hw : st.withHandler with
      | nil => exact Or.inr rfl
      | cons a l => exact Or.inl (List.cons_ne_nil a l)
    · refine hi.added hp (hi.lists.addWithout hnot (not_not.mp hfn)) (fun i => mem_addWithout)
        fun hne => Or.inl hne

/-- The poll thread sets `st->wait`, and waits for the same objects as before. -/
lemma left (hi : HandleInv st) {num : ℕ} {sig : Bool} (hp : st.poll h = .left num sig) :
    HandleInv (pollThreadLeft st h num sig) := by
  have hknown : st.Known h := hi.known_of_poll (by simp [hp])
  have hself : (pollThreadLeft st h num sig).poll h = .waiting num := Function.update_self ..
  refine ⟨⟨hi.lists.nodup, hi.lists.with_, hi.lists.without, hi.lists.handles⟩, fun i => ?_, ?_⟩
  · by_cases hih : i = h
    · subst hih
      have hpi := hi.polls i
      refine ⟨hpi.listed, fun hw => hpi.watches ?_, fun _ => ?_, fun hn => absurd hknown hn,
        fun hr ha => hpi.attended hr ?_⟩
      · rw [hself] at hw
        rw [hp]
        exact hw
      · simp [hself]
      · rw [hself] at ha
        rw [hp]
        exact ha
    · exact (hi.polls i).congr rfl Iff.rfl Iff.rfl (Function.update_of_ne hih _ _) id
  · refine ⟨fun hs => ?_, hi.owner.user, hi.owner.idle, hi.owner.handled, fun hw hne => ?_⟩
    · obtain ⟨j, hj, hgone⟩ := hi.owner.stop hs
      refine ⟨j, hj, (Function.update_of_ne ?_ _ _).trans hgone⟩
      rintro rfl
      rw [hp] at hgone
      cases hgone
    · change (st.wait || sig) = true ∨ _
      rcases hi.owner.blocked hw hne with hwait | ⟨j, num', hj⟩
      · simp [hwait]
      · by_cases hjh : j = h
        · subst hjh
          obtain ⟨-, rfl⟩ := PollPc.left.inj (hp.symm.trans hj)
          simp
        · exact Or.inr ⟨j, num', (Function.update_of_ne hjh _ _).trans hj⟩

/-- The wait of the poll thread ends. -/
lemma pollWake (hi : HandleInv st) {num n : ℕ} {sh : HandlePtr → Bool}
    (hp : st.poll h = .waiting num)
    (hn : n ≠ 0 → num = 2) (hsh : ∀ i, i ≠ h → sh i = st.signalHandle i) :
    HandleInv { st.setPoll h (.woken n) with signalHandle := sh } := by
  have hknown : st.Known h := hi.known_of_poll (by simp [hp])
  have hself : { st.setPoll h (.woken n) with signalHandle := sh }.poll h = .woken n :=
    Function.update_self ..
  refine ⟨⟨hi.lists.nodup, hi.lists.with_, hi.lists.without, hi.lists.handles⟩, fun i => ?_, ?_⟩
  · by_cases hih : i = h
    · subst hih
      have hpi := hi.polls i
      refine ⟨hpi.listed, fun hw => hpi.watches ?_, fun _ => ?_, fun hn => absurd hknown hn,
        fun hr ha => ?_⟩
      · rw [hself] at hw
        rw [hp]
        exact hn hw
      · rw [hself]
        simp
      · rw [hself] at ha
        exact absurd ha id
    · refine (hi.polls i).congr rfl Iff.rfl Iff.rfl (Function.update_of_ne hih _ _) ?_
      exact Or.imp id fun hs => (hsh i hih).trans hs
  · have := hi.ownerInv_setPoll (h := h) (.woken n) (by simp [hp]) (by simp [hp])
    exact ⟨this.stop, this.user, this.idle, this.handled, this.blocked⟩

/-- The poll thread ends. -/
lemma pollStop (hi : HandleInv st) (hp : st.poll h = .stopping) :
    HandleInv { st.setPoll h .gone with threadStop := true } := by
  have hreg : st.registered h = false := by
    by_contra hne
    exact ((hi.polls h).runs (by simpa using hne)).2 hp
  have hun : st.unregistering = some h :=
    (hi.known_of_poll (by simp [hp])).resolve_left (by simp [hreg])
  have hself : { st.setPoll h .gone with threadStop := true }.poll h = .gone :=
    Function.update_self ..
  refine ⟨⟨hi.lists.nodup, hi.lists.with_, hi.lists.without, hi.lists.handles⟩, fun i => ?_, ?_⟩
  · by_cases hih : i = h
    · subst hih
      refine ⟨(hi.polls i).listed, fun hw => ?_, fun hr => ?_, fun _ => hself, fun hr => ?_⟩
      · rw [hself] at hw
        exact absurd hw id
      · exact absurd (hreg.symm.trans hr) Bool.false_ne_true
      · exact absurd (hreg.symm.trans hr) Bool.false_ne_true
    · exact (hi.polls i).congr rfl Iff.rfl Iff.rfl (Function.update_of_ne hih _ _) id
  · have := hi.ownerInv_setPoll (h := h) .gone (by simp [hp]) (by simp [hp])
    exact ⟨fun _ => ⟨h, hun, hself⟩, this.user, this.idle, this.handled, this.blocked⟩

/-- No code that can run ends in a fault, and the invariant holds afterwards. -/
theorem code (hi : HandleInv st) {a : HandleLabel} {x : Except Fault HandleState}
    (hx : handleCode st a = some x) : ∃ st', x = .ok st' ∧ HandleInv st' := by
  cases a with
  | register h fn =>
    simp only [handleCode, Option.ite_none_right_eq_some, Option.some.injEq] at hx
    obtain ⟨⟨hu, hreg⟩, rfl⟩ := hx
    exact hi.register hu (by simpa using hreg)
  | unregister h =>
    simp only [handleCode, Option.ite_none_right_eq_some, Option.some.injEq] at hx
    obtain ⟨⟨hu, hreg⟩, rfl⟩ := hx
    exact hi.unregister hu hreg
  | stopped =>
    simp only [handleCode] at hx
    split at hx
    · rename_i h hun
      simp only [Option.ite_none_right_eq_some, Option.some.injEq] at hx
      obtain ⟨hs, rfl⟩ := hx
      exact ⟨_, rfl, hi.stopped hun hs⟩
    · cases hx
  | setHandler h fn =>
    simp only [handleCode, Option.ite_none_right_eq_some, Option.some.injEq] at hx
    obtain ⟨⟨hu, hreg⟩, rfl⟩ := hx
    exact hi.setHandler hu hreg
  | pollAndRun =>
    simp only [handleCode, Option.ite_none_right_eq_some, Option.some.injEq] at hx
    obtain ⟨⟨hun, hpc⟩, rfl⟩ := hx
    exact ⟨_, rfl, hi.pollAndRun hun hpc⟩
  | wake =>
    simp only [handleCode, Option.ite_none_right_eq_some, Option.some.injEq] at hx
    obtain ⟨⟨hpc, -⟩, rfl⟩ := hx
    exact ⟨_, rfl, hi.wake hpc false⟩
  | timeout =>
    simp only [handleCode, Option.ite_none_right_eq_some, Option.some.injEq] at hx
    obtain ⟨hpc, rfl⟩ := hx
    exact ⟨_, rfl, hi.wake hpc st.wait⟩
  | steal =>
    simp only [handleCode, Option.ite_none_right_eq_some, Option.some.injEq] at hx
    obtain ⟨hpc, rfl⟩ := hx
    exact ⟨_, rfl, hi.steal (hi.unregistering_eq (Or.inr (Or.inl hpc))) (Or.inr (Or.inr hpc))⟩
  | call h =>
    simp only [handleCode] at hx
    split at hx
    · rename_i h' rest hh
      simp only [Option.ite_none_right_eq_some, Option.some.injEq] at hx
      obtain ⟨⟨hpc, rfl⟩, rfl⟩ := hx
      exact hi.call hpc hh
    · cases hx
  | ret =>
    simp only [handleCode] at hx
    split at hx
    · rename_i h hpc
      simp only [Option.ite_none_right_eq_some, Option.some.injEq] at hx
      obtain ⟨hun, rfl⟩ := hx
      exact ⟨_, rfl, hi.ret hpc hun⟩
    · cases hx
  | finish =>
    simp only [handleCode, Option.ite_none_right_eq_some, Option.some.injEq] at hx
    obtain ⟨⟨hpc, hh⟩, rfl⟩ := hx
    exact ⟨_, rfl, hi.finish hpc hh⟩
  | pollStart h =>
    simp only [handleCode, Option.ite_none_right_eq_some, Option.some.injEq] at hx
    obtain ⟨hp, rfl⟩ := hx
    exact ⟨_, rfl, hi.loop (by simp [hp]) (by simp [hp])⟩
  | pollLeft h =>
    simp only [handleCode] at hx
    split at hx
    · rename_i num sig hp
      obtain rfl := Option.some.inj hx
      exact ⟨_, rfl, hi.left hp⟩
    · cases hx
  | pollWake h n =>
    simp only [handleCode] at hx
    split at hx
    · rename_i num hp
      split_ifs at hx with h₀ h₁
      · obtain rfl := Option.some.inj hx
        exact ⟨_, rfl, hi.pollWake hp (fun hn => absurd rfl hn)
          fun i hih => Function.update_of_ne hih _ _⟩
      · obtain rfl := Option.some.inj hx
        exact ⟨_, rfl, hi.pollWake hp (fun _ => h₁.2) fun _ _ => rfl⟩
    · cases hx
  | pollWoken h =>
    simp only [handleCode] at hx
    split at hx
    · rename_i n hp
      obtain rfl := Option.some.inj hx
      exact ⟨_, rfl, hi.woken hp⟩
    · cases hx
  | pollStop h =>
    simp only [handleCode, Option.ite_none_right_eq_some, Option.some.injEq] at hx
    obtain ⟨hp, rfl⟩ := hx
    exact ⟨_, rfl, hi.pollStop hp⟩

end HandleInv

/-! ### Runs -/

section Main

variable {handler : HandlePtr → Option HandlerFn} {tr : List HandleLabel} {st : HandleState}

lemma handleInv_init : HandleInv (ivHandleInit handler) where
  lists := by
    refine ⟨List.nodup_nil, fun h hh => ?_, fun h hh => ?_, fun h hh => ?_⟩
    · cases hh
    · cases hh
    · cases hh
  polls h := by
    refine ⟨fun hh => ?_, fun hw => absurd hw id, fun hr => ?_, fun _ => rfl, fun hr => ?_⟩
    · cases hh
    · cases hr
    · cases hr
  owner := by
    refine ⟨fun hs => ?_, fun h hh => ?_, fun _ => rfl, fun h hh => ?_, fun hw => ?_⟩
    · cases hs
    · cases hh
    · cases hh
    · cases hw

lemma handleInv_of_run (h : (handleLts handler).Run tr st) : HandleInv st := by
  refine h.induct (P := fun _ st => HandleInv st) handleInv_init fun tr st a st' _ hinv hstep => ?_
  obtain ⟨x, hx, hst'⟩ := Option.bind_eq_some_iff.mp hstep
  obtain ⟨st₁, rfl, hinv₁⟩ := hinv.code hx
  obtain rfl := Except.ok.inj (toOption_eq_some.mp hst')
  exact hinv₁

/-- Handles, lists and poll threads in a state. -/
structure HandleSafe (st : HandleState) : Prop where
  /-- A handle is on at most one list, and there once. -/
  once     : ∀ h, st.withHandler.count h + st.withoutHandler.count h + st.handles.count h ≤ 1
  with_    : ∀ h ∈ st.withHandler, st.handler h ≠ none
  without  : ∀ h ∈ st.withoutHandler, st.handler h = none
  /-- The handler that is called next is that of a registered handle. -/
  called   : ∀ h rest, st.pc = .loop → st.handles = h :: rest →
    st.registered h = true ∧ st.handler h ≠ none
  /-- An owner that waits although there is something to do is going to be woken. -/
  blocked  : st.pc = .waiting → st.withHandler ≠ [] →
    st.wait = true ∨ ∃ h num, st.poll h = .left num true
  /-- A poll thread does not sleep while its handle is on no list and is not being handled, unless
  it has been told to go on. -/
  attended : ∀ h, st.registered h = true → (st.poll h).Asleep →
    h ∈ st.active ∨ st.handledHandle = some h ∧ st.pc = .handler h ∨ st.signalHandle h = true
  /-- After `iv_handle_unregister` nobody knows the handle. -/
  gone     : ∀ h, st.registered h = false → st.unregistering ≠ some h →
    st.poll h = .gone ∧ h ∉ st.active

lemma HandleInv.handleSafe (hi : HandleInv st) : HandleSafe st where
  once h := by
    have := List.nodup_iff_count_le_one.mp hi.lists.nodup h
    rwa [HandleState.active, List.count_append, List.count_append] at this
  with_ := hi.lists.with_
  without := hi.lists.without
  called h rest hpc hh := by
    have hmem : h ∈ st.handles := hh ▸ List.mem_cons_self
    refine ⟨?_, hi.lists.handles h hmem⟩
    refine ((hi.polls h).listed
      (HandleState.mem_active.mpr (Or.inr (Or.inr hmem)))).resolve_right ?_
    rw [hi.unregistering_eq (Or.inr (Or.inr hpc))]
    simp
  blocked := hi.owner.blocked
  attended h hr ha := by
    refine ((hi.polls h).attended hr ha).imp id (Or.imp_left fun hh => ?_)
    exact ⟨hh, hi.owner.handled h hh⟩
  gone h hr hun := by
    have hknown : ¬ st.Known h := by
      rintro (hr' | hun')
      · rw [hr] at hr'
        cases hr'
      · exact hun hun'
    exact ⟨(hi.polls h).gone hknown, fun hm => hknown ((hi.polls h).listed hm)⟩

/-- In every run handles are on the lists that they belong to, handlers that are called are those of
registered handles, and a handle that has been signalled is not lost. No step that can be taken
calls a null pointer or ends in a fatal error. -/
theorem handleSafe_of_run (h : (handleLts handler).Run tr st) :
    HandleSafe st ∧ ∀ a f, handleCode st a ≠ some (.error f) := by
  have hinv := handleInv_of_run h
  refine ⟨hinv.handleSafe, fun a f hx => ?_⟩
  obtain ⟨st', heq, -⟩ := hinv.code hx
  cases heq

end Main

/-- The handle `1` is unregistered after it has put itself on the list and before it has set
`st->wait`, on which `2` has relied. The owner finds `2` without waiting. -/
def unregisteredBeforeSignal : List HandleLabel :=
  [.register 1 (some 0), .register 2 (some 0),
    .pollStart 1, .pollLeft 1, .pollStart 2, .pollLeft 2, .pollWake 1 1,
    .unregister 1, .pollWoken 1, .pollWake 2 1, .pollWoken 2, .pollLeft 2, .pollStop 1, .stopped,
    .pollAndRun]

theorem handleSafe_of_run_unregistered :
    ∃ st, (handleLts fun _ => none).Run unregisteredBeforeSignal st ∧ st.wait = false ∧
      st.pc = .loop ∧ st.handles = [2] ∧ HandleSafe st ∧
      ∀ a f, handleCode st a ≠ some (.error f) := by
  refine Kit.Lts.exists_run_of_decide (fun st => st.wait = false ∧ st.pc = .loop ∧
    st.handles = [2]) (by decide +kernel) fun st hrun ⟨hwait, hpc, hhandles⟩ => ?_
  exact ⟨hwait, hpc, hhandles, handleSafe_of_run hrun⟩

end Ivykis
