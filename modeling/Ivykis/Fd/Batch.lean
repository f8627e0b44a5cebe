import Ivykis.Fd.Backend

/-!
# Methods that upload their changes in batches

The kqueue method and the `/dev/poll` method collect the pending changes in an array, which is given
to the kernel when there is no room for two more. What a change is, and what the kernel makes of it,
is left open here.
-/

namespace Ivykis

/-- `UPLOAD_BATCH`, of either method. -/
def uploadBatch : ℕ := 1024

/-- What belongs to such a method. -/
structure BatchState (κ ρ : Type) where
  notify  : List FdPtr
  /-- What the kernel has been told. -/
  kernel  : κ
  /-- The indices of all accesses so far to the array. -/
  indices : List ℕ
  /-- What uploads do not touch. -/
  rest    : ρ

/-- What the kernel makes of a change, and the changes for a descriptor that is on the list. -/
structure Uploader (κ ε : Type) where
  enter   : κ → ε → κ
  changes : FdPtr → Fd → List ε

/-- The state and the used part of the array, in the course of an upload. -/
structure Upload (κ ρ ε : Type) where
  st    : FdState (BatchState κ ρ)
  array : List ε

variable {κ ρ ε α : Type}

/-- The kernel is given some changes. -/
def BatchState.submit (U : Uploader κ ε) (b : BatchState κ ρ) (changes : List ε) :
    BatchState κ ρ :=
  { b with kernel := changes.foldl U.enter b.kernel }

/-- The same, and what happens if it does not take one of them. -/
def submitChanges (U : Uploader κ ε) (refused : Bool) (error : String)
    (st : FdState (BatchState κ ρ)) (changes : List ε) :
    Except Fault (FdState (BatchState κ ρ)) :=
  if refused then .error (.fatal error) else .ok (st.setMethod (st.method.submit U changes))

namespace Upload

/-- The entry behind the last one is filled in. -/
def push (u : Upload κ ρ ε) (change : ε) : Upload κ ρ ε where
  st := u.st.setMethod { u.st.method with indices := u.array.length :: u.st.method.indices }
  array := u.array ++ [change]

/-- The array is given to the kernel if there is no room for two more entries. -/
def makeRoom (U : Uploader κ ε) (refused : Bool) (error : String) (u : Upload κ ρ ε) :
    Except Fault (Upload κ ρ ε) := do
  if u.array.length > uploadBatch - 2 then
    let st ← submitChanges U refused error u.st u.array
    return ⟨st, []⟩
  else return u

/-- The changes for a descriptor go into the array. -/
def queueOne (U : Uploader κ ε) (u : Upload κ ρ ε) (fd : FdPtr) : Upload κ ρ ε :=
  let unlisted : Upload κ ρ ε :=
    { u with st := u.st.setMethod { u.st.method with notify := u.st.method.notify.erase fd } }
  let queued := (U.changes fd (u.st.fds fd)).foldl push unlisted
  { queued with st := queued.st.setFd fd fun f => { f with registeredBands := f.wantedBands } }

/-- The loop over the list of pending changes, as it is found. -/
def loop (U : Uploader κ ε) (refused : Bool) (error : String) :
    List FdPtr → Upload κ ρ ε → Except Fault (Upload κ ρ ε)
  | [], u => .ok u
  | fd :: notify, u => do
    let u ← u.makeRoom U refused error
    loop U refused error notify (u.queueOne U fd)

/-- The state that will be there when the kernel has been given the array. -/
def submitted (U : Uploader κ ε) (u : Upload κ ρ ε) : FdState (BatchState κ ρ) :=
  u.st.setMethod (u.st.method.submit U u.array)

end Upload

/-- Everything that is pending is uploaded, and the kernel is given what is left in the array. -/
def uploadAll (U : Uploader κ ε) (refused : Bool) (error error' : String)
    (st : FdState (BatchState κ ρ)) : Except Fault (FdState (BatchState κ ρ)) := do
  let u ← Upload.loop U refused error st.method.notify ⟨st, []⟩
  if u.array ≠ [] then submitChanges U refused error' u.st u.array else return u.st

/-! ### What an upload leaves alone -/

/-- The descriptors are the same but for their registered bands, and so is the rest of the
state. -/
structure SameRest (st st' : FdState (BatchState κ ρ)) : Prop where
  core : st.SameCore st'
  rest : st'.method.rest = st.method.rest

section Rest

variable {U : Uploader κ ε} {refused : Bool} {error error' : String}
  {st st' st'' : FdState (BatchState κ ρ)} {u u' : Upload κ ρ ε} {notify : List FdPtr} {fd : FdPtr}

lemma SameRest.refl (st : FdState (BatchState κ ρ)) : SameRest st st :=
  ⟨.refl st, rfl⟩

lemma SameRest.trans (h : SameRest st st') (h' : SameRest st' st'') : SameRest st st'' :=
  ⟨h.core.trans h'.core, h'.rest.trans h.rest⟩

lemma sameRest_submit (U : Uploader κ ε) (st : FdState (BatchState κ ρ)) (changes : List ε) :
    SameRest st (st.setMethod (st.method.submit U changes)) :=
  ⟨setMethod_core _ _, rfl⟩

lemma submitChanges_eq_ok {changes : List ε}
    (h : submitChanges U refused error st changes = .ok st') :
    st' = st.setMethod (st.method.submit U changes) := by
  unfold submitChanges at h
  split_ifs at h
  exact (Except.ok.inj h).symm

/-- Making room gives everything to the kernel, or does nothing. -/
lemma makeRoom_eq_ok (h : u.makeRoom U refused error = .ok u') :
    u'.array.length ≤ uploadBatch - 2 ∧ (u' = u ∨ u' = ⟨u.submitted U, []⟩) := by
  unfold Upload.makeRoom at h
  split_ifs at h with hroom
  · obtain ⟨st, hsubmit, heq⟩ := bind_eq_ok.mp h
    obtain rfl := Except.ok.inj heq
    exact ⟨Nat.zero_le _, Or.inr (by rw [submitChanges_eq_ok hsubmit, Upload.submitted])⟩
  · obtain rfl := Except.ok.inj h
    exact ⟨not_lt.mp hroom, Or.inl rfl⟩

/-- Some changes have been put into the array. -/
lemma foldl_push (changes : List ε) (u : Upload κ ρ ε) :
    (changes.foldl Upload.push u).array = u.array ++ changes ∧
    ∃ indices : List ℕ,
      (∀ i ∈ indices, i < u.array.length + changes.length ∨ i ∈ u.st.method.indices) ∧
      (changes.foldl Upload.push u).st =
        u.st.setMethod { u.st.method with indices := indices } := by
  induction changes generalizing u with
  | nil => exact ⟨by simp, u.st.method.indices, fun i hi => Or.inr hi, rfl⟩
  | cons change changes ih =>
    obtain ⟨harray, indices, hindices, hst⟩ := ih (u.push change)
    rw [List.foldl_cons]
    refine ⟨?_, indices, fun i hi => ?_, hst⟩
    · rw [harray]
      simp [Upload.push]
    · rw [List.length_cons]
      rcases hindices i hi with hlt | hmem
      · simp only [Upload.push, List.length_append, List.length_singleton] at hlt
        exact Or.inl (by omega)
      · rcases List.mem_cons.mp hmem with rfl | hmem
        · exact Or.inl (by omega)
        · exact Or.inr hmem

lemma foldl_push_sameRest (changes : List ε) (u : Upload κ ρ ε) :
    SameRest u.st (changes.foldl Upload.push u).st := by
  obtain ⟨-, indices, -, hst⟩ := foldl_push changes u
  rw [hst]
  exact ⟨setMethod_core _ _, rfl⟩

/-- What the body of the loop does. -/
lemma queueOne_eq (U : Uploader κ ε) (u : Upload κ ρ ε) (fd : FdPtr) :
    (u.queueOne U fd).array = u.array ++ U.changes fd (u.st.fds fd) ∧
    ∃ indices : List ℕ,
      (∀ i ∈ indices, i < u.array.length + (U.changes fd (u.st.fds fd)).length ∨
        i ∈ u.st.method.indices) ∧
      (u.queueOne U fd).st = (u.st.setMethod
        { u.st.method with notify := u.st.method.notify.erase fd, indices := indices }).setFd fd
          fun f => { f with registeredBands := f.wantedBands } := by
  obtain ⟨harray, indices, hindices, hst⟩ := foldl_push (U.changes fd (u.st.fds fd))
    { u with st := u.st.setMethod { u.st.method with notify := u.st.method.notify.erase fd } }
  refine ⟨harray, indices, hindices, ?_⟩
  simp only [Upload.queueOne, hst]
  rfl

lemma queueOne_sameRest (U : Uploader κ ε) (u : Upload κ ρ ε) (fd : FdPtr) :
    SameRest u.st (u.queueOne U fd).st := by
  obtain ⟨-, indices, -, hst⟩ := queueOne_eq U u fd
  rw [hst]
  exact ⟨(setMethod_core _ _).trans (setRegistered_core _ fd _), rfl⟩

lemma loop_sameRest (h : Upload.loop U refused error notify u = .ok u') :
    SameRest u.st u'.st := by
  induction notify generalizing u with
  | nil => exact Except.ok.inj h ▸ .refl _
  | cons fd notify ih =>
    obtain ⟨u₁, hroom, hrest⟩ := bind_eq_ok.mp h
    have hsubmit : SameRest u.st u₁.st := by
      rcases (makeRoom_eq_ok hroom).2 with rfl | rfl
      · exact .refl _
      · exact sameRest_submit U u.st u.array
    exact (hsubmit.trans (queueOne_sameRest U u₁ fd)).trans (ih hrest)

lemma uploadAll_eq_ok (h : uploadAll U refused error error' st = .ok st') :
    ∃ u, Upload.loop U refused error st.method.notify ⟨st, []⟩ = .ok u ∧ st' = u.submitted U := by
  obtain ⟨u, hloop, hrest⟩ := bind_eq_ok.mp h
  refine ⟨u, hloop, ?_⟩
  split_ifs at hrest with harray
  · exact submitChanges_eq_ok hrest
  · rw [Upload.submitted, not_not.mp harray]
    exact (Except.ok.inj hrest).symm

/-- An upload succeeds if the kernel takes every change. -/
lemma uploadAll_false (U : Uploader κ ε) (error error' : String) (st : FdState (BatchState κ ρ)) :
    ∃ st', uploadAll U false error error' st = .ok st' := by
  have hloop (notify : List FdPtr) (u : Upload κ ρ ε) :
      ∃ u', Upload.loop U false error notify u = .ok u' := by
    induction notify generalizing u with
    | nil => exact ⟨u, rfl⟩
    | cons fd notify ih =>
      obtain ⟨u₁, hroom⟩ : ∃ u₁, u.makeRoom U false error = .ok u₁ := by
        unfold Upload.makeRoom
        split_ifs
        · exact ⟨_, rfl⟩
        · exact ⟨_, rfl⟩
      obtain ⟨u', hrest⟩ := ih (u₁.queueOne U fd)
      exact ⟨u', bind_eq_ok.mpr ⟨u₁, hroom, hrest⟩⟩
  obtain ⟨u, hu⟩ := hloop st.method.notify ⟨st, []⟩
  simp only [uploadAll, hu, ok_bind]
  split_ifs
  · exact ⟨_, rfl⟩
  · exact ⟨_, rfl⟩

lemma uploadAll_sameRest (h : uploadAll U refused error error' st = .ok st') :
    SameRest st st' := by
  obtain ⟨u, hloop, rfl⟩ := uploadAll_eq_ok h
  have hu : SameRest st u.st := loop_sameRest hloop
  exact hu.trans (sameRest_submit U u.st u.array)

end Rest

/-! ### What an upload is for -/

/-- How the kernel shows what it has been told, and what the changes for a descriptor have to
achieve. -/
structure UploadSpec (U : Uploader κ ε) (α : Type) where
  look    : κ → ℤ → α
  entry   : FdPtr → Finset Band → α
  settled : Setoid (Finset Band)
  /-- What else holds for the kernel. -/
  Sound   : κ → Prop
  entry_empty : ∀ p q, entry p ∅ = entry q ∅
  changes_length : ∀ fd f, (U.changes fd f).length ≤ 2
  changes_sound : ∀ {k fd f}, Sound k → look k f.fd = entry fd f.registeredBands →
    Sound ((U.changes fd f).foldl U.enter k)
  look_changes : ∀ {k fd f}, look k f.fd = entry fd f.registeredBands →
    look ((U.changes fd f).foldl U.enter k) =
      Function.update (look k) f.fd (entry fd f.wantedBands)

/-- How such a method keeps its pending changes. -/
def UploadSpec.view {U : Uploader κ ε} (S : UploadSpec U α) (ρ : Type) :
    LazyView (BatchState κ ρ) α where
  notify := BatchState.notify
  kernel b := S.look b.kernel
  entry := S.entry
  settled := S.settled
  entry_empty := S.entry_empty

/-- The kernel and the array are in order. -/
structure BatchState.Sound {U : Uploader κ ε} (S : UploadSpec U α) (b : BatchState κ ρ) :
    Prop where
  kernel : S.Sound b.kernel
  indices : ∀ i ∈ b.indices, i < uploadBatch

lemma BatchState.Sound.congr {U : Uploader κ ε} {S : UploadSpec U α} {b b' : BatchState κ ρ}
    (h : b.Sound S) (hkernel : b'.kernel = b.kernel) (hindices : b'.indices = b.indices) :
    b'.Sound S :=
  ⟨hkernel ▸ h.kernel, hindices ▸ h.indices⟩

/-- What holds at the head of the loop, with `notify` still to be worked off. -/
structure Upload.Ok {U : Uploader κ ε} (S : UploadSpec U α) (u : Upload κ ρ ε) (T : Finset FdPtr)
    (notify : List FdPtr) : Prop where
  view : LazyOk (S.view ρ) (u.submitted U) T none
  sound : (u.submitted U).method.Sound S
  notify : u.st.method.notify = notify

section Spec

variable {U : Uploader κ ε} {S : UploadSpec U α} {refused : Bool} {error error' : String}
  {st st' : FdState (BatchState κ ρ)} {u u' : Upload κ ρ ε} {notify : List FdPtr} {fd : FdPtr}
  {T : Finset FdPtr}

lemma Upload.Ok.makeRoom (h : u.Ok S T notify) (hroom : u.makeRoom U refused error = .ok u') :
    u'.Ok S T notify := by
  rcases (makeRoom_eq_ok hroom).2 with rfl | rfl
  · exact h
  · exact ⟨h.view, h.sound, h.notify⟩

/-- The changes for a descriptor go into the array, which has room for them. -/
lemma Upload.Ok.queueOne (h : u.Ok S T (fd :: notify))
    (hroom : u.array.length ≤ uploadBatch - 2) : (u.queueOne U fd).Ok S T notify := by
  obtain ⟨harray, indices, hindices, hst⟩ := queueOne_eq U u fd
  have hlist : fd ∈ u.st.method.notify := h.notify ▸ List.mem_cons_self
  have hmem : fd ∈ T := h.view.notify.listed fd hlist
  have htold : S.look (u.submitted U).method.kernel (u.st.fds fd).fd =
      S.entry fd (u.st.fds fd).registeredBands := h.view.kernel.told fd hmem
  have hfds : ((u.queueOne U fd).submitted U).fds = Function.update u.st.fds fd
      { u.st.fds fd with registeredBands := (u.st.fds fd).wantedBands } := by
    rw [Upload.submitted, hst]
    rfl
  have hnotify : (u.queueOne U fd).st.method.notify = u.st.method.notify.erase fd := by
    rw [hst]
    rfl
  have hkernel : ((u.queueOne U fd).submitted U).method.kernel =
      (U.changes fd (u.st.fds fd)).foldl U.enter (u.submitted U).method.kernel := by
    change (u.queueOne U fd).array.foldl U.enter (u.queueOne U fd).st.method.kernel = _
    rw [hst, harray, List.foldl_append]
    rfl
  have hlook : S.look ((u.queueOne U fd).submitted U).method.kernel =
      Function.update (S.look (u.submitted U).method.kernel) (u.st.fds fd).fd
        (S.entry fd (u.st.fds fd).wantedBands) := by
    rw [hkernel]
    exact S.look_changes htold
  refine ⟨?_, ⟨?_, ?_⟩, ?_⟩
  · have hout : LazyOk (S.view ρ) ((u.submitted U).setMethod
        { (u.submitted U).method with notify := u.st.method.notify.erase fd }) T (some fd) :=
      h.view.unnotify (Or.inl rfl) rfl rfl rfl
    have hnot : fd ∉ (u.queueOne U fd).st.method.notify := by
      rw [hnotify]
      exact h.view.notify.nodup.not_mem_erase
    refine (hout.tell (Or.inr rfl) hmem hfds hnotify hlook).settle hnot ?_
    rw [hfds, Function.update_self]
  · rw [hkernel]
    exact S.changes_sound h.sound.kernel htold
  · intro i hi
    have hsize : uploadBatch = 1024 := rfl
    have hlength := S.changes_length fd (u.st.fds fd)
    have hi' : i ∈ (u.queueOne U fd).st.method.indices := hi
    rw [hst] at hi'
    rcases hindices i hi' with hi | hi
    · omega
    · exact h.sound.indices i hi
  · rw [hnotify, h.notify, List.erase_cons_head]

lemma Upload.Ok.loop (h : u.Ok S T notify) (hloop : Upload.loop U refused error notify u = .ok u') :
    u'.Ok S T [] := by
  induction notify generalizing u with
  | nil => exact Except.ok.inj hloop ▸ h
  | cons fd notify ih =>
    obtain ⟨u₁, hroom, hrest⟩ := bind_eq_ok.mp hloop
    exact ih ((h.makeRoom hroom).queueOne (makeRoom_eq_ok hroom).1) hrest

lemma LazyOk.uploadAll (h : LazyOk (S.view ρ) st T none) (hsound : st.method.Sound S)
    (hup : uploadAll U refused error error' st = .ok st') :
    LazyOk (S.view ρ) st' T none ∧ st'.method.Sound S ∧ st'.method.notify = [] := by
  obtain ⟨u, hloop, rfl⟩ := uploadAll_eq_ok hup
  have hstart : Upload.Ok S (⟨st, []⟩ : Upload κ ρ ε) T st.method.notify := ⟨h, hsound, rfl⟩
  have hend := hstart.loop hloop
  exact ⟨hend.view, hend.sound, hend.notify⟩

end Spec

end Ivykis
