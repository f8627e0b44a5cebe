import Ivykis.Inotify
import Ivykis.Kit.Bytes

/-!
# The loop over inotify events

`iv_inotify_got_event` walks over the bytes that `read` has returned. Each record has a header of
sixteen bytes and a name of any length, and the next record begins where the name ends. The handler
that is called for a record may change the tree of watches in which the next one is looked up, and
it may unregister the instance, after which the memory of the instance is no longer touched.

The loop is compared with `Dispatched`, which is about records and a set of watches, and with the
steps of an instance, of which a call is made (`InotifyState.Leads`).
-/

namespace Ivykis

open Kit

/-! ### Records -/

/-- `IN_IGNORED`. -/
def inIgnored : BitVec 32 := 0x8000

/-- `sizeof(struct inotify_event)`. -/
def sizeofInotifyEvent : ℕ := 16

/-- A `struct inotify_event` and the name that follows it. -/
structure InotifyRecord where
  wd     : BitVec 32
  mask   : BitVec 32
  cookie : BitVec 32
  name   : List UInt8
  short  : name.length < 2 ^ 32

namespace InotifyRecord

def len (r : InotifyRecord) : BitVec 32 := BitVec.ofNat 32 r.name.length

def size (r : InotifyRecord) : ℕ := r.name.length + sizeofInotifyEvent

def ignored (r : InotifyRecord) : Bool := r.mask &&& inIgnored != 0

def event (r : InotifyRecord) : InotifyEvent := ⟨r.wd.toInt, r.ignored⟩

/-- The record in memory. -/
def encode (o : ByteOrder) (r : InotifyRecord) : List UInt8 :=
  bytes32 o r.wd ++ bytes32 o r.mask ++ bytes32 o r.cookie ++ bytes32 o r.len ++ r.name

end InotifyRecord

/-! ### What handlers do -/

inductive InotifyAct where
  /-- `iv_inotify_watch_register`, for which the kernel returns `wd`. -/
  | watchRegister (w : AvlPtr) (wd : ℤ) (oneshot : Bool)
  | watchUnregister (w : AvlPtr)
  | unregister
  deriving DecidableEq

/-- `w` is in the tree. -/
def InotifyState.inTree (st : InotifyState) (w : AvlPtr) : Bool :=
  match findWatch st (st.wd w) with
  | .ok (some v) => v == w
  | _            => false

/-- A call that a handler makes. It registers only watches that are not in the tree and unregisters
only those that are, and leaves an instance alone that is not registered. -/
def inotifyAct (st : InotifyState) : InotifyAct → Except Fault InotifyState
  | .watchRegister w wd oneshot =>
    if st.registered ∧ st.inTree w = false then ivInotifyWatchRegister st w wd oneshot
    else .ok st
  | .watchUnregister w =>
    if st.registered ∧ st.inTree w then ivInotifyWatchUnregister st w else .ok st
  | .unregister =>
    if st.registered then .ok (ivInotifyUnregister st) else .ok st

/-! ### `iv_inotify_got_event` -/

/-- What happens at a record: where it begins, and the watch whose handler is called, with whether
it is still in the tree at the call. -/
structure Visit where
  offset : ℕ
  called : Option (AvlPtr × Bool)
  deriving DecidableEq

/-- What `read` returns. -/
inductive InotifyRead where
  | data (buf : List UInt8)
  | again
  | failed (errno : ℤ) (text : String)

/-- A field of the event at `event`. -/
def readField (o : ByteOrder) (buf : List UInt8) (event off : ℕ) : Except Fault (BitVec 32) :=
  match read32 o buf (event + off) with
  | some v => .ok v
  | none   => .error .invalidAccess

/-- The local variable `this` is not `NULL`. -/
def InotifyState.thisSet (st : InotifyState) : Bool :=
  match st.frames with
  | []     => false
  | f :: _ => f.this

/-- Follow `this`. The memory of an instance that is not registered may be gone. -/
def InotifyState.followThis (st : InotifyState) : Except Fault Unit :=
  if st.thisSet ∧ st.registered then .ok () else .error .invalidAccess

/-- The body of the loop up to the end of the handler. -/
def visitRecord (o : ByteOrder) (handler : ℕ → List InotifyAct) (buf : List UInt8) (curr n : ℕ)
    (st : InotifyState) : Except Fault (Visit × ℕ × InotifyState) := do
  let wd ← readField o buf curr 0
  st.followThis
  match ← findWatch st wd.toInt with
  | some w =>
    let mask ← readField o buf curr 4
    let watches ← retireWatch st w ⟨wd.toInt, mask &&& inIgnored != 0⟩
    let st := { st with watches := watches }
    let visit := ⟨curr, some (w, st.inTree w)⟩
    let st ← (handler n).foldlM inotifyAct st
    .ok (visit, n + 1, st)
  | none => .ok (⟨curr, none⟩, n, st)

/-- The loop of `iv_inotify_got_event`, with what happens at each record and the `curr` it ends
with. The `n`th call of a handler does `handler n`. The first number bounds the iterations. -/
def inotifyLoop (o : ByteOrder) (handler : ℕ → List InotifyAct) (buf : List UInt8) :
    ℕ → ℕ → ℕ → InotifyState → Except Fault (List Visit × ℕ × InotifyState)
  | 0, _, _, _ => .error .stuck
  | fuel + 1, curr, n, st =>
    if curr < buf.length then do
      let (visit, n, st) ← visitRecord o handler buf curr n st
      let len ← readField o buf curr 12
      let curr := curr + (len.toNat + sizeofInotifyEvent)
      if st.thisSet = false then .ok ([visit], curr, st)
      else
        let (visits, curr, st) ← inotifyLoop o handler buf fuel curr n st
        .ok (visit :: visits, curr, st)
    else .ok ([], curr, st)

/-- `iv_inotify_got_event`, whose variable `this` is at `addr`. -/
def ivInotifyGotEvent (o : ByteOrder) (handler : ℕ → List InotifyAct) (addr : LocalPtr)
    (ret : InotifyRead) (st : InotifyState) : Except Fault (List Visit × ℕ × InotifyState) :=
  match ret with
  | .again => .ok ([], 0, st)
  | .failed errno text =>
    .error (.fatal s!"iv_inotify: reading from inotify fd returned error {errno}[{text}]")
  | .data [] => .error (.fatal "iv_inotify: reading from inotify fd returned zero")
  | .data buf => do
    let st := { st with term := some addr, frames := ⟨addr, true, [], false⟩ :: st.frames }
    let (visits, curr, st) ← inotifyLoop o handler buf (buf.length + 1) 0 0 st
    if st.thisSet then
      st.followThis
      .ok (visits, curr, { st with term := none, frames := st.frames.tail })
    else .ok (visits, curr, { st with frames := st.frames.tail })

/-! ### The call as steps -/

/-- Steps of the instance lead from one state to the other. -/
def InotifyState.Leads : InotifyState → InotifyState → Prop :=
  Relation.ReflTransGen fun st st' => ∃ a, inotifyStep st a = some st'

/-- The innermost call has the events of `queue` before it, and is in a handler or not. -/
def InotifyState.atEvents (st : InotifyState) (queue : List InotifyEvent) (inHandler : Bool) :
    InotifyState :=
  { st with frames := st.frames.modifyHead fun f =>
      { f with queue := queue, inHandler := inHandler } }

section Steps

variable {st st' : InotifyState} {queue : List InotifyEvent}

lemma inUser_atEvents : (st.atEvents queue true).inUser = true := by
  rw [InotifyState.inUser, InotifyState.atEvents]
  cases st.frames <;> rfl

lemma leads_watchRegister {w : AvlPtr} {wd : ℤ} {oneshot : Bool} (hreg : st.registered = true)
    (h : ivInotifyWatchRegister st w wd oneshot = .ok st') :
    (st.atEvents queue true).Leads (st'.atEvents queue true) := by
  refine .single ⟨.watchRegister w wd oneshot, ?_⟩
  rw [inotifyStep, if_pos ⟨inUser_atEvents, hreg⟩, toOption_eq_some]
  unfold ivInotifyWatchRegister at h ⊢
  split_ifs at h ⊢
  · obtain rfl := Except.ok.inj h
    rfl
  · obtain ⟨⟨ret, watches⟩, hinsert, heq⟩ := bind_eq_ok.mp h
    obtain rfl := Except.ok.inj heq
    exact bind_eq_ok.mpr ⟨_, hinsert, rfl⟩

lemma leads_watchUnregister {w : AvlPtr} (hreg : st.registered = true)
    (h : ivInotifyWatchUnregister st w = .ok st') :
    (st.atEvents queue true).Leads (st'.atEvents queue true) := by
  refine .single ⟨.watchUnregister w, ?_⟩
  rw [inotifyStep, if_pos ⟨inUser_atEvents, hreg⟩, toOption_eq_some]
  obtain ⟨watches, hdelete, heq⟩ := bind_eq_ok.mp h
  obtain rfl := Except.ok.inj heq
  exact bind_eq_ok.mpr ⟨_, hdelete, rfl⟩

lemma leads_unregister (hreg : st.registered = true) :
    (st.atEvents queue true).Leads ((ivInotifyUnregister st).atEvents queue true) := by
  refine .single ⟨.unregister, ?_⟩
  rw [inotifyStep, if_pos ⟨inUser_atEvents, hreg⟩]
  simp only [ivInotifyUnregister, InotifyState.atEvents, InotifyState.clearLocal]
  cases st.term with
  | none => rfl
  | some p =>
    cases st.frames with
    | nil => rfl
    | cons f frames => by_cases hp : f.addr = p <;> simp [hp]

end Steps

/-! ### What is meant -/

/-- An instance as a set of watches. -/
structure Watching where
  registered : Bool
  tree       : Finset AvlPtr
  wd         : AvlPtr → ℤ
  oneshot    : AvlPtr → Bool

namespace Watching

/-- A call that a handler makes. A watch is not added if the kernel refuses it, or if there is one
for the same file already. -/
def act (A : Watching) : InotifyAct → Watching
  | .watchRegister w wd oneshot =>
    if A.registered ∧ w ∉ A.tree then
      { A with
        wd := Function.update A.wd w wd
        oneshot := Function.update A.oneshot w oneshot
        tree := if wd = -1 ∨ ∃ v ∈ A.tree, A.wd v = wd then A.tree else insert w A.tree }
    else A
  | .watchUnregister w =>
    if A.registered ∧ w ∈ A.tree then { A with tree := A.tree.erase w } else A
  | .unregister => { A with registered := false }

/-- The watch `w` leaves the tree if the record is its last. -/
def retire (A : Watching) (w : AvlPtr) (r : InotifyRecord) : Watching :=
  if r.ignored || A.oneshot w then { A with tree := A.tree.erase w } else A

/-- The instance after the handler that is called for `r`. -/
def handle (A : Watching) (w : AvlPtr) (r : InotifyRecord) (acts : List InotifyAct) : Watching :=
  acts.foldl act (A.retire w r)

end Watching

/-- The records of a buffer, from the one at offset `off` on, are handed out, beginning with the
`n`th call of a handler. -/
inductive Dispatched (handler : ℕ → List InotifyAct) :
    List InotifyRecord → ℕ → ℕ → Watching → List Visit → Watching → Prop
  | finished {off n A} : Dispatched handler [] off n A [] A
  /-- Nobody watches. -/
  | skipped {r rs off n A visits A'} (hnone : ∀ w ∈ A.tree, A.wd w ≠ r.wd.toInt)
      (hrest : Dispatched handler rs (off + r.size) n A visits A') :
      Dispatched handler (r :: rs) off n A (⟨off, none⟩ :: visits) A'
  | called {r rs off n A visits A' w} (hw : w ∈ A.tree) (hwd : A.wd w = r.wd.toInt)
      (hreg : (A.handle w r (handler n)).registered = true)
      (hrest : Dispatched handler rs (off + r.size) (n + 1) (A.handle w r (handler n)) visits A') :
      Dispatched handler (r :: rs) off n A
        (⟨off, some (w, !(r.ignored || A.oneshot w))⟩ :: visits) A'
  /-- The handler has unregistered the instance. -/
  | stopped {r rs off n A w} (hw : w ∈ A.tree) (hwd : A.wd w = r.wd.toInt)
      (hreg : (A.handle w r (handler n)).registered = false) :
      Dispatched handler (r :: rs) off n A [⟨off, some (w, !(r.ignored || A.oneshot w))⟩]
        (A.handle w r (handler n))

/-- The state of the code while it hands out records, and what it stands for. -/
structure Stands (addr : LocalPtr) (outer : List InotifyFrame) (st : InotifyState)
    (A : Watching) : Prop where
  registered : st.registered = A.registered
  wd         : st.wd = A.wd
  oneshot    : st.oneshot = A.oneshot
  tree       : A.registered = true → KeyTree A.wd st.watches A.tree
  term       : A.registered = true → st.term = some addr
  frames     : st.frames = ⟨addr, A.registered, [], false⟩ :: outer

namespace Stands

variable {addr : LocalPtr} {outer : List InotifyFrame} {st st' : InotifyState} {A A' : Watching}
  {w : AvlPtr} {r : InotifyRecord} {d : ℤ}

lemma thisSet (h : Stands addr outer st A) : st.thisSet = A.registered := by
  rw [InotifyState.thisSet, h.frames]

lemma followThis (h : Stands addr outer st A) (hreg : A.registered = true) :
    st.followThis = .ok () := by
  rw [InotifyState.followThis, if_pos]
  rw [h.thisSet, h.registered]
  exact ⟨hreg, hreg⟩

lemma findWatch_of_mem (h : Stands addr outer st A) (hreg : A.registered = true)
    (hw : w ∈ A.tree) : findWatch st (A.wd w) = .ok (some w) := by
  rw [findWatch, h.wd]
  exact (h.tree hreg).find_of_mem hw

lemma findWatch_of_forall_ne (h : Stands addr outer st A) (hreg : A.registered = true)
    (hne : ∀ w ∈ A.tree, A.wd w ≠ d) : findWatch st d = .ok none := by
  rw [findWatch, h.wd]
  exact (h.tree hreg).find_of_forall_ne hne

lemma inTree (h : Stands addr outer st A) (hreg : A.registered = true) :
    st.inTree w = decide (w ∈ A.tree) := by
  rw [InotifyState.inTree, h.wd]
  by_cases hw : w ∈ A.tree
  · rw [h.findWatch_of_mem hreg hw]
    simp [hw]
  · by_cases hused : ∃ v ∈ A.tree, A.wd v = A.wd w
    · obtain ⟨v, hv, hwd⟩ := hused
      rw [← hwd, h.findWatch_of_mem hreg hv]
      have hne : v ≠ w := ne_of_mem_of_not_mem hv hw
      simp [hw, hne]
    · rw [h.findWatch_of_forall_ne hreg fun v hv hwd => hused ⟨v, hv, hwd⟩]
      simp [hw]

lemma watchRegister (h : Stands addr outer st A) (hreg : A.registered = true) (hw : w ∉ A.tree)
    (oneshot : Bool) :
    ∃ st', ivInotifyWatchRegister st w d oneshot = .ok st' ∧
      Stands addr outer st' (A.act (.watchRegister w d oneshot)) := by
  have hkeep : ∀ v ∈ A.tree, Function.update A.wd w d v = A.wd v := fun v hv =>
    Function.update_of_ne (ne_of_mem_of_not_mem hv hw) _ _
  have hself : Function.update A.wd w d w = d := Function.update_self ..
  have htree := (h.tree hreg).congr hkeep
  have hdone (watches : AvlState) (T : Finset AvlPtr)
      (hT : KeyTree (Function.update A.wd w d) watches T) :
      Stands addr outer
        { st with
          wd := Function.update st.wd w d, oneshot := Function.update st.oneshot w oneshot,
          watches := watches }
        { A with
          wd := Function.update A.wd w d, oneshot := Function.update A.oneshot w oneshot,
          tree := T } :=
    ⟨h.registered, by rw [h.wd], by rw [h.oneshot], fun _ => hT, h.term, h.frames⟩
  rw [Watching.act, if_pos ⟨hreg, hw⟩]
  by_cases hfail : d = -1
  · rw [if_pos (Or.inl hfail), ivInotifyWatchRegister, if_pos hfail]
    exact ⟨_, rfl, hdone _ _ htree⟩
  · simp only [ivInotifyWatchRegister, if_neg hfail]
    rw [h.wd]
    by_cases hused : ∃ v ∈ A.tree, A.wd v = d
    · rw [if_pos (Or.inr hused)]
      obtain ⟨v, hv, hwd⟩ := hused
      rw [htree.insert_used hw hv (by rw [hkeep v hv, hwd, hself])]
      exact ⟨_, rfl, h.wd ▸ hdone _ _ htree⟩
    · rw [if_neg (not_or.mpr ⟨hfail, hused⟩)]
      obtain ⟨tree', hinsert, htree'⟩ := htree.insert hw fun v hv hwd => hused
        ⟨v, hv, by rwa [hkeep v hv, hself] at hwd⟩
      rw [hinsert]
      exact ⟨_, rfl, h.wd ▸ hdone _ _ htree'⟩

lemma watchUnregister (h : Stands addr outer st A) (hreg : A.registered = true)
    (hw : w ∈ A.tree) :
    ∃ st', ivInotifyWatchUnregister st w = .ok st' ∧
      Stands addr outer st' { A with tree := A.tree.erase w } := by
  obtain ⟨tree', hdelete, htree'⟩ := (h.tree hreg).delete hw
  rw [ivInotifyWatchUnregister, hdelete]
  exact ⟨_, rfl, h.registered, h.wd, h.oneshot, fun _ => htree', h.term, h.frames⟩

/-- `term` leads to the variable `this` of the innermost call, and of no other. -/
lemma unregister (h : Stands addr outer st A) (houter : ∀ f ∈ outer, f.addr ≠ addr)
    (hreg : A.registered = true) :
    Stands addr outer (ivInotifyUnregister st) { A with registered := false } := by
  have hmap : outer.map (fun f => if f.addr = addr then { f with this := false } else f)
      = outer := by
    conv_rhs => rw [← List.map_id outer]
    exact List.map_congr_left fun f hf => if_neg (houter f hf)
  simp only [ivInotifyUnregister, h.term hreg, InotifyState.clearLocal]
  refine ⟨rfl, h.wd, h.oneshot, by simp, by simp, ?_⟩
  simp only [h.frames, List.map_cons, if_true, hmap]

lemma act (h : Stands addr outer st A) (houter : ∀ f ∈ outer, f.addr ≠ addr) (a : InotifyAct) :
    ∃ st', inotifyAct st a = .ok st' ∧ Stands addr outer st' (A.act a) ∧
      ∀ queue, (st.atEvents queue true).Leads (st'.atEvents queue true) := by
  by_cases hreg : A.registered = true
  · have hreg' : st.registered = true := h.registered.trans hreg
    cases a with
    | watchRegister w d oneshot =>
      by_cases hw : w ∈ A.tree
      · refine ⟨st, ?_, ?_, fun _ => .refl⟩
        · simp [inotifyAct, h.inTree hreg, hw]
        · rwa [Watching.act, if_neg fun hc => hc.2 hw]
      · rw [inotifyAct, if_pos ⟨hreg', by simp [h.inTree hreg, hw]⟩]
        obtain ⟨st', heq, h'⟩ := h.watchRegister hreg hw oneshot
        exact ⟨st', heq, h', fun _ => leads_watchRegister hreg' heq⟩
    | watchUnregister w =>
      by_cases hw : w ∈ A.tree
      · rw [inotifyAct, if_pos ⟨hreg', by simp [h.inTree hreg, hw]⟩, Watching.act,
          if_pos ⟨hreg, hw⟩]
        obtain ⟨st', heq, h'⟩ := h.watchUnregister hreg hw
        exact ⟨st', heq, h', fun _ => leads_watchUnregister hreg' heq⟩
      · refine ⟨st, ?_, ?_, fun _ => .refl⟩
        · simp [inotifyAct, h.inTree hreg, hw]
        · rwa [Watching.act, if_neg fun hc => hw hc.2]
    | unregister =>
      exact ⟨_, if_pos hreg', h.unregister houter hreg, fun _ => leads_unregister hreg'⟩
  · -- nothing is done to an instance that is not registered
    have hreg' : ¬ st.registered = true := by rwa [h.registered]
    refine ⟨st, ?_, ?_, fun _ => .refl⟩
    · cases a <;> simp [inotifyAct, hreg']
    · cases a with
      | watchRegister w d oneshot => rwa [Watching.act, if_neg fun hc => hreg hc.1]
      | watchUnregister w => rwa [Watching.act, if_neg fun hc => hreg hc.1]
      | unregister =>
        have hA : A.act .unregister = A := by
          rw [Bool.not_eq_true] at hreg
          rw [Watching.act, ← hreg]
        rwa [hA]

lemma acts (h : Stands addr outer st A) (houter : ∀ f ∈ outer, f.addr ≠ addr)
    (acts : List InotifyAct) :
    ∃ st', acts.foldlM inotifyAct st = .ok st' ∧
      Stands addr outer st' (acts.foldl Watching.act A) ∧
      ∀ queue, (st.atEvents queue true).Leads (st'.atEvents queue true) := by
  induction acts generalizing st A with
  | nil => exact ⟨st, rfl, h, fun _ => .refl⟩
  | cons a acts ih =>
    obtain ⟨st₁, heq, h₁, hleads⟩ := h.act houter a
    obtain ⟨st', heq', h', hleads'⟩ := ih h₁
    exact ⟨st', by rw [List.foldlM_cons, heq, ok_bind, heq'], h', fun queue =>
      (hleads queue).trans (hleads' queue)⟩

lemma retireWatch (h : Stands addr outer st A) (hreg : A.registered = true) (hw : w ∈ A.tree) :
    ∃ watches, Ivykis.retireWatch st w ⟨r.wd.toInt, r.ignored⟩ = .ok watches ∧
      Stands addr outer { st with watches := watches } (A.retire w r) := by
  have hone : st.oneshot w = A.oneshot w := by rw [h.oneshot]
  rw [Ivykis.retireWatch, Watching.retire, hone]
  split_ifs
  · obtain ⟨tree', hdelete, htree'⟩ := (h.tree hreg).delete hw
    exact ⟨tree', hdelete, h.registered, h.wd, h.oneshot, fun _ => htree', h.term, h.frames⟩
  · exact ⟨st.watches, rfl, h⟩

/-- The step that looks at an event. -/
lemma step_event (h : Stands addr outer st A) (hreg : A.registered = true) (event : InotifyEvent)
    (queue : List InotifyEvent) :
    inotifyStep (st.atEvents (event :: queue) false) .event = (do
      match ← findWatch st event.wd with
      | some w =>
        let watches ← Ivykis.retireWatch st w event
        return { st with watches := watches }.atEvents queue true
      | none => return st.atEvents queue false : Except Fault InotifyState).toOption := by
  simp only [inotifyStep, InotifyState.atEvents, h.frames, List.modifyHead_cons, hreg, and_self,
    if_true]
  rfl

lemma step_ret (h : Stands addr outer st A) (queue : List InotifyEvent) :
    inotifyStep (st.atEvents queue true) .ret = some (st.atEvents queue false) := by
  simp [inotifyStep, InotifyState.atEvents, h.frames]

end Stands

/-! ### The bytes of a record -/

section Bytes

variable {o : ByteOrder} {r : InotifyRecord} {buf before after : List UInt8}

lemma length_encode (o : ByteOrder) (r : InotifyRecord) : (r.encode o).length = r.size := by
  simp only [InotifyRecord.encode, List.length_append, length_bytes32, InotifyRecord.size,
    sizeofInotifyEvent]
  omega

lemma toNat_len (r : InotifyRecord) : r.len.toNat = r.name.length :=
  Nat.mod_eq_of_lt r.short

lemma readField_eq {off : ℕ} {v : BitVec 32} (hbuf : buf = before ++ r.encode o ++ after)
    (fields rest : List UInt8) (hrec : r.encode o = fields ++ bytes32 o v ++ rest)
    (hoff : off = fields.length) : readField o buf before.length off = .ok v := by
  rw [readField, read32_bytes32 o v (before ++ fields) (rest ++ after)]
  · rw [hbuf, hrec]
    simp only [List.append_assoc]
  · rw [hoff, List.length_append]

lemma readField_wd (hbuf : buf = before ++ r.encode o ++ after) :
    readField o buf before.length 0 = .ok r.wd := by
  apply readField_eq hbuf [] (bytes32 o r.mask ++ bytes32 o r.cookie ++ bytes32 o r.len ++ r.name)
  · simp [InotifyRecord.encode]
  · rfl

lemma readField_mask (hbuf : buf = before ++ r.encode o ++ after) :
    readField o buf before.length 4 = .ok r.mask := by
  apply readField_eq hbuf (bytes32 o r.wd) (bytes32 o r.cookie ++ bytes32 o r.len ++ r.name)
  · simp [InotifyRecord.encode]
  · simp

lemma readField_len (hbuf : buf = before ++ r.encode o ++ after) :
    readField o buf before.length 12 = .ok r.len := by
  apply readField_eq hbuf (bytes32 o r.wd ++ bytes32 o r.mask ++ bytes32 o r.cookie) r.name
  · rfl
  · simp

end Bytes

/-! ### The loop -/

section Loop

variable {o : ByteOrder} {addr : LocalPtr} {outer : List InotifyFrame} {st : InotifyState}
  {A : Watching} {r : InotifyRecord} {buf before after : List UInt8} {fuel : ℕ}
  (handler : ℕ → List InotifyAct) (n : ℕ)

/-- One record: nobody watches, or the handler of the watch is called after it has left the tree if
this is its last record. -/
lemma visitRecord_eq (h : Stands addr outer st A) (houter : ∀ f ∈ outer, f.addr ≠ addr)
    (hreg : A.registered = true) (hbuf : buf = before ++ r.encode o ++ after) :
    ((∀ w ∈ A.tree, A.wd w ≠ r.wd.toInt) ∧
      visitRecord o handler buf before.length n st = .ok (⟨before.length, none⟩, n, st) ∧
      ∀ queue, (st.atEvents (r.event :: queue) false).Leads (st.atEvents queue false)) ∨
    ∃ w ∈ A.tree, A.wd w = r.wd.toInt ∧ ∃ st',
      visitRecord o handler buf before.length n st
        = .ok (⟨before.length, some (w, !(r.ignored || A.oneshot w))⟩, n + 1, st') ∧
      Stands addr outer st' (A.handle w r (handler n)) ∧
      ∀ queue, (st.atEvents (r.event :: queue) false).Leads (st'.atEvents queue false) := by
  simp only [visitRecord, readField_wd hbuf, h.followThis hreg, ok_bind]
  have hevent := h.step_event hreg r.event
  by_cases hex : ∃ w ∈ A.tree, A.wd w = r.wd.toInt
  · right
    obtain ⟨w, hw, hwd⟩ := hex
    obtain ⟨watches, hretire, h₁⟩ := h.retireWatch (r := r) hreg hw
    obtain ⟨st', hacts, h', hleads⟩ := h₁.acts houter (handler n)
    have hfind : findWatch st r.wd.toInt = .ok (some w) := hwd ▸ h.findWatch_of_mem hreg hw
    have hreg₁ : (A.retire w r).registered = true := by
      rw [Watching.retire]
      split_ifs <;> exact hreg
    have hkept : ({ st with watches := watches } : InotifyState).inTree w
        = !(r.ignored || A.oneshot w) := by
      rw [h₁.inTree hreg₁, Watching.retire]
      split_ifs with hlast
      · simp [hlast]
      · simp [hlast, hw]
    refine ⟨w, hw, hwd, st', ?_, h', fun queue => ?_⟩
    · have hignored : (r.mask &&& inIgnored != 0) = r.ignored := rfl
      simp only [hfind, ok_bind, readField_mask hbuf, hignored, hretire, hkept, hacts]
    · refine .head ⟨.event, ?_⟩ ((hleads queue).tail ⟨.ret, h'.step_ret queue⟩)
      rw [hevent, InotifyRecord.event, hfind, ok_bind]
      simp only [hretire, ok_bind]
      rfl
  · left
    have hne : ∀ w ∈ A.tree, A.wd w ≠ r.wd.toInt := fun w hw hwd => hex ⟨w, hw, hwd⟩
    have hfind := h.findWatch_of_forall_ne hreg hne
    refine ⟨hne, by rw [hfind]; rfl, fun queue => .single ⟨.event, ?_⟩⟩
    rw [hevent, InotifyRecord.event, hfind]
    rfl

theorem inotifyLoop_eq {recs : List InotifyRecord} (h : Stands addr outer st A)
    (houter : ∀ f ∈ outer, f.addr ≠ addr) (hreg : A.registered = true)
    (hbuf : buf = before ++ recs.flatMap (·.encode o)) (hfuel : recs.length < fuel) :
    ∃ visits curr st' A', inotifyLoop o handler buf fuel before.length n st
        = .ok (visits, curr, st') ∧
      Dispatched handler recs before.length n A visits A' ∧ Stands addr outer st' A' ∧
      (A'.registered = true → curr = buf.length) ∧
      ∃ queue, (st.atEvents (recs.map (·.event)) false).Leads (st'.atEvents queue false) ∧
        (A'.registered = true → queue = []) := by
  induction recs generalizing before n st A fuel with
  | nil =>
    obtain ⟨fuel, rfl⟩ : ∃ k, fuel = k + 1 := ⟨fuel - 1, by omega⟩
    have hlen : before.length = buf.length := by simp [hbuf]
    refine ⟨[], before.length, st, A, ?_, .finished, h, fun _ => hlen, [], .refl, fun _ => rfl⟩
    rw [inotifyLoop, if_neg (by omega)]
  | cons r recs ih =>
    rw [List.length_cons] at hfuel
    obtain ⟨fuel, rfl⟩ : ∃ k, fuel = k + 1 := ⟨fuel - 1, by omega⟩
    have hbuf' : buf = before ++ r.encode o ++ recs.flatMap (·.encode o) := by
      rw [hbuf, List.flatMap_cons, List.append_assoc]
    have hnext : before.length + (r.len.toNat + sizeofInotifyEvent)
        = (before ++ r.encode o).length := by
      rw [List.length_append, length_encode, toNat_len, InotifyRecord.size]
    have hoff : (before ++ r.encode o).length = before.length + r.size := by
      rw [List.length_append, length_encode]
    have hlt : before.length < buf.length := by
      rw [hbuf', List.length_append, List.length_append, length_encode, InotifyRecord.size,
        sizeofInotifyEvent]
      omega
    have hfuel' : recs.length < fuel := by omega
    rw [inotifyLoop, if_pos hlt]
    rcases visitRecord_eq handler n h houter hreg hbuf' with
      ⟨hnone, hvisit, hleads⟩ | ⟨w, hw, hwd, st₁, hvisit, h₁, hleads⟩
    · obtain ⟨visits, curr, st', A', hloop, hdisp, h', hend, queue, hleads', hqueue⟩ :=
        ih (n := n) h hreg hbuf' hfuel'
      refine ⟨_, curr, st', A', ?_, .skipped hnone (hoff ▸ hdisp), h', hend, queue,
        (hleads _).trans hleads', hqueue⟩
      simp only [hvisit, readField_len hbuf', ok_bind, h.thisSet, hreg, hnext, hloop]
      rfl
    · by_cases hreg₁ : (A.handle w r (handler n)).registered = true
      · obtain ⟨visits, curr, st', A', hloop, hdisp, h', hend, queue, hleads', hqueue⟩ :=
          ih (n := n + 1) h₁ hreg₁ hbuf' hfuel'
        refine ⟨_, curr, st', A', ?_, .called hw hwd hreg₁ (hoff ▸ hdisp), h', hend, queue,
          (hleads _).trans hleads', hqueue⟩
        simp only [hvisit, readField_len hbuf', ok_bind, h₁.thisSet, hreg₁, hnext, hloop]
        rfl
      · rw [Bool.not_eq_true] at hreg₁
        refine ⟨_, before.length + (r.len.toNat + sizeofInotifyEvent), st₁, _, ?_,
          .stopped hw hwd hreg₁, h₁, by simp [hreg₁], _, hleads _, by simp [hreg₁]⟩
        simp only [hvisit, readField_len hbuf', ok_bind, h₁.thisSet, hreg₁, if_true]

lemma length_le_flatMap_encode (o : ByteOrder) (recs : List InotifyRecord) :
    recs.length ≤ (recs.flatMap (·.encode o)).length := by
  induction recs with
  | nil => exact Nat.zero_le _
  | cons r recs ih =>
    rw [List.flatMap_cons, List.length_append, length_encode, List.length_cons,
      InotifyRecord.size, sizeofInotifyEvent]
    omega

/-- `iv_inotify_got_event` hands out the records of a buffer, whatever the handlers do. It returns
at the end of the buffer, unless the instance is gone. The call is made of the steps of an
instance. -/
theorem gotEvent_dispatches {recs : List InotifyRecord} {T : Finset AvlPtr}
    (hreg : st.registered = true) (htree : KeyTree st.wd st.watches T)
    (haddr : ∀ f ∈ st.frames, f.addr ≠ addr) (hrecs : recs ≠ [])
    (hbuf : buf = recs.flatMap (·.encode o)) :
    ∃ visits curr st' A', ivInotifyGotEvent o handler addr (.data buf) st
        = .ok (visits, curr, st') ∧
      Dispatched handler recs 0 0 ⟨true, T, st.wd, st.oneshot⟩ visits A' ∧
      st'.frames = st.frames ∧ st'.registered = A'.registered ∧
      (A'.registered = true → curr = buf.length ∧ st'.term = none ∧ st'.wd = A'.wd ∧
        st'.oneshot = A'.oneshot ∧ KeyTree A'.wd st'.watches A'.tree) ∧
      (st.inUser = true → st.Leads st') := by
  have hlen := hbuf ▸ length_le_flatMap_encode o recs
  have hstands : Stands addr st.frames
      { st with term := some addr, frames := ⟨addr, true, [], false⟩ :: st.frames }
      ⟨true, T, st.wd, st.oneshot⟩ := ⟨hreg, rfl, rfl, fun _ => htree, fun _ => rfl, rfl⟩
  obtain ⟨visits, curr, st', A', hloop, hdisp, h', hend, queue, hleads, hqueue⟩ :=
    inotifyLoop_eq handler 0 hstands haddr rfl (hbuf.trans (List.nil_append _).symm)
      (Nat.lt_succ_of_le hlen)
  obtain ⟨b, bs, rfl⟩ : ∃ b bs, buf = b :: bs := by
    refine List.exists_cons_of_ne_nil fun hnil => hrecs (List.length_eq_zero_iff.mp ?_)
    simpa [hnil] using hlen
  rw [List.length_nil] at hloop
  have hsteps (st₁ : InotifyState)
      (hleave : inotifyStep (st'.atEvents queue false) .leave = some st₁)
      (huser : st.inUser = true) : st.Leads st₁ := by
    refine .head ⟨.gotEvent addr (recs.map (·.event)), ?_⟩ (hleads.tail ⟨.leave, hleave⟩)
    rw [inotifyStep, if_pos ⟨huser, hreg, haddr⟩, if_neg (by simpa using hrecs)]
    rfl
  cases hreg' : A'.registered with
  | true =>
    refine ⟨visits, curr, { st' with term := none, frames := st'.frames.tail }, A', ?_, hdisp, ?_,
      h'.registered, fun _ => ⟨hend hreg', rfl, h'.wd, h'.oneshot, h'.tree hreg'⟩, hsteps _ ?_⟩
    · simp only [ivInotifyGotEvent, hloop, ok_bind, h'.thisSet, hreg', if_true,
        h'.followThis hreg']
    · rw [h'.frames]
      rfl
    · simp [inotifyStep, InotifyState.atEvents, h'.frames, hreg', hqueue hreg']
  | false =>
    refine ⟨visits, curr, { st' with frames := st'.frames.tail }, A', ?_, hdisp, ?_,
      h'.registered, by simp [hreg'], hsteps _ ?_⟩
    · simp only [ivInotifyGotEvent, hloop, ok_bind, h'.thisSet, hreg']
      rfl
    · rw [h'.frames]
      rfl
    · simp [inotifyStep, InotifyState.atEvents, h'.frames, hreg']

/-- Two events for the same watch, the first one with a name. -/
def twoRecords : List InotifyRecord :=
  [⟨4, 0x100, 0, [97, 0], by decide⟩, ⟨4, 0x200, 0, [], by decide⟩]

/-- The handler of the first event unregisters the instance, and the second is not looked at. -/
theorem gotEvent_dispatches_stopped :
    ∃ st curr st', ivInotifyGotEvent .little (fun _ => [.unregister]) 9
        (.data (twoRecords.flatMap (·.encode .little))) st
      = .ok ([⟨0, some (1, true)⟩], curr, st') ∧ st'.registered = false := by
  obtain ⟨tree, -, htree⟩ := (KeyTree.empty (fun _ => 4) emptyNodes).insert (a := 1)
    (Finset.notMem_empty 1) (by simp)
  set st : InotifyState := ⟨true, none, tree, fun _ => 4, fun _ => false, []⟩ with hst
  have haddr : ∀ f ∈ st.frames, f.addr ≠ 9 := by simp [hst]
  obtain ⟨visits, curr, st', A', heq, hdisp, -, hreg, -, -⟩ :=
    gotEvent_dispatches (fun _ => [.unregister]) (rfl : st.registered = true) htree haddr
      (by decide) (rfl : _ = twoRecords.flatMap (·.encode .little))
  cases hdisp with
  | skipped hnone => exact absurd rfl (hnone 1 (by simp))
  | called hw hwd hreg' => cases hreg'
  | stopped hw hwd hreg' =>
    obtain rfl := Finset.mem_singleton.mp hw
    exact ⟨st, curr, st', heq, hreg⟩

end Loop

end Ivykis
