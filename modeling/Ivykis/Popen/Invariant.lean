import Ivykis.Popen.Basic

/-!
# The invariant of `iv_popen`

While a record exists its interest is registered, and its timer is registered from the time that the
request is closed, except while the timer's handler runs. Nothing is registered in memory that is
not a record: not with `iv_wait`, where it could still get a status, and not among the timers.
-/

namespace Ivykis

namespace PopenPc

/-- The record that the handler was called for, until it is freed. -/
def record : PopenPc → Option InterestPtr
  | .wait ch _ | .waitUnregister ch | .timer ch | .killFailed ch | .timerUnregister ch => some ch
  | .outside | .waitReturn => none

/-- The record that `iv_popen_running_child_timer` was called for. -/
def timerOf : PopenPc → Option InterestPtr
  | .timer ch | .killFailed ch | .timerUnregister ch => some ch
  | .outside | .waitReturn | .wait _ _ | .waitUnregister _ => none

/-- The handler is going to free the record. -/
def Frees (M : StatusMacros) (ch : InterestPtr) : PopenPc → Prop
  | .wait i status => i = ch ∧ M.gone status
  | .waitUnregister i | .killFailed i | .timerUnregister i => i = ch
  | .outside | .waitReturn | .timer _ => False

/-- Where the thread is with respect to `iv_wait`. -/
def Fits (isUser : InterestPtr → Bool) (t : WaitThread) : PopenPc → Prop
  | .outside => ∀ i, t.unregistering = some i → isUser i
  | .waitReturn => t.unregistering = none
  | .wait _ _ | .timer _ | .killFailed _ => t.inUserCode
  | .waitUnregister ch | .timerUnregister ch => t.unregistering = some ch

lemma record_of_timerOf {pc : PopenPc} {ch : InterestPtr} (h : pc.timerOf = some ch) :
    pc.record = some ch := by
  cases pc <;> first | exact h | cases h

lemma Frees.record {M : StatusMacros} {pc : PopenPc} {ch : InterestPtr} (h : pc.Frees M ch) :
    pc.record = some ch := by
  cases pc with
  | wait i status => exact congrArg some h.1
  | waitUnregister | killFailed | timerUnregister => exact congrArg some h
  | outside | waitReturn | timer => exact absurd h id

end PopenPc

namespace PopenSystem

/-- The handler of the record of the submission has been called for a child that is gone. -/
def Died (M : StatusMacros) (s : PopenSystem) (n : ℕ) : Prop :=
  ∃ status, (n, status) ∈ s.handled ∧ M.gone status

/-- `iv_wait_interest_kill` has returned an error for the submission. -/
def KillFailed (s : PopenSystem) (n : ℕ) : Prop :=
  ∃ sig ret, (n, sig, ret) ∈ s.kills ∧ ret < 0

/-- Why a handler is where it is. -/
def Reason (M : StatusMacros) (s : PopenSystem) (n : ℕ) : PopenPc → Prop
  | .wait _ status => (n, status) ∈ s.handled
  | .waitUnregister _ => s.Died M n
  | .killFailed _ | .timerUnregister _ => s.KillFailed n
  | .outside | .waitReturn | .timer _ => True

end PopenSystem

/-- The record at `ch` is `c`. -/
structure RecordInv (M : StatusMacros) (s : PopenSystem) (ch : InterestPtr) (c : RunningChild) :
    Prop where
  isUser : s.isUser ch = false
  serial : c.serial < s.submits
  alive  : c.serial ∉ s.freed
  owner  : s.sys.st.owner ch = some c.thread
  parent : ∀ this, c.parent = some this →
    s.opened this = some (c.serial, c.thread) ∧ s.child this = some ch
  closed : c.serial ∈ s.closed ↔ c.parent = none
  armed  : s.armed ch =
    if c.parent = none ∧ (s.pc c.thread).timerOf ≠ some ch then some c.thread else none
  onHeap : c.parent = none → c.onHeap = (s.armed ch).isSome
  timer  : (s.pc c.thread).timerOf = some ch → c.parent = none
  dead   : s.Died M c.serial ∨ s.KillFailed c.serial → (s.pc c.thread).Frees M ch

structure ThreadInv (M : StatusMacros) (s : PopenSystem) (th : ThreadId) : Prop where
  fits   : (s.pc th).Fits s.isUser (s.sys.st.thread th)
  record : ∀ ch, (s.pc th).record = some ch →
    ∃ c, s.heap ch = some c ∧ c.thread = th ∧ s.Reason M c.serial (s.pc th)

structure PopenInv (M : StatusMacros) (s : PopenSystem) : Prop where
  sys     : KillInv s.sys
  records : ∀ ch c, s.heap ch = some c → RecordInv M s ch c
  unique  : ∀ ch ch' c c', s.heap ch = some c → s.heap ch' = some c' → c.serial = c'.serial →
    ch = ch'
  threads : ∀ th, ThreadInv M s th
  gone    : ∀ ch, s.heap ch = none →
    s.armed ch = none ∧ (s.isUser ch = false → s.sys.st.owner ch = none)
  /-- A request that has been submitted and not been closed. -/
  opened  : ∀ this n th, s.opened this = some (n, th) → (n ∈ s.freed → s.child this = none) ∧
    (n ∉ s.freed → ∃ ch c, s.heap ch = some c ∧ c.serial = n ∧ c.parent = some this)
  lost    : ∀ n < s.submits, n ∉ s.freed → ∃ ch c, s.heap ch = some c ∧ c.serial = n
  freed   : s.freed.Nodup
  cause   : ∀ n ∈ s.freed, n < s.submits ∧ (s.Died M n ∨ n ∈ s.closed ∧ s.KillFailed n)
  closed  : ∀ n ∈ s.closed, n < s.submits
  handled : ∀ x ∈ s.handled, x.1 < s.submits
  kills   : ∀ x ∈ s.kills, x.1 < s.submits

lemma PopenInv.eq_of_serial {M : StatusMacros} {s : PopenSystem} {ch ch' : InterestPtr}
    {c c' : RunningChild} (h : PopenInv M s) (hc : s.heap ch = some c) (hc' : s.heap ch' = some c')
    (hserial : c.serial = c'.serial) : ch = ch' ∧ c = c' := by
  obtain rfl := h.unique ch ch' c c' hc hc' hserial
  exact ⟨rfl, Option.some.inj (hc.symm.trans hc')⟩

/-! ### A step for one record -/

/-- The thread `th` changes the record at `ch` from `c` to `c'`. -/
structure LocalStep (s s' : PopenSystem) (th : ThreadId) (ch : InterestPtr) (c c' : RunningChild) :
    Prop where
  record  : s.heap ch = some c
  thread  : c.thread = th
  pc      : ∀ i, (s.pc th).record = some i → i = ch
  heap    : s'.heap = Function.update s.heap ch (some c')
  serial  : c'.serial = c.serial
  thread' : c'.thread = th
  pc'     : ∀ i, (s'.pc th).record = some i → i = ch
  pcs     : ∀ th', th' ≠ th → s'.pc th' = s.pc th'
  armed   : ∀ i, i ≠ ch → s'.armed i = s.armed i
  same    : s'.isUser = s.isUser ∧ s'.submits = s.submits ∧ s'.freed = s.freed ∧ s'.child = s.child
  owner   : s'.sys.st.owner = s.sys.st.owner
  threads : ∀ th', th' ≠ th → s'.sys.st.thread th' = s.sys.st.thread th'
  /-- Either the request stays as it is, or it is closed. -/
  opened  : c'.parent = c.parent ∧ s'.opened = s.opened ∨
    c'.parent = none ∧ ∃ r, c.parent = some r ∧ s'.opened = Function.update s.opened r none
  closed  : (∀ n ∈ s.closed, n ∈ s'.closed) ∧ ∀ n ∈ s'.closed, n ∈ s.closed ∨ n = c.serial
  handled : (∀ x ∈ s.handled, x ∈ s'.handled) ∧ ∀ x ∈ s'.handled, x ∈ s.handled ∨ x.1 = c.serial
  kills   : (∀ x ∈ s.kills, x ∈ s'.kills) ∧ ∀ x ∈ s'.kills, x ∈ s.kills ∨ x.1 = c.serial

namespace LocalStep

variable {M : StatusMacros} {s s' : PopenSystem} {th th' : ThreadId} {ch i : InterestPtr}
  {c c' c₁ : RunningChild} {n : ℕ}

lemma died (hl : LocalStep s s' th ch c c') (h : s.Died M n) : s'.Died M n := by
  obtain ⟨status, hmem, hgone⟩ := h
  exact ⟨status, hl.handled.1 _ hmem, hgone⟩

lemma killFailed (hl : LocalStep s s' th ch c c') (h : s.KillFailed n) : s'.KillFailed n := by
  obtain ⟨sig, ret, hmem, hret⟩ := h
  exact ⟨sig, ret, hl.kills.1 _ hmem, hret⟩

lemma of_dead (hl : LocalStep s s' th ch c c') (hn : n ≠ c.serial)
    (h : s'.Died M n ∨ s'.KillFailed n) : s.Died M n ∨ s.KillFailed n := by
  rcases h with ⟨status, hmem, hgone⟩ | ⟨sig, ret, hmem, hret⟩
  · exact Or.inl ⟨status, (hl.handled.2 _ hmem).resolve_right hn, hgone⟩
  · exact Or.inr ⟨sig, ret, (hl.kills.2 _ hmem).resolve_right hn, hret⟩

lemma reason (hl : LocalStep s s' th ch c c') {pc : PopenPc} (h : s.Reason M n pc) :
    s'.Reason M n pc := by
  cases pc with
  | wait i status => exact hl.handled.1 _ h
  | waitUnregister => exact hl.died h
  | killFailed | timerUnregister => exact hl.killFailed h
  | outside | waitReturn | timer => trivial

lemma pc_eq_of_record (hl : LocalStep s s' th ch c c') (hi : i ≠ ch) (th' : ThreadId) :
    (s'.pc th').record = some i → s'.pc th' = s.pc th' := by
  intro hrec
  by_cases hth : th' = th
  · subst hth
    exact absurd (hl.pc' i hrec) hi
  · exact hl.pcs th' hth

lemma pc_eq_of_record_before (hl : LocalStep s s' th ch c c') (hi : i ≠ ch) (th' : ThreadId) :
    (s.pc th').record = some i → s'.pc th' = s.pc th' := by
  intro hrec
  by_cases hth : th' = th
  · subst hth
    exact absurd (hl.pc i hrec) hi
  · exact hl.pcs th' hth

lemma timerOf_iff (hl : LocalStep s s' th ch c c') (hi : i ≠ ch) (th' : ThreadId) :
    (s'.pc th').timerOf = some i ↔ (s.pc th').timerOf = some i := by
  constructor
  · intro h
    rwa [hl.pc_eq_of_record hi th' (PopenPc.record_of_timerOf h)] at h
  · intro h
    rwa [hl.pc_eq_of_record_before hi th' (PopenPc.record_of_timerOf h)]

lemma heap_of_ne (hl : LocalStep s s' th ch c c') (hi : i ≠ ch) : s'.heap i = s.heap i := by
  rw [hl.heap, Function.update_of_ne hi]

lemma heap_self (hl : LocalStep s s' th ch c c') : s'.heap ch = some c' := by
  rw [hl.heap, Function.update_self]

lemma recordInv (hl : LocalStep s s' th ch c c') (h : PopenInv M s) (hi : i ≠ ch)
    (hc₁ : s.heap i = some c₁) : RecordInv M s' i c₁ := by
  have hr := h.records i c₁ hc₁
  obtain ⟨hu, hsub, hfreed, hchild⟩ := hl.same
  have hne : c₁.serial ≠ c.serial := fun he => hi (h.eq_of_serial hc₁ hl.record he).1
  have htimer := hl.timerOf_iff hi c₁.thread
  refine ⟨hu ▸ hr.isUser, hsub ▸ hr.serial, hfreed ▸ hr.alive, hl.owner ▸ hr.owner,
    fun this hthis => ?_, ?_, ?_, ?_, fun ht => hr.timer (htimer.mp ht), fun hd => ?_⟩
  · obtain ⟨ho, hc⟩ := hr.parent this hthis
    refine ⟨?_, hchild ▸ hc⟩
    rcases hl.opened with ⟨-, hop⟩ | ⟨-, r, hr', hop⟩
    · rw [hop, ho]
    · rw [hop, Function.update_of_ne, ho]
      rintro rfl
      have ho' := ((h.records ch c hl.record).parent this hr').1
      rw [ho] at ho'
      exact hne (Prod.mk.inj (Option.some.inj ho')).1
  · rw [← hr.closed]
    exact ⟨fun hm => (hl.closed.2 _ hm).resolve_right hne, hl.closed.1 _⟩
  · rw [hl.armed i hi, hr.armed]
    simp only [ne_eq, htimer]
  · rw [hl.armed i hi]
    exact hr.onHeap
  · have hf := hr.dead (hl.of_dead hne hd)
    rwa [hl.pc_eq_of_record_before hi _ hf.record]

lemma threadInv (hl : LocalStep s s' th ch c c') (h : PopenInv M s) (hth : th' ≠ th) :
    ThreadInv M s' th' := by
  have ht := h.threads th'
  refine ⟨?_, fun i hi => ?_⟩
  · rw [hl.pcs th' hth, hl.threads th' hth, hl.same.1]
    exact ht.fits
  · rw [hl.pcs th' hth] at hi ⊢
    obtain ⟨c₁, hc₁, hthread, hreason⟩ := ht.record i hi
    have hne : i ≠ ch := by
      rintro rfl
      obtain rfl := Option.some.inj (hc₁.symm.trans hl.record)
      exact hth (hthread.symm.trans hl.thread)
    exact ⟨c₁, (hl.heap_of_ne hne).trans hc₁, hthread, hl.reason hreason⟩

/-- A step of the timer's handler: next to the record it changes the timer, and it may have sent
signals. -/
lemma of_timer {pc' : PopenPc} {sent : List (ℕ × ℤ × ℤ)} (hc : s.heap ch = some c)
    (hth : c.thread = th) (hpc : ∀ i, (s.pc th).record = some i → i = ch)
    (hrec : c'.serial = c.serial ∧ c'.thread = c.thread ∧ c'.parent = c.parent)
    (hheap : s'.heap ch = some c')
    (hframe : ∀ i, i ≠ ch → s'.heap i = s.heap i ∧ s'.armed i = s.armed i)
    (hself : s'.pc th = pc') (hpc' : ∀ i, pc'.record = some i → i = ch)
    (hpcs : ∀ th', th' ≠ th → s'.pc th' = s.pc th')
    (hkills : s'.kills = s.kills ++ sent) (hsent : ∀ x ∈ sent, x.1 = c.serial)
    (hreqs : ∀ r, s'.child r = s.child r ∧ s'.opened r = s.opened r)
    (hrest : s'.sys = s.sys ∧ (∀ i, s'.isUser i = s.isUser i) ∧ s'.submits = s.submits ∧
      s'.freed = s.freed ∧ s'.closed = s.closed ∧ s'.handled = s.handled) :
    LocalStep s s' th ch c c' := by
  obtain ⟨hserial, hthread, hparent⟩ := hrec
  obtain ⟨hsys, huser, hsubmits, hfreed, hclosed, hhandled⟩ := hrest
  refine ⟨hc, hth, hpc, ?_, hserial, hthread.trans hth, hself ▸ hpc', hpcs,
    fun i hi => (hframe i hi).2, ⟨funext huser, hsubmits, hfreed, funext fun r => (hreqs r).1⟩,
    by rw [hsys], fun _ _ => by rw [hsys], Or.inl ⟨hparent, funext fun r => (hreqs r).2⟩, ?_, ?_,
    ?_⟩
  · exact Function.eq_update_iff.mpr ⟨hheap, fun i hi => (hframe i hi).1⟩
  · rw [hclosed]
    exact ⟨fun _ hn => hn, fun _ => Or.inl⟩
  · rw [hhandled]
    exact ⟨fun _ hx => hx, fun _ => Or.inl⟩
  · rw [hkills]
    exact ⟨fun _ hx => List.mem_append_left _ hx,
      fun x hx => (List.mem_append.mp hx).imp id (hsent x)⟩

/-- A step keeps the invariant if it does so for its thread and its record. -/
lemma popenInv (h : PopenInv M s) (th : ThreadId) (ch : InterestPtr) (c c' : RunningChild)
    (hl : LocalStep s s' th ch c c') (hsys : KillInv s'.sys)
    (hrec : RecordInv M s' ch c') (hthr : ThreadInv M s' th) : PopenInv M s' := by
  obtain ⟨hu, hsub, hfreed, hchild⟩ := hl.same
  have hserial := (h.records ch c hl.record).serial
  -- a record is where it was
  have hback : ∀ i c₁, s'.heap i = some c₁ → ∃ c₀, s.heap i = some c₀ ∧ c₀.serial = c₁.serial := by
    intro i c₁ hc₁
    by_cases hi : i = ch
    · subst hi
      obtain rfl := Option.some.inj (hl.heap_self.symm.trans hc₁)
      exact ⟨c, hl.record, hl.serial.symm⟩
    · exact ⟨c₁, (hl.heap_of_ne hi).symm.trans hc₁, rfl⟩
  have hforth : ∀ i c₀, s.heap i = some c₀ → ∃ c₁, s'.heap i = some c₁ ∧ c₁.serial = c₀.serial := by
    intro i c₀ hc₀
    by_cases hi : i = ch
    · subst hi
      obtain rfl := Option.some.inj (hl.record.symm.trans hc₀)
      exact ⟨c', hl.heap_self, hl.serial⟩
    · exact ⟨c₀, (hl.heap_of_ne hi).trans hc₀, rfl⟩
  refine ⟨hsys, fun i c₁ hc₁ => ?_, fun i j c₁ c₂ h₁ h₂ heq => ?_, fun th' => ?_, fun i hi => ?_,
    fun this n th' ho => ?_, fun n hn hf => ?_, hfreed ▸ h.freed, fun n hn => ?_, fun n hn => ?_,
    fun x hx => ?_, fun x hx => ?_⟩
  · by_cases hi : i = ch
    · subst hi
      obtain rfl := Option.some.inj (hl.heap_self.symm.trans hc₁)
      exact hrec
    · exact hl.recordInv h hi ((hl.heap_of_ne hi).symm.trans hc₁)
  · obtain ⟨c₁', h₁', hs₁⟩ := hback i c₁ h₁
    obtain ⟨c₂', h₂', hs₂⟩ := hback j c₂ h₂
    exact h.unique i j c₁' c₂' h₁' h₂' (by rw [hs₁, hs₂, heq])
  · by_cases hth : th' = th
    · exact hth ▸ hthr
    · exact hl.threadInv h hth
  · have hne : i ≠ ch := by
      rintro rfl
      rw [hl.heap_self] at hi
      cases hi
    rw [hl.heap_of_ne hne] at hi
    rw [hl.armed i hne, hu, hl.owner]
    exact h.gone i hi
  · have hthis : s.opened this = some (n, th') ∧ (c.parent = some this → c'.parent = c.parent) := by
      rcases hl.opened with ⟨hp, hop⟩ | ⟨-, r, hr, hop⟩
      · exact ⟨hop ▸ ho, fun _ => hp⟩
      · rw [hop, Function.update_apply] at ho
        split_ifs at ho with hne
        exact ⟨ho, fun hp => absurd (Option.some.inj (hp.symm.trans hr)) hne⟩
    rw [hfreed, hchild]
    obtain ⟨hf, hex⟩ := h.opened this n th' hthis.1
    refine ⟨hf, fun hn => ?_⟩
    obtain ⟨i, c₁, hc₁, hs, hp⟩ := hex hn
    by_cases hi : i = ch
    · subst hi
      obtain rfl := Option.some.inj (hl.record.symm.trans hc₁)
      exact ⟨i, c', hl.heap_self, hl.serial.trans hs, (hthis.2 hp).trans hp⟩
    · exact ⟨i, c₁, (hl.heap_of_ne hi).trans hc₁, hs, hp⟩
  · rw [hsub] at hn
    rw [hfreed] at hf
    obtain ⟨i, c₁, hc₁, hs⟩ := h.lost n hn hf
    obtain ⟨c₂, hc₂, hs₂⟩ := hforth i c₁ hc₁
    exact ⟨i, c₂, hc₂, hs₂.trans hs⟩
  · rw [hfreed] at hn
    rw [hsub]
    obtain ⟨hlt, hcause⟩ := h.cause n hn
    exact ⟨hlt, hcause.imp hl.died fun hk => ⟨hl.closed.1 n hk.1, hl.killFailed hk.2⟩⟩
  · rw [hsub]
    rcases hl.closed.2 n hn with hn | rfl
    · exact h.closed n hn
    · exact hserial
  · rw [hsub]
    rcases hl.handled.2 x hx with hx | hx
    · exact h.handled x hx
    · exact hx ▸ hserial
  · rw [hsub]
    rcases hl.kills.2 x hx with hx | hx
    · exact h.kills x hx
    · exact hx ▸ hserial

end LocalStep

/-! ### Freeing a record -/

/-- The thread `th` frees the record `c` at `ch`, whose interest and timer are not registered any
more. -/
structure FreeStep (s s' : PopenSystem) (th : ThreadId) (ch : InterestPtr) (c : RunningChild) :
    Prop where
  record  : s.heap ch = some c
  thread  : c.thread = th
  pc      : ∀ i, (s.pc th).record = some i → i = ch
  heap    : s'.heap = Function.update s.heap ch none
  pc'     : (s'.pc th).record = none
  pcs     : ∀ th', th' ≠ th → s'.pc th' = s.pc th'
  armed   : s'.armed ch = none ∧ ∀ i, i ≠ ch → s'.armed i = s.armed i
  child   : ∀ this, s'.child this = if c.parent = some this then none else s.child this
  owner   : s'.sys.st.owner = Function.update s.sys.st.owner ch none
  threads : ∀ th', th' ≠ th → s'.sys.st.thread th' = s.sys.st.thread th'
  freed   : s'.freed = s.freed ++ [c.serial]
  same    : s'.isUser = s.isUser ∧ s'.submits = s.submits ∧ s'.opened = s.opened
  logs    : s'.closed = s.closed ∧ s'.handled = s.handled ∧ s'.kills = s.kills

namespace FreeStep

variable {M : StatusMacros} {s s' : PopenSystem} {th th' : ThreadId} {ch i : InterestPtr}
  {c c₁ : RunningChild} {n : ℕ}

lemma died_iff (hf : FreeStep s s' th ch c) : s'.Died M n ↔ s.Died M n := by
  rw [PopenSystem.Died, PopenSystem.Died, hf.logs.2.1]

lemma killFailed_iff (hf : FreeStep s s' th ch c) : s'.KillFailed n ↔ s.KillFailed n := by
  rw [PopenSystem.KillFailed, PopenSystem.KillFailed, hf.logs.2.2]

lemma reason (hf : FreeStep s s' th ch c) {pc : PopenPc} (h : s.Reason M n pc) :
    s'.Reason M n pc := by
  cases pc with
  | wait i status =>
    rw [PopenSystem.Reason, hf.logs.2.1]
    exact h
  | waitUnregister => exact hf.died_iff.mpr h
  | killFailed | timerUnregister => exact hf.killFailed_iff.mpr h
  | outside | waitReturn | timer => trivial

lemma heap_eq (hf : FreeStep s s' th ch c) (hc₁ : s'.heap i = some c₁) :
    i ≠ ch ∧ s.heap i = some c₁ := by
  rw [hf.heap, Function.update_apply] at hc₁
  split_ifs at hc₁ with hi
  exact ⟨hi, hc₁⟩

lemma heap_of_ne (hf : FreeStep s s' th ch c) (hi : i ≠ ch) : s'.heap i = s.heap i := by
  rw [hf.heap, Function.update_of_ne hi]

lemma recordInv (hf : FreeStep s s' th ch c) (h : PopenInv M s) (hc₁ : s'.heap i = some c₁) :
    RecordInv M s' i c₁ := by
  obtain ⟨hi, hc₁⟩ := hf.heap_eq hc₁
  have hr := h.records i c₁ hc₁
  obtain ⟨hu, hsub, hop⟩ := hf.same
  have hne : c₁.serial ≠ c.serial := fun he => hi (h.eq_of_serial hc₁ hf.record he).1
  -- whoever is in a handler of `i` is another thread
  have hpc : (s.pc c₁.thread).record = some i → s'.pc c₁.thread = s.pc c₁.thread := by
    intro hrec
    refine hf.pcs _ fun he => hi (hf.pc i ?_)
    rwa [he] at hrec
  have hpc' : (s'.pc c₁.thread).record = some i → s'.pc c₁.thread = s.pc c₁.thread := by
    intro hrec
    refine hf.pcs _ fun he => ?_
    rw [he, hf.pc'] at hrec
    cases hrec
  have htimer : (s'.pc c₁.thread).timerOf = some i ↔ (s.pc c₁.thread).timerOf = some i := by
    constructor
    · intro ht
      rwa [hpc' (PopenPc.record_of_timerOf ht)] at ht
    · intro ht
      rwa [hpc (PopenPc.record_of_timerOf ht)]
  refine ⟨hu ▸ hr.isUser, hsub ▸ hr.serial, ?_, ?_, fun this hthis => ?_, ?_, ?_, ?_,
    fun ht => hr.timer (htimer.mp ht), fun hd => ?_⟩
  · rw [hf.freed, List.mem_append, List.mem_singleton, not_or]
    exact ⟨hr.alive, hne⟩
  · rw [hf.owner, Function.update_of_ne hi]
    exact hr.owner
  · obtain ⟨ho, hc⟩ := hr.parent this hthis
    rw [hop, hf.child, if_neg]
    · exact ⟨ho, hc⟩
    · intro hp
      have ho' := ((h.records ch c hf.record).parent this hp).1
      rw [ho] at ho'
      exact hne (Prod.mk.inj (Option.some.inj ho')).1
  · rw [hf.logs.1]
    exact hr.closed
  · rw [hf.armed.2 i hi, hr.armed]
    simp only [ne_eq, htimer]
  · rw [hf.armed.2 i hi]
    exact hr.onHeap
  · rw [hf.died_iff, hf.killFailed_iff] at hd
    have hfrees := hr.dead hd
    rwa [hpc hfrees.record]

lemma threadInv (hf : FreeStep s s' th ch c) (h : PopenInv M s) (hth : th' ≠ th) :
    ThreadInv M s' th' := by
  have ht := h.threads th'
  refine ⟨?_, fun i hi => ?_⟩
  · rw [hf.pcs th' hth, hf.threads th' hth, hf.same.1]
    exact ht.fits
  · rw [hf.pcs th' hth] at hi ⊢
    obtain ⟨c₁, hc₁, hthread, hreason⟩ := ht.record i hi
    have hne : i ≠ ch := by
      rintro rfl
      obtain rfl := Option.some.inj (hc₁.symm.trans hf.record)
      exact hth (hthread.symm.trans hf.thread)
    exact ⟨c₁, (hf.heap_of_ne hne).trans hc₁, hthread, hf.reason hreason⟩

/-- A record is freed because its child is gone, or cannot be sent signals. -/
lemma popenInv (h : PopenInv M s) (th : ThreadId) (ch : InterestPtr) (c : RunningChild)
    (hf : FreeStep s s' th ch c) (hsys : KillInv s'.sys)
    (hcause : s.Died M c.serial ∨ c.serial ∈ s.closed ∧ s.KillFailed c.serial)
    (hfits : (s'.pc th).Fits s'.isUser (s'.sys.st.thread th)) : PopenInv M s' := by
  have hr := h.records ch c hf.record
  obtain ⟨hu, hsub, hop⟩ := hf.same
  refine ⟨hsys, fun i c₁ hc₁ => hf.recordInv h hc₁, fun i j c₁ c₂ h₁ h₂ heq => ?_, fun th' => ?_,
    fun i hi => ?_, fun this n th' ho => ?_, fun n hn hnf => ?_, ?_, fun n hn => ?_, ?_, ?_, ?_⟩
  · exact h.unique i j c₁ c₂ (hf.heap_eq h₁).2 (hf.heap_eq h₂).2 heq
  · by_cases hth : th' = th
    · subst hth
      refine ⟨hfits, fun i hi => ?_⟩
      rw [hf.pc'] at hi
      cases hi
    · exact hf.threadInv h hth
  · by_cases hich : i = ch
    · subst hich
      exact ⟨hf.armed.1, fun _ => by rw [hf.owner, Function.update_self]⟩
    · rw [hf.heap_of_ne hich] at hi
      rw [hf.armed.2 i hich, hu, hf.owner, Function.update_of_ne hich]
      exact h.gone i hi
  · rw [hop] at ho
    obtain ⟨hnone, hex⟩ := h.opened this n th' ho
    have hc : n = c.serial → c.parent = some this := by
      rintro rfl
      obtain ⟨i, c₁, hc₁, hs, hp⟩ := hex hr.alive
      rwa [← (h.eq_of_serial hc₁ hf.record hs).2]
    rw [hf.freed, hf.child]
    refine ⟨fun hn => ?_, fun hn => ?_⟩
    · split_ifs with hp
      · rfl
      · rcases List.mem_append.mp hn with hn | hn
        · exact hnone hn
        · exact absurd (hc (List.mem_singleton.mp hn)) hp
    · rw [List.mem_append, List.mem_singleton, not_or] at hn
      obtain ⟨i, c₁, hc₁, hs, hp⟩ := hex hn.1
      refine ⟨i, c₁, (hf.heap_of_ne ?_).trans hc₁, hs, hp⟩
      rintro rfl
      obtain rfl := Option.some.inj (hc₁.symm.trans hf.record)
      exact hn.2 hs.symm
  · rw [hsub] at hn
    rw [hf.freed, List.mem_append, List.mem_singleton, not_or] at hnf
    obtain ⟨i, c₁, hc₁, hs⟩ := h.lost n hn hnf.1
    refine ⟨i, c₁, (hf.heap_of_ne ?_).trans hc₁, hs⟩
    rintro rfl
    obtain rfl := Option.some.inj (hc₁.symm.trans hf.record)
    exact hnf.2 hs.symm
  · rw [hf.freed]
    refine List.nodup_append.mpr ⟨h.freed, List.nodup_singleton _, fun a ha b hb => ?_⟩
    rintro rfl
    exact hr.alive (List.mem_singleton.mp hb ▸ ha)
  · rw [hsub, hf.died_iff, hf.killFailed_iff, hf.logs.1]
    rw [hf.freed, List.mem_append, List.mem_singleton] at hn
    rcases hn with hn | rfl
    · exact h.cause n hn
    · exact ⟨hr.serial, hcause⟩
  · rw [hf.logs.1, hsub]
    exact h.closed
  · rw [hf.logs.2.1, hsub]
    exact h.handled
  · rw [hf.logs.2.2, hsub]
    exact h.kills

end FreeStep

end Ivykis
