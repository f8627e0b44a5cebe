import Mathlib.Order.WithBot
import Ivykis.Kit.Heap
import Ivykis.Timer.Basic

/-!
# The timer heap on a plain array

What `iv_timer.c` computes when the radix tree is taken for what it stands for, an array of
slots that starts at `1`. `Valid` is the invariant of the heap: slots and back pointers agree,
the slots above `num_timers` are empty, and no timer expires before its parent.
-/

namespace Ivykis

/-- The slots `1, 2, …` of the heap, and the timers. -/
@[ext]
structure TimerArray where
  numTimers : ℕ
  slot      : ℕ → Option TimerPtr
  index     : TimerPtr → ℤ
  expires   : TimerPtr → Timespec

namespace TimerArray

/-- When the timer in slot `i` expires; an empty slot never does. -/
def key (a : TimerArray) (i : ℕ) : WithTop Timespec :=
  (a.slot i).elim ⊤ fun t => (a.expires t : WithTop Timespec)

/-- `timer_ptr_gt` with the slots exchanged, and with empty slots last. -/
def precedes (a : TimerArray) (i j : ℕ) : Bool :=
  match a.slot i, a.slot j with
  | some t, some u => timespecGt (a.expires u) (a.expires t)
  | some _, none   => true
  | none, _        => false

lemma precedes_iff (a : TimerArray) (i j : ℕ) : a.precedes i j = true ↔ a.key i < a.key j := by
  cases hi : a.slot i with
  | none => simp [precedes, key, hi]
  | some t =>
    cases hj : a.slot j with
    | none => simp [precedes, key, hi, hj]
    | some u => simp [precedes, key, hi, hj, timespecGt_iff]

instance (a : TimerArray) (i j : ℕ) : Decidable (a.key i < a.key j) :=
  decidable_of_iff _ (a.precedes_iff i j)

/-- Exchange the timers of two slots. -/
def exchange (a : TimerArray) (i j : ℕ) : TimerArray :=
  { a with
    slot  := Kit.Heap.swap a.slot i j
    index := fun t => if a.slot i = some t then (j : ℤ)
      else if a.slot j = some t then (i : ℤ) else a.index t }

def pullUp (a : TimerArray) (i : ℕ) : TimerArray :=
  if 2 ≤ i ∧ a.key i < a.key (i / 2) then pullUp (a.exchange i (i / 2)) (i / 2) else a
termination_by i

/-- The least of slot `i` and its two children. -/
def minChild (a : TimerArray) (i : ℕ) : ℕ :=
  let m := if a.key (2 * i) < a.key i then 2 * i else i
  if a.key (2 * i + 1) < a.key m then 2 * i + 1 else m

lemma le_minChild (a : TimerArray) (i : ℕ) : i ≤ a.minChild i := by
  simp only [minChild]
  split_ifs <;> omega

def pushDown (a : TimerArray) (i : ℕ) : TimerArray :=
  if 2 * i ≤ a.numTimers ∧ a.minChild i ≠ i then
    pushDown (a.exchange i (a.minChild i)) (a.minChild i)
  else a
termination_by a.numTimers + 1 - i
decreasing_by
  have hle := a.le_minChild i
  simp only [exchange]
  omega

/-- Put `t` into the slot after the last. -/
def push (a : TimerArray) (t : TimerPtr) : TimerArray :=
  { a with
    numTimers := a.numTimers + 1
    slot      := Function.update a.slot (a.numTimers + 1) (some t)
    index     := Function.update a.index t (a.numTimers + 1 : ℕ) }

/-- Move the timer of the last slot to slot `i`. -/
def fill (a : TimerArray) (i : ℕ) : TimerArray :=
  { a with
    numTimers := a.numTimers - 1
    slot      := Function.update (Function.update a.slot i (a.slot a.numTimers)) a.numTimers none
    index     := fun u => if a.slot a.numTimers = some u then (i : ℤ) else a.index u }

def setIndex (a : TimerArray) (t : TimerPtr) (i : ℤ) : TimerArray :=
  { a with index := Function.update a.index t i }

def register (a : TimerArray) (t : TimerPtr) : TimerArray :=
  (a.push t).pullUp (a.numTimers + 1)

def unregister (a : TimerArray) (t : TimerPtr) : TimerArray :=
  let i := (a.index t).toNat
  let b := if i ≠ a.numTimers then ((a.fill i).pullUp i).pushDown i else a.fill i
  b.setIndex t (-1)

/-! ### The invariant -/

/-- Some slot holds `t`. -/
def OnHeap (a : TimerArray) (t : TimerPtr) : Prop :=
  ∃ i, 1 ≤ i ∧ a.slot i = some t

/-- Back pointers follow the slots, and exactly the slots up to `num_timers` are in use. -/
structure Slots (a : TimerArray) : Prop where
  index_of_slot : ∀ i t, 1 ≤ i → a.slot i = some t → a.index t = i
  filled        : ∀ i, 1 ≤ i → i ≤ a.numTimers → ∃ t, a.slot i = some t
  empty         : ∀ i, a.numTimers < i → a.slot i = none

/-- The heap between two operations. -/
structure Valid (a : TimerArray) : Prop extends Slots a where
  onHeap  : ∀ t, 1 ≤ a.index t → a.OnHeap t
  ordered : Kit.Heap.Ordered a.key

/-- Two heaps with the same timers, in whatever slots. -/
structure SameTimers (a b : TimerArray) : Prop where
  numTimers : b.numTimers = a.numTimers
  expires   : b.expires = a.expires
  onHeap    : ∀ t, b.OnHeap t ↔ a.OnHeap t
  index     : ∀ t, ¬ a.OnHeap t → b.index t = a.index t

lemma SameTimers.refl (a : TimerArray) : SameTimers a a :=
  ⟨rfl, rfl, fun _ => Iff.rfl, fun _ _ => rfl⟩

lemma SameTimers.trans {a b c : TimerArray} (hab : SameTimers a b) (hbc : SameTimers b c) :
    SameTimers a c where
  numTimers := hbc.numTimers.trans hab.numTimers
  expires := hbc.expires.trans hab.expires
  onHeap t := (hbc.onHeap t).trans (hab.onHeap t)
  index t h := by
    rw [hbc.index t fun hb => h ((hab.onHeap t).mp hb), hab.index t h]

variable {a : TimerArray} {i j : ℕ} {t : TimerPtr}

lemma key_eq_top_iff : a.key i = ⊤ ↔ a.slot i = none := by
  cases h : a.slot i <;> simp [key, h]

lemma key_of_slot (h : a.slot i = some t) : a.key i = (a.expires t : WithTop Timespec) := by
  simp [key, h]

/-- Only a slot in use comes before another. -/
lemma Slots.le_numTimers_of_key_lt (h : Slots a) (hlt : a.key i < a.key j) :
    i ≤ a.numTimers := by
  by_contra hi
  rw [key_eq_top_iff.mpr (h.empty i (by omega))] at hlt
  exact not_top_lt hlt

lemma Slots.slot_inj (h : Slots a) (hi : 1 ≤ i) (hj : 1 ≤ j) (hti : a.slot i = some t)
    (htj : a.slot j = some t) : i = j := by
  have hi' := h.index_of_slot i t hi hti
  have hj' := h.index_of_slot j t hj htj
  omega

lemma Slots.le_numTimers (h : Slots a) (hs : a.slot i = some t) : i ≤ a.numTimers := by
  by_contra hlt
  rw [h.empty i (by omega)] at hs
  cases hs

lemma Valid.slot_index (h : Valid a) (ht : 1 ≤ a.index t) :
    a.slot (a.index t).toNat = some t := by
  obtain ⟨i, hi, hs⟩ := h.onHeap t ht
  rwa [h.index_of_slot i t hi hs, Int.toNat_natCast]

lemma Valid.onHeap_iff (h : Valid a) : a.OnHeap t ↔ 1 ≤ a.index t := by
  refine ⟨?_, h.onHeap t⟩
  rintro ⟨i, hi, hs⟩
  rw [h.index_of_slot i t hi hs]
  omega

/-- Slot `i` holds `t` exactly when `t`'s back pointer says so. -/
lemma Valid.slot_iff (h : Valid a) (hi : 1 ≤ i) : a.slot i = some t ↔ a.index t = i := by
  refine ⟨h.index_of_slot i t hi, fun ht => ?_⟩
  have hs := h.slot_index (t := t) (by omega)
  rwa [ht, Int.toNat_natCast] at hs

lemma Valid.index_le (h : Valid a) (ht : 1 ≤ a.index t) : a.index t ≤ a.numTimers := by
  have hle := h.le_numTimers (h.slot_index ht)
  omega

/-! ### Exchanging two slots -/

@[simp] lemma exchange_numTimers : (a.exchange i j).numTimers = a.numTimers := rfl

@[simp] lemma exchange_expires : (a.exchange i j).expires = a.expires := rfl

@[simp] lemma exchange_slot : (a.exchange i j).slot = Kit.Heap.swap a.slot i j := rfl

lemma key_exchange (a : TimerArray) (i j : ℕ) :
    (a.exchange i j).key = Kit.Heap.swap a.key i j := by
  funext k
  simp only [key, exchange_slot, exchange_expires, Kit.Heap.swap]
  split_ifs <;> rfl

lemma Slots.exchange (h : Slots a) (hi : 1 ≤ i) (hi' : i ≤ a.numTimers) (hj : 1 ≤ j)
    (hj' : j ≤ a.numTimers) : Slots (a.exchange i j) where
  index_of_slot k t hk hs := by
    simp only [exchange_slot, Kit.Heap.swap] at hs
    simp only [TimerArray.exchange]
    split_ifs at hs with hki hkj
    · by_cases hti : a.slot i = some t
      · rw [if_pos hti, hki, h.slot_inj hi hj hti hs]
      · rw [if_neg hti, if_pos hs, hki]
    · rw [if_pos hs, hkj]
    · rw [if_neg fun hti => hki (h.slot_inj hk hi hs hti),
        if_neg fun htj => hkj (h.slot_inj hk hj hs htj)]
      exact h.index_of_slot k t hk hs
  filled k hk hk' := by
    simp only [exchange_slot, Kit.Heap.swap]
    split_ifs
    · exact h.filled j hj hj'
    · exact h.filled i hi hi'
    · exact h.filled k hk hk'
  empty k hk := by
    simp only [exchange_numTimers] at hk
    rw [exchange_slot, Kit.Heap.swap_of_ne (by omega) (by omega)]
    exact h.empty k hk

lemma sameTimers_exchange (hi : 1 ≤ i) (hj : 1 ≤ j) : SameTimers a (a.exchange i j) where
  numTimers := rfl
  expires := rfl
  onHeap t := by
    simp only [OnHeap, exchange_slot]
    constructor
    · rintro ⟨k, hk, hs⟩
      simp only [Kit.Heap.swap] at hs
      split_ifs at hs
      · exact ⟨j, hj, hs⟩
      · exact ⟨i, hi, hs⟩
      · exact ⟨k, hk, hs⟩
    · rintro ⟨k, hk, hs⟩
      by_cases hki : k = i
      · exact ⟨j, hj, by rw [Kit.Heap.swap_right, ← hki, hs]⟩
      · by_cases hkj : k = j
        · exact ⟨i, hi, by rw [Kit.Heap.swap_left, ← hkj, hs]⟩
        · exact ⟨k, hk, by rw [Kit.Heap.swap_of_ne hki hkj, hs]⟩
  index t ht := by
    simp only [TimerArray.exchange]
    rw [if_neg fun hs => ht ⟨i, hi, hs⟩, if_neg fun hs => ht ⟨j, hj, hs⟩]

/-! ### Sifting -/

/-- `pull_up` rearranges the timers and, from a heap that is out of order only above slot `i`,
restores the order. -/
lemma Slots.pullUp (h : Slots a) (hi : 1 ≤ i) (hi' : i ≤ a.numTimers) :
    Slots (a.pullUp i) ∧ SameTimers a (a.pullUp i) ∧
      (Kit.Heap.UpReady a.key i → Kit.Heap.Ordered (a.pullUp i).key) := by
  induction a, i using pullUp.induct with
  | case1 a i hlt ih =>
    obtain ⟨hs, hsame, hord⟩ :=
      ih (h.exchange hi hi' (by omega) (by omega)) (by omega) (by rw [exchange_numTimers]; omega)
    rw [TimerArray.pullUp, if_pos hlt]
    refine ⟨hs, (sameTimers_exchange hi (by omega)).trans hsame, fun hup => hord ?_⟩
    rw [key_exchange]
    exact hup.up hlt.1 hlt.2
  | case2 a i hge =>
    rw [TimerArray.pullUp, if_neg hge]
    refine ⟨h, SameTimers.refl a, fun hup => hup.ordered fun h2 => ?_⟩
    exact not_lt.mp fun hlt => hge ⟨h2, hlt⟩

lemma key_minChild_le_child (hj : j / 2 = i) (hj2 : 2 ≤ j) : a.key (a.minChild i) ≤ a.key j := by
  have hj' : j = 2 * i ∨ j = 2 * i + 1 := by omega
  simp only [minChild]
  rcases hj' with rfl | rfl
  · split_ifs with h1 h2 h2
    · exact h2.le
    · exact le_rfl
    · exact h2.le.trans (not_lt.mp h1)
    · exact not_lt.mp h1
  · split_ifs with h1 h2 h2
    · exact le_rfl
    · exact not_lt.mp h2
    · exact le_rfl
    · exact not_lt.mp h2

lemma key_minChild_lt (h : a.minChild i ≠ i) : a.key (a.minChild i) < a.key i := by
  simp only [minChild] at h ⊢
  split_ifs with h1 h2 h2
  · exact h2.trans h1
  · exact h1
  · exact h2
  · simp_all

lemma minChild_div_two (h : a.minChild i ≠ i) : a.minChild i / 2 = i := by
  simp only [minChild] at h ⊢
  split_ifs with h1 h2 h2
  · omega
  · omega
  · omega
  · simp_all

/-- `push_down` rearranges the timers and, from a heap that is out of order only below slot `i`,
restores the order. -/
lemma Slots.pushDown (h : Slots a) (hi : 1 ≤ i) :
    Slots (a.pushDown i) ∧ SameTimers a (a.pushDown i) ∧
      (Kit.Heap.DownReady a.key i → Kit.Heap.Ordered (a.pushDown i).key) := by
  induction a, i using pushDown.induct with
  | case1 a i hlt ih =>
    obtain ⟨hn, hne⟩ := hlt
    have hklt := key_minChild_lt hne
    have hm := minChild_div_two hne
    have hmn := h.le_numTimers_of_key_lt hklt
    obtain ⟨hs, hsame, hord⟩ :=
      ih (h.exchange hi (by omega) (by omega) hmn) (by omega)
    rw [TimerArray.pushDown, if_pos ⟨hn, hne⟩]
    refine ⟨hs, (sameTimers_exchange hi (by omega)).trans hsame, fun hdown => hord ?_⟩
    rw [key_exchange]
    exact hdown.down hi hm hklt fun j hj hji => key_minChild_le_child hji hj
  | case2 a i hge =>
    rw [TimerArray.pushDown, if_neg hge]
    refine ⟨h, SameTimers.refl a, fun hdown => hdown.ordered fun j hj hji => ?_⟩
    by_cases hn : 2 * i ≤ a.numTimers
    · have hm : a.minChild i = i := by
        by_contra hne
        exact hge ⟨hn, hne⟩
      exact hm ▸ key_minChild_le_child hji hj
    · rw [key_eq_top_iff.mpr (h.empty j (by omega))]
      exact le_top

/-! ### Registering -/

@[simp] lemma push_numTimers : (a.push t).numTimers = a.numTimers + 1 := rfl

lemma push_slot : (a.push t).slot = Function.update a.slot (a.numTimers + 1) (some t) := rfl

lemma key_push_of_ne (h : i ≠ a.numTimers + 1) : (a.push t).key i = a.key i := by
  simp only [key, push, Function.update_of_ne h]

lemma Slots.push (h : Slots a) (ht : ¬ a.OnHeap t) : Slots (a.push t) where
  index_of_slot k u hk hs := by
    by_cases hkn : k = a.numTimers + 1
    · subst hkn
      simp only [push_slot, Function.update_self, Option.some.injEq] at hs
      simp [TimerArray.push, hs]
    · rw [push_slot, Function.update_of_ne hkn] at hs
      have hu : u ≠ t := by
        rintro rfl
        exact ht ⟨k, hk, hs⟩
      simp only [TimerArray.push, Function.update_of_ne hu]
      exact h.index_of_slot k u hk hs
  filled k hk hk' := by
    by_cases hkn : k = a.numTimers + 1
    · exact ⟨t, by rw [push_slot, hkn, Function.update_self]⟩
    · rw [push_slot, Function.update_of_ne hkn]
      exact h.filled k hk (by rw [push_numTimers] at hk'; omega)
  empty k hk := by
    rw [push_numTimers] at hk
    rw [push_slot, Function.update_of_ne (by omega)]
    exact h.empty k (by omega)

lemma onHeap_push (h : Slots a) (u : TimerPtr) : (a.push t).OnHeap u ↔ u = t ∨ a.OnHeap u := by
  constructor
  · rintro ⟨k, hk, hs⟩
    by_cases hkn : k = a.numTimers + 1
    · left
      rw [push_slot, hkn, Function.update_self, Option.some.injEq] at hs
      exact hs.symm
    · right
      exact ⟨k, hk, by rwa [push_slot, Function.update_of_ne hkn] at hs⟩
  · rintro (rfl | ⟨k, hk, hs⟩)
    · exact ⟨a.numTimers + 1, by omega, by rw [push_slot, Function.update_self]⟩
    · have hle := h.le_numTimers hs
      exact ⟨k, hk, by rw [push_slot, Function.update_of_ne (by omega), hs]⟩

/-- After a push, only the new last slot may come before its parent. -/
lemma Valid.upReady_push (h : Valid a) (ht : ¬ a.OnHeap t) :
    Kit.Heap.UpReady (a.push t).key (a.numTimers + 1) := by
  have hempty : ∀ j, 2 ≤ j → j / 2 = a.numTimers + 1 → (a.push t).key j = ⊤ := fun j _ hj2 =>
    key_eq_top_iff.mpr ((h.toSlots.push ht).empty j (by rw [push_numTimers]; omega))
  refine ⟨⟨fun j hj hjn hj2 => ?_, fun _ j hj hj2 => ?_⟩, fun j hj hj2 => ?_⟩
  · rw [key_push_of_ne hjn, key_push_of_ne hj2]
    exact h.ordered j hj
  · rw [hempty j hj hj2]
    exact le_top
  · rw [hempty j hj hj2]
    exact le_top

/-- Registering adds the timer and keeps the heap. -/
theorem Valid.register (h : Valid a) (ht : a.index t < 1) :
    Valid (a.register t) ∧ (a.register t).numTimers = a.numTimers + 1 ∧
      (a.register t).expires = a.expires ∧
      (∀ u, (a.register t).OnHeap u ↔ u = t ∨ a.OnHeap u) ∧
      ∀ u, ¬ (a.register t).OnHeap u → (a.register t).index u = a.index u := by
  have hoff : ¬ a.OnHeap t := fun hon => by
    have := h.onHeap_iff.mp hon
    omega
  have hpush := h.toSlots.push hoff
  obtain ⟨hs, hsame, hord⟩ := hpush.pullUp (i := a.numTimers + 1) (by omega) le_rfl
  have hon : ∀ u, (a.register t).OnHeap u ↔ u = t ∨ a.OnHeap u := fun u =>
    (hsame.onHeap u).trans (onHeap_push h.toSlots u)
  have hidx : ∀ u, ¬ (a.register t).OnHeap u → (a.register t).index u = a.index u := by
    intro u hu
    have hut : u ≠ t := fun hut => hu ((hon u).mpr (Or.inl hut))
    refine (hsame.index u fun hu' => hu ((hsame.onHeap u).mpr hu')).trans ?_
    simp only [TimerArray.push, Function.update_of_ne hut]
  refine ⟨⟨hs, fun u hu => ?_, hord (h.upReady_push hoff)⟩, hsame.numTimers, hsame.expires, hon,
    hidx⟩
  by_contra hnot
  rw [hidx u hnot] at hu
  exact hnot ((hon u).mpr (Or.inr (h.onHeap u hu)))

/-! ### Unregistering -/

@[simp] lemma fill_numTimers : (a.fill i).numTimers = a.numTimers - 1 := rfl

lemma fill_slot_last : (a.fill i).slot a.numTimers = none := by
  simp [fill]

lemma fill_slot_self (hi : i ≠ a.numTimers) : (a.fill i).slot i = a.slot a.numTimers := by
  simp [fill, hi]

lemma fill_slot_of_ne (hi : j ≠ i) (hn : j ≠ a.numTimers) : (a.fill i).slot j = a.slot j := by
  simp [fill, hi, hn]

lemma Slots.fill (h : Slots a) (hi : 1 ≤ i) (hn : i ≤ a.numTimers) : Slots (a.fill i) where
  index_of_slot k u hk hs := by
    have hkn : k ≠ a.numTimers := by
      rintro rfl
      rw [fill_slot_last] at hs
      cases hs
    by_cases hki : k = i
    · subst hki
      rw [fill_slot_self hkn] at hs
      simp [TimerArray.fill, hs]
    · rw [fill_slot_of_ne hki hkn] at hs
      have hlast : a.slot a.numTimers ≠ some u := fun hl =>
        hkn (h.slot_inj hk (by omega) hs hl)
      simp only [TimerArray.fill, if_neg hlast]
      exact h.index_of_slot k u hk hs
  filled k hk hk' := by
    rw [fill_numTimers] at hk'
    by_cases hki : k = i
    · subst hki
      rw [fill_slot_self (by omega)]
      exact h.filled _ (by omega) le_rfl
    · rw [fill_slot_of_ne hki (by omega)]
      exact h.filled k hk (by omega)
  empty k hk := by
    rw [fill_numTimers] at hk
    by_cases hkn : k = a.numTimers
    · rw [hkn, fill_slot_last]
    · rw [fill_slot_of_ne (by omega) hkn]
      exact h.empty k (by omega)

lemma onHeap_fill (h : Slots a) (hi : 1 ≤ i) (hs : a.slot i = some t) (u : TimerPtr) :
    (a.fill i).OnHeap u ↔ u ≠ t ∧ a.OnHeap u := by
  have hn := h.le_numTimers hs
  constructor
  · rintro ⟨k, hk, hku⟩
    have hkn : k ≠ a.numTimers := by
      rintro rfl
      rw [fill_slot_last] at hku
      cases hku
    by_cases hki : k = i
    · subst hki
      rw [fill_slot_self hkn] at hku
      refine ⟨?_, a.numTimers, by omega, hku⟩
      rintro rfl
      exact hkn (h.slot_inj hk (by omega) hs hku)
    · rw [fill_slot_of_ne hki hkn] at hku
      refine ⟨?_, k, hk, hku⟩
      rintro rfl
      exact hki (h.slot_inj hk hi hku hs)
  · rintro ⟨hut, k, hk, hku⟩
    have hki : k ≠ i := by
      rintro rfl
      rw [hs, Option.some.injEq] at hku
      exact hut hku.symm
    by_cases hkn : k = a.numTimers
    · subst hkn
      exact ⟨i, hi, by rw [fill_slot_self hki.symm, hku]⟩
    · exact ⟨k, hk, by rw [fill_slot_of_ne hki hkn, hku]⟩

lemma key_fill_of_ne (hi : j ≠ i) (hn : j ≠ a.numTimers) : (a.fill i).key j = a.key j := by
  rw [key, fill_slot_of_ne hi hn]
  rfl

/-- After the last timer has moved to slot `i`, only the pairs at slot `i` may be out of order:
what is below it came after what is above it. -/
lemma Valid.orderedExcept_fill (h : Valid a) (hi : 1 ≤ i) (hn : i ≤ a.numTimers) :
    Kit.Heap.OrderedExcept (a.fill i).key i := by
  have hempty : ∀ j, a.numTimers ≤ j → (a.fill i).key j = ⊤ := fun j hj =>
    key_eq_top_iff.mpr ((h.toSlots.fill hi hn).empty j (by rw [fill_numTimers]; omega))
  have hexc := h.ordered.orderedExcept i
  refine ⟨fun j hj hji hj2 => ?_, fun hi2 j hj hj2 => ?_⟩
  · by_cases hjn : j < a.numTimers
    · rw [key_fill_of_ne hji (by omega), key_fill_of_ne hj2 (by omega)]
      exact hexc.apart j hj hji hj2
    · rw [hempty j (by omega)]
      exact le_top
  · by_cases hjn : j < a.numTimers
    · rw [key_fill_of_ne (by omega) (by omega),
        key_fill_of_ne (by omega) (by omega)]
      exact hexc.across hi2 j hj hj2
    · rw [hempty j (by omega)]
      exact le_top

/-- `pull_up` leaves at most the pairs below slot `i` out of order. -/
lemma Slots.downReady_pullUp (h : Slots a) (hi : 1 ≤ i) (hi' : i ≤ a.numTimers)
    (hexc : Kit.Heap.OrderedExcept a.key i) : Kit.Heap.DownReady (a.pullUp i).key i := by
  rw [TimerArray.pullUp]
  split_ifs with hlt
  · -- the timer moves up, and its parent takes a place where it is in order
    have hex := h.exchange hi hi' (j := i / 2) (by omega) (by omega)
    have hord : Kit.Heap.Ordered ((a.exchange i (i / 2)).pullUp (i / 2)).key := by
      refine (hex.pullUp (by omega) (by rw [exchange_numTimers]; omega)).2.2 ?_
      rw [key_exchange]
      exact hexc.up hlt.1 hlt.2
    exact ⟨hord.orderedExcept i, fun h2 => hord i h2⟩
  · exact ⟨hexc, fun h2 => not_lt.mp fun hk => hlt ⟨h2, hk⟩⟩

lemma Slots.setIndex (h : Slots a) (ht : ¬ a.OnHeap t) (x : ℤ) : Slots (a.setIndex t x) where
  index_of_slot k u hk hs := by
    have hut : u ≠ t := by
      rintro rfl
      exact ht ⟨k, hk, hs⟩
    simp only [TimerArray.setIndex, Function.update_of_ne hut]
    exact h.index_of_slot k u hk hs
  filled := h.filled
  empty := h.empty

/-- The index of a timer off the heap is free, as long as it is not one of a slot. -/
lemma Valid.setIndex (h : Valid a) (ht : ¬ a.OnHeap t) {x : ℤ} (hx : x < 1) :
    Valid (a.setIndex t x) where
  toSlots := h.toSlots.setIndex ht x
  onHeap u hu := by
    refine h.onHeap u ?_
    simp only [TimerArray.setIndex, Function.update_apply] at hu
    split_ifs at hu
    · omega
    · exact hu
  ordered := h.ordered

/-- The heap of `unregister` before the last write to `t->index`. -/
lemma Valid.restore (h : Valid a) (hi : 1 ≤ i) (hs : a.slot i = some t) :
    let b := if i ≠ a.numTimers then ((a.fill i).pullUp i).pushDown i else a.fill i
    Slots b ∧ SameTimers (a.fill i) b ∧ Kit.Heap.Ordered b.key := by
  have hn := h.le_numTimers hs
  have hfill := h.toSlots.fill hi hn
  have hexc := h.orderedExcept_fill hi hn
  split_ifs with hin
  · obtain ⟨hs₁, hsame₁, -⟩ := hfill.pullUp hi (by rw [fill_numTimers]; omega)
    obtain ⟨hs₂, hsame₂, hord⟩ := hs₁.pushDown hi
    exact ⟨hs₂, hsame₁.trans hsame₂,
      hord (hfill.downReady_pullUp hi (by rw [fill_numTimers]; omega) hexc)⟩
  · -- the last slot itself is freed: all pairs at it are with empty slots
    have hin : i = a.numTimers := not_not.mp hin
    refine ⟨hfill, SameTimers.refl _, fun j hj => ?_⟩
    by_cases hji : a.numTimers ≤ j
    · rw [key_eq_top_iff.mpr (hfill.empty j (by rw [fill_numTimers]; omega))]
      exact le_top
    · exact hexc.apart j hj (by omega) (by omega)

/-- Unregistering removes the timer and keeps the heap. -/
theorem Valid.unregister (h : Valid a) (ht : 1 ≤ a.index t) :
    Valid (a.unregister t) ∧ (a.unregister t).numTimers = a.numTimers - 1 ∧
      (a.unregister t).expires = a.expires ∧ (a.unregister t).index t = -1 ∧
      (∀ u, (a.unregister t).OnHeap u ↔ u ≠ t ∧ a.OnHeap u) ∧
      ∀ u, u ≠ t → ¬ (a.unregister t).OnHeap u → (a.unregister t).index u = a.index u := by
  have hs := h.slot_index ht
  have hi : 1 ≤ (a.index t).toNat := by omega
  obtain ⟨hslots, hsame, hord⟩ := h.restore hi hs
  have hon : ∀ u, (a.unregister t).OnHeap u ↔ u ≠ t ∧ a.OnHeap u := fun u =>
    (hsame.onHeap u).trans (onHeap_fill h.toSlots hi hs u)
  have hidx : ∀ u, u ≠ t → ¬ (a.unregister t).OnHeap u →
      (a.unregister t).index u = a.index u := by
    intro u hut hu
    have hlast : a.slot a.numTimers ≠ some u := fun hl =>
      hu ((hon u).mpr ⟨hut, a.numTimers, by have := h.le_numTimers hs; omega, hl⟩)
    simp only [TimerArray.unregister, TimerArray.setIndex, Function.update_of_ne hut]
    refine (hsame.index u fun hu' => hu ((hsame.onHeap u).mpr hu')).trans ?_
    simp only [TimerArray.fill, if_neg hlast]
  refine ⟨⟨hslots.setIndex (fun hb => ((hon t).mp hb).1 rfl) (-1), fun u hu => ?_, hord⟩,
    hsame.numTimers, hsame.expires, ?_, hon, hidx⟩
  · by_contra hnot
    have hut : u ≠ t := by
      rintro rfl
      simp [TimerArray.unregister, TimerArray.setIndex] at hu
    rw [hidx u hut hnot] at hu
    exact hnot ((hon u).mpr ⟨hut, h.onHeap u hu⟩)
  · simp [TimerArray.unregister, TimerArray.setIndex]

end TimerArray
end Ivykis
