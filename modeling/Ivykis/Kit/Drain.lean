import Mathlib.Data.List.Nodup
import Ivykis.Kit.Lts

/-!
# Working off a list

A loop takes the first element off a list and runs user code for it, again and again until the
list is empty. The user code may drop elements that are still on the list, and add new ones at
its end. What has been taken is then what was on the list at first, in this order and without
what was dropped in time, and after that some of what is new.
-/

namespace Kit

variable {σ α β : Type*}

/-- What a label does to the list. -/
inductive DrainAct (β : Type*) where
  | take (x : β)
  | drop (x : β)
  | other

/-- The elements that are taken, in this order. -/
def taken (act : α → DrainAct β) (tr : List α) : List β :=
  tr.filterMap fun a => match act a with
    | .take x => some x
    | _       => none

/-- Whether `x` is dropped before it is taken. -/
def dropped [DecidableEq β] (act : α → DrainAct β) (x : β) : List α → Bool
  | []      => false
  | a :: tr =>
    match act a with
    | .take y => y ≠ x && dropped act x tr
    | .drop y => y = x || dropped act x tr
    | .other  => dropped act x tr

/-- Until a step with `last`, the steps of `L` from a state with `I` work off the list `todo`;
`new` holds of what is added to it. -/
structure Drains [DecidableEq β] (L : Lts σ α) (I : σ → Prop) (last : α → Prop)
    (todo : σ → List β) (act : α → DrainAct β) (new : β → Prop) : Prop where
  inv   : ∀ s a s', I s → ¬ last a → L.step s a = some s' → I s'
  nodup : ∀ s, I s → (todo s).Nodup
  step  : ∀ s a s', I s → ¬ last a → L.step s a = some s' →
    match act a with
    | .take x => todo s = x :: todo s'
    | .drop x => todo s' = (todo s).erase x
    | .other  => ∃ later, (∀ x ∈ later, new x) ∧ todo s' = todo s ++ later

section Lemmas

variable {act : α → DrainAct β} {a : α} {x y : β} {tr : List α}

lemma taken_append (tr tr' : List α) : taken act (tr ++ tr') = taken act tr ++ taken act tr' :=
  List.filterMap_append

lemma taken_cons_take (ha : act a = .take x) : taken act (a :: tr) = x :: taken act tr := by
  simp [taken, ha]

lemma taken_cons_of_not (ha : ∀ x, act a ≠ .take x) : taken act (a :: tr) = taken act tr := by
  cases h : act a with
  | take x => exact absurd h (ha x)
  | _ => simp [taken, h]

variable [DecidableEq β]

lemma dropped_cons_take (ha : act a = .take y) :
    dropped act x (a :: tr) = (decide (y ≠ x) && dropped act x tr) := by
  simp [dropped, ha]

lemma dropped_cons_drop (ha : act a = .drop y) :
    dropped act x (a :: tr) = (decide (y = x) || dropped act x tr) := by
  simp [dropped, ha]

lemma dropped_cons_other (ha : act a = .other) : dropped act x (a :: tr) = dropped act x tr := by
  simp [dropped, ha]

end Lemmas

namespace Drains

variable [DecidableEq β] {L : Lts σ α} {I : σ → Prop} {last : α → Prop} {todo : σ → List β}
  {act : α → DrainAct β} {new : β → Prop} {s s' : σ} {tr : List α}

lemma inv_exec (h : Drains L I last todo act new) (hI : I s) (hlast : ∀ a ∈ tr, ¬ last a)
    (hexec : L.exec s tr = some s') : I s' := by
  induction tr generalizing s with
  | nil =>
    obtain rfl := Option.some.inj hexec
    exact hI
  | cons a tr ih =>
    obtain ⟨s₁, hs₁, hexec⟩ := Option.bind_eq_some_iff.mp hexec
    exact ih (h.inv s a s₁ hI (hlast a List.mem_cons_self) hs₁)
      (fun b hb => hlast b (List.mem_cons_of_mem a hb)) hexec

/-- What has been taken and what is on the list: the old elements that have not been dropped, and
then new ones. -/
theorem taken_append_todo (h : Drains L I last todo act new) (hI : I s)
    (hlast : ∀ a ∈ tr, ¬ last a) (hexec : L.exec s tr = some s') :
    ∃ later, (∀ x ∈ later, new x) ∧
      taken act tr ++ todo s' = ((todo s).filter fun x => !dropped act x tr) ++ later := by
  induction tr generalizing s with
  | nil =>
    obtain rfl := Option.some.inj hexec
    exact ⟨[], fun x hx => absurd hx List.not_mem_nil, by simp [taken, dropped]⟩
  | cons a tr ih =>
    obtain ⟨s₁, hs₁, hexec⟩ := Option.bind_eq_some_iff.mp hexec
    have ha := hlast a List.mem_cons_self
    have hnodup := h.nodup s hI
    obtain ⟨later, hnew, heq⟩ := ih (h.inv s a s₁ hI ha hs₁)
      (fun b hb => hlast b (List.mem_cons_of_mem a hb)) hexec
    have hstep := h.step s a s₁ hI ha hs₁
    cases hact : act a with
    | take x =>
      simp only [hact] at hstep
      rw [hstep, List.nodup_cons] at hnodup
      refine ⟨later, hnew, ?_⟩
      have hkeep : ((todo s₁).filter fun y => !dropped act y (a :: tr))
          = (todo s₁).filter fun y => !dropped act y tr := by
        refine List.filter_congr fun y hy => ?_
        have hxy : x ≠ y := fun hxy => hnodup.1 (hxy ▸ hy)
        simp [dropped_cons_take hact, hxy]
      rw [taken_cons_take hact, hstep, List.cons_append, heq, List.filter_cons_of_pos, hkeep]
      · rfl
      · simp [dropped_cons_take hact]
    | drop x =>
      simp only [hact] at hstep
      refine ⟨later, hnew, ?_⟩
      rw [taken_cons_of_not (by simp [hact]), heq, hstep, hnodup.erase_eq_filter,
        List.filter_filter]
      congr 1
      refine List.filter_congr fun y _ => ?_
      simp [dropped_cons_drop hact, eq_comm, bne, Bool.and_comm, Bool.beq_eq_decide_eq]
    | other =>
      simp only [hact] at hstep
      obtain ⟨more, hmore, htodo⟩ := hstep
      rw [htodo, List.filter_append, List.append_assoc] at heq
      refine ⟨(more.filter fun x => !dropped act x tr) ++ later, fun x hx => ?_, ?_⟩
      · rcases List.mem_append.mp hx with hx | hx
        · exact hmore x (List.mem_filter.mp hx).1
        · exact hnew x hx
      · rw [taken_cons_of_not (by simp [hact]), heq]
        simp only [dropped_cons_other hact]

/-- If nothing is added, what has been taken and what is left make up what was not dropped. -/
lemma taken_append_todo_eq (h : Drains L I last todo act fun _ => False) (hI : I s)
    (hlast : ∀ a ∈ tr, ¬ last a) (hexec : L.exec s tr = some s') :
    taken act tr ++ todo s' = (todo s).filter fun x => !dropped act x tr := by
  obtain ⟨later, hnew, heq⟩ := h.taken_append_todo hI hlast hexec
  rw [heq, List.eq_nil_iff_forall_not_mem.mpr hnew, List.append_nil]

end Drains
end Kit
