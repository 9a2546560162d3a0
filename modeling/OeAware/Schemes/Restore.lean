import Mathlib.Data.List.Basic

/-! @scheme restore | name:stores that are put back

    A store is changed under some keys, and then what was under them is written again.

        orig ──▶ changed under some keys ──▶ written under these again ──▶ orig -/

namespace Schemes
variable {κ ι β : Type} [DecidableEq κ]

/-- The stores differ under these keys at most. -/
def AlikeBut (keys : κ → Prop) (s s' : κ → β) : Prop := ∀ p, ¬ keys p → s p = s' p

section
variable {keys keys' : κ → Prop} {s s' : κ → β}

omit [DecidableEq κ] in
theorem AlikeBut.refl : AlikeBut keys s s := fun _ _ => rfl

omit [DecidableEq κ] in
theorem AlikeBut.mono (h : AlikeBut keys s s') (himp : ∀ p, keys p → keys' p) : AlikeBut keys' s s' :=
  fun p hp => h p fun hk => hp (himp p hk)

/-- A write under one of the keys. -/
theorem AlikeBut.update (h : AlikeBut keys s s') {p : κ} (hp : keys p) (v : β) :
    AlikeBut keys (Function.update s p v) s' := by
  intro q hq
  rcases eq_or_ne q p with rfl | hne
  · exact absurd hp hq
  · rw [Function.update_of_ne hne]
    exact h q hq

end

/-- PUT BACK: a list of writes, each of what there was under its key, and all that differs is under one of their keys. -/
theorem foldl_update_back {orig : κ → β} {path : ι → κ} {value : ι → β} : ∀ {ids : List ι} {s : κ → β},
    (∀ id ∈ ids, value id = orig (path id)) → AlikeBut (fun p => ∃ id ∈ ids, path id = p) s orig →
    ids.foldl (fun s id => Function.update s (path id) (value id)) s = orig
  | [], s, _, h => funext fun p => h p fun ⟨_, hmem, _⟩ => absurd hmem List.not_mem_nil
  | id :: ids, s, hval, h => by
    obtain ⟨hid, hids⟩ := List.forall_mem_cons.mp hval
    rw [List.foldl_cons]
    refine foldl_update_back hids fun p hp => ?_
    rcases eq_or_ne p (path id) with rfl | hne
    · rw [Function.update_self, hid]
    · rw [Function.update_of_ne hne]
      refine h p fun ⟨id', hmem, heq⟩ => ?_
      rcases List.mem_cons.mp hmem with rfl | hmem
      · exact hne heq.symm
      · exact hp ⟨id', hmem, heq⟩

/-- A loop over different keys changes what is under each of them once. -/
theorem foldl_modify {g : κ → β → β} : ∀ {keys : List κ} {s : κ → β}, keys.Nodup → ∀ k,
    keys.foldl (fun s k => Function.update s k (g k (s k))) s k = if k ∈ keys then g k (s k) else s k
  | [], s, _, k => by simp
  | k' :: keys, s, h, k => by
    obtain ⟨hnot, hnodup⟩ := List.nodup_cons.mp h
    rw [List.foldl_cons, foldl_modify hnodup]
    rcases eq_or_ne k k' with rfl | hne
    · rw [if_neg hnot, Function.update_self, if_pos List.mem_cons_self]
    · rw [Function.update_of_ne hne]
      simp [hne]

end Schemes
