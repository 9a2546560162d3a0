import OeAware.Manager.Views

/-! @src src/plugin_mgr/instance_run_handler.cpp | name:EnableInstance, DisableInstance, CloseInstance |
    scheme:state-machine

    The `Enable` and `Disable` calls on one interface. `Subscribe`, `Publish`, the sweep and the
    run-once path look at `enabled` before they call; the `ENABLED` and `DISABLED` messages do not,
    since the manager thread has looked before it sent them. What it saw may have changed since.

        calls on p   Enable ─▶ Disable ─▶ Enable ─▶ …
        enabled      true      false      true -/

namespace OeAware
open Schemes

/-- The successful `Enable` (`true`) and the `Disable` (`false`) calls on the interface of `p`, the
    latest first. -/
def toggles (p : InstancePtr) : List CallRecord → List Bool
  | [] => []
  | c :: cs =>
    match c.call with
    | .enable _ ret =>
      if c.ptr = p ∧ ret.failed = false then true :: toggles p cs else toggles p cs
    | .disable => if c.ptr = p then false :: toggles p cs else toggles p cs
    | _ => toggles p cs

/-- The calls of a history have left `p` enabled. -/
def isOn (p : InstancePtr) (cs : List CallRecord) : Bool := (toggles p cs).headD false

/-- Latest first, each call differs from the one before it, and the first is an `Enable`. -/
def Alternating : List Bool → Prop
  | [] => True
  | b :: l => b = !l.headD false ∧ Alternating l

instance : ∀ l, Decidable (Alternating l)
  | [] => isTrue trivial
  | b :: l =>
    have := instDecidableAlternating l
    inferInstanceAs (Decidable (b = !l.headD false ∧ Alternating l))

/-- No `Enable` call of a history found its instance enabled, no `Disable` call found it disabled. -/
def TogglesInTurn : List CallRecord → Prop
  | [] => True
  | c :: cs =>
    (match c.call with
      | .enable _ _ => isOn c.ptr cs = false
      | .disable => isOn c.ptr cs = true
      | _ => True) ∧ TogglesInTurn cs

theorem alternating_toggles (p : InstancePtr) : ∀ (cs : List CallRecord), TogglesInTurn cs →
    Alternating (toggles p cs)
  | [], _ => trivial
  | c :: cs, h => by
    have ih := alternating_toggles p cs h.2
    have h1 := h.1
    rw [toggles]
    cases hc : c.call with
    | enable params ret =>
      rw [hc] at h1
      dsimp only at h1 ⊢
      split
      · rename_i hp
        rw [hp.1] at h1
        exact ⟨by rw [show (toggles p cs).headD false = false from h1]; rfl, ih⟩
      · exact ih
    | disable =>
      rw [hc] at h1
      dsimp only at h1 ⊢
      split
      · rename_i hp
        rw [hp] at h1
        exact ⟨by rw [show (toggles p cs).headD false = true from h1]; rfl, ih⟩
      · exact ih
    | _ => exact ih

/-- The call is neither `Enable` nor `Disable`. -/
def IfaceCall.still : IfaceCall → Bool
  | .enable _ _ => false
  | .disable => false
  | _ => true

theorem toggles_still {c : CallRecord} (h : c.call.still = true) (p : InstancePtr)
    (cs : List CallRecord) : toggles p (c :: cs) = toggles p cs := by
  rw [toggles]
  cases hc : c.call <;> simp_all [IfaceCall.still]

theorem inTurn_still {c : CallRecord} (h : c.call.still = true) (cs : List CallRecord) :
    TogglesInTurn (c :: cs) ↔ TogglesInTurn cs := by
  rw [TogglesInTurn]
  cases hc : c.call <;> simp_all [IfaceCall.still]

/-- What the manager thread saw before it sent the message still holds when it is handled. -/
def GuardsHold (s : State) : Action → Prop
  | .message (.ENABLED name _) _ => ∀ p ∈ s.getInstance name, s.enabled p = false
  | .message (.DISABLED name) _ => ∀ p ∈ s.getInstance name, s.enabled p = true
  | .message (.DISABLED_FORCE name) _ => ∀ p ∈ s.getInstance name, s.enabled p = true
  | _ => True

instance (s : State) : ∀ a, Decidable (GuardsHold s a)
  | .message (.ENABLED name _) _ => inferInstanceAs (Decidable (∀ p ∈ s.getInstance name, _))
  | .message (.DISABLED name) _ => inferInstanceAs (Decidable (∀ p ∈ s.getInstance name, _))
  | .message (.DISABLED_FORCE name) _ => inferInstanceAs (Decidable (∀ p ∈ s.getInstance name, _))
  | .message (.SUBSCRIBE _ _) _ => isTrue trivial
  | .message (.UNSUBSCRIBE _ _) _ => isTrue trivial
  | .message (.UNSUBSCRIBE_SDK _) _ => isTrue trivial
  | .message (.PUBLISH_DATA _) _ => isTrue trivial
  | .message (.PUBLISH _) _ => isTrue trivial
  | .message .SHUTDOWN _ => isTrue trivial
  | .tick => isTrue trivial
  | .load _ _ => isTrue trivial
  | .remove _ => isTrue trivial
  | .reorder _ => isTrue trivial

/-! ### Steps that toggle nothing -/

/-- Nothing was enabled or disabled. -/
structure SameToggles (s s' : State) : Prop where
  toggles : ∀ p, toggles p s'.calls = OeAware.toggles p s.calls
  inTurn : TogglesInTurn s.calls → TogglesInTurn s'.calls
  enabled : ∀ p, s'.enabled p = s.enabled p

namespace SameToggles
variable {s s' s'' : State}

theorem of_eq (hc : s'.calls = s.calls) (he : ∀ p, s'.enabled p = s.enabled p) :
    SameToggles s s' := ⟨fun p => by rw [hc], by rw [hc]; exact id, he⟩

theorem refl (s : State) : SameToggles s s := of_eq rfl (fun _ => rfl)

theorem trans (h : SameToggles s s') (h' : SameToggles s' s'') : SameToggles s s'' :=
  ⟨fun p => (h'.toggles p).trans (h.toggles p), fun hc => h'.inTurn (h.inTurn hc),
    fun p => (h'.enabled p).trans (h.enabled p)⟩

theorem call (s : State) (p : InstancePtr) {c : IfaceCall} (h : c.still = true) :
    SameToggles s (s.call p c) where
  toggles q := toggles_still (c := ⟨s.time, p, c⟩) h q _
  inTurn := (inTurn_still (c := ⟨s.time, p, c⟩) h _).mpr
  enabled _ := rfl

theorem openTopic (s : State) (p : InstancePtr) (t : Topic) (ret : Result) :
    SameToggles s (s.openTopic p t ret) := by
  refine (call s p (c := .openTopic t ret) rfl).trans (of_eq ?_ (fun q => ?_))
  · rw [State.openTopic_eq]; rfl
  · rw [State.enabled_openTopic]; rfl

theorem closeTopic (s : State) (p : InstancePtr) (t : Topic) :
    SameToggles s (s.closeTopic p t) :=
  (call s p (c := .closeTopic t) rfl).trans
    (of_eq rfl (fun q => (s.enabled_closeTopic p q t).trans rfl))

theorem subscribed (s : State) (p : InstancePtr) (t : Topic) (type x : Str) :
    SameToggles s (s.subscribed p t type x) := by
  rw [State.subscribed_eq]; exact of_eq rfl (fun _ => rfl)

theorem deliver (d : DataList) (l : List Str) (he : s.deliver d l = .ok s') : SameToggles s s' := by
  refine deliver_induct (P := SameToggles s) ?_ ?_ l (refl s) he
  · intro s1 events h
    exact h.trans (of_eq rfl (fun _ => rfl))
  · intro s1 p h
    exact h.trans (call s1 p rfl)

end SameToggles

/-! ### The flag and the calls agree -/

/-- Every call came in its turn, and `enabled` says what the latest one was. -/
structure Toggled (s : State) : Prop where
  inTurn : TogglesInTurn s.calls
  enabled : ∀ p, s.enabled p = isOn p s.calls
  alloc : ∀ p : ℕ, s.next ≤ p → toggles p s.calls = []

namespace Toggled
variable {s s' : State}

theorem congr (h : Toggled s) (hs : SameToggles s s') (hn : s'.next = s.next) : Toggled s' where
  inTurn := hs.inTurn h.inTurn
  enabled p := by rw [hs.enabled, isOn, hs.toggles]; exact h.enabled p
  alloc p hp := by rw [hs.toggles]; exact h.alloc p (hn ▸ hp)

theorem enableFailed (h : Toggled s) {p : InstancePtr} {params : Str} {ret : Result}
    (hoff : s.enabled p = false) (hr : ret.failed = true) :
    Toggled (s.call p (.enable params ret)) := by
  have ht : ∀ q, toggles q (s.call p (.enable params ret)).calls = toggles q s.calls := by
    intro q
    simp [State.call, toggles, hr]
  exact ⟨⟨(h.enabled p).symm.trans hoff, h.inTurn⟩,
    fun q => by rw [isOn, ht]; exact h.enabled q, fun q hq => by rw [ht]; exact h.alloc q hq⟩

theorem enableOk (h : Toggled s) {p : ℕ} {params : Str} {ret : Result} (hp : p < s.next)
    (hoff : s.enabled p = false) (hr : ret.failed = false) :
    Toggled ((s.call p (.enable params ret)).enableOk p) := by
  have ht : ∀ q, toggles q ((s.call p (.enable params ret)).enableOk p).calls =
      if p = q then true :: toggles q s.calls else toggles q s.calls := by
    intro q
    show toggles q (⟨s.time, p, .enable params ret⟩ :: s.calls) = _
    simp [toggles, hr]
  refine ⟨⟨(h.enabled p).symm.trans hoff, h.inTurn⟩, fun q => ?_, fun q hq => ?_⟩
  · rw [State.enabled_enableOk, isOn, ht]
    by_cases hq : p = q
    · simp [hq]
    · have hq' : ¬ q = p := fun he => hq he.symm
      simp only [hq, hq', if_false, decide_false, Bool.or_false]
      exact h.enabled q
  · have hq : s.next ≤ q := hq
    rw [ht, if_neg (by omega)]
    exact h.alloc q hq

theorem toggles_close (p q : InstancePtr) (time : ℕ) (cs : List CallRecord) : ∀ l : List Topic,
    toggles q (l.map (fun t => (⟨time, p, .closeTopic t⟩ : CallRecord)) ++ cs) = toggles q cs
  | [] => rfl
  | _ :: l => (toggles_still rfl q _).trans (toggles_close p q time cs l)

theorem inTurn_close (p : InstancePtr) (time : ℕ) (cs : List CallRecord) : ∀ l : List Topic,
    TogglesInTurn (l.map (fun t => (⟨time, p, .closeTopic t⟩ : CallRecord)) ++ cs) ↔
      TogglesInTurn cs
  | [] => Iff.rfl
  | _ :: l => (inTurn_still rfl _).trans (inTurn_close p time cs l)

theorem closeInstance (h : Toggled s) {p : InstancePtr} (hon : s.enabled p = true) :
    Toggled (s.closeInstance p) := by
  have hcalls : (s.closeInstance p).calls = ⟨s.time, p, .disable⟩ :: ((s.closedBy p).reverse.map
      (fun t => (⟨s.time, p, .closeTopic t⟩ : CallRecord)) ++ s.calls) := by
    rw [State.closeInstance_eq]
  have ht : ∀ q, toggles q (s.closeInstance p).calls =
      if p = q then false :: toggles q s.calls else toggles q s.calls := by
    intro q
    rw [hcalls, toggles]
    dsimp only
    rw [toggles_close]
  refine ⟨?_, fun q => ?_, fun q hq => ?_⟩
  · rw [hcalls]
    refine ⟨?_, (inTurn_close p s.time s.calls _).mpr h.inTurn⟩
    show isOn p _ = true
    rw [isOn, toggles_close]
    exact (h.enabled p).symm.trans hon
  · rw [State.enabled_closeInstance, isOn, ht]
    by_cases hq : p = q
    · simp [hq]
    · have hq' : ¬ q = p := fun he => hq he.symm
      simp only [hq, hq', if_false, decide_false, Bool.not_false, Bool.and_true]
      exact h.enabled q
  · have hne : ¬ p = q := by
      rintro rfl
      rw [h.enabled p, isOn, h.alloc p ((Frame.closeInstance s p).next ▸ hq)] at hon
      cases hon
    rw [ht, if_neg hne]
    exact h.alloc q ((Frame.closeInstance s p).next ▸ hq)

theorem disableInstance (h : Toggled s) {name : Str}
    (hon : ∀ p ∈ s.getInstance name, s.enabled p = true) : Toggled (s.disableInstance name) := by
  exact disableInstance_induct h (fun p hp => h.closeInstance (hon p hp))

theorem started (h : Toggled s) {s1 : State} {p : ℕ} {params : Str} {ret : Result} (hp : p < s.next)
    (h1 : Started s p params ret s1) : Toggled s1 := by
  cases h1 with
  | already => exact h
  | now hoff hr => exact h.enableOk hp hoff hr

/-- A sweep disables only what is enabled. -/
theorem unsubscribe (h : Toggled s) {type x : Str} (he : s.unsubscribe type x = .ok s') :
    Toggled s' := by
  have herase : Toggled (s.eraseSub type x) := h.congr (SameToggles.of_eq rfl (fun _ => rfl)) rfl
  refine updateInstance_induct (P := Toggled) ?_ ?_ herase he
  · intro s p t h _ _ _
    exact h.congr ((SameToggles.closeTopic s p t).trans (SameToggles.of_eq rfl (fun _ => rfl))) rfl
  · intro s name p h _ _ hen _
    exact h.closeInstance hen

theorem subscribe (hs : StoreOk s) (h : Toggled s) (type x : Str) (ans : Answers) :
    Toggled (s.subscribe type x ans).1 := by
  have := subscribe_outcome hs type x ans
  generalize s.subscribe type x ans = res at this
  set T := getTopicFromType type with hT
  have hstart : ∀ {p s1}, s.getInstance T.instanceName = some p →
      Started s p T.params ans.enable s1 → Toggled (s1.touch T) ∧ (s1.touch T).enabled p = true := by
    intro p s1 hp h1
    have ht := h.started (hs.alloc _ p hp) h1
    refine ⟨ht.congr (SameToggles.of_eq rfl (fun _ => rfl)) rfl, ?_⟩
    show s1.enabled p = true
    rw [h1.same.enabled]
    simp
  cases this with
  | missing => exact h
  | notEnabled p _ hoff hr => exact h.enableFailed hoff hr
  | known p s1 r hp h1 =>
    exact (hstart hp h1).1.congr (SameToggles.subscribed ..) (Frame.subscribed ..).next
  | refused p s1 hp h1 =>
    obtain ⟨h2, hon⟩ := hstart hp h1
    refine (h2.congr (SameToggles.openTopic ..) (Frame.openTopic ..).next).closeInstance ?_
    rw [State.enabled_openTopic]
    exact hon
  | opened p s1 hp h1 =>
    obtain ⟨h2, _⟩ := hstart hp h1
    have h3 := h2.congr (SameToggles.openTopic _ p T ans.openTopic) (Frame.openTopic ..).next
    have h4 : Toggled (((s1.touch T).openTopic p T ans.openTopic).setFlag T true) :=
      h3.congr (SameToggles.of_eq rfl (fun _ => rfl)) rfl
    exact h4.congr (SameToggles.subscribed ..) (Frame.subscribed ..).next

theorem publish (hs : StoreOk s) (h : Toggled s) (d : DataList) (ans : Answers) :
    Toggled (s.publish d ans).1 := by
  have := publish_outcome s d ans
  generalize s.publish d ans = res at this
  have hcall : ∀ p, Toggled (s.call p (.updateData d)) :=
    fun p => h.congr (SameToggles.call s p rfl) rfl
  cases this with
  | rejected => exact h
  | notEnabled p _ _ hoff hr => exact (hcall p).enableFailed hoff hr
  | noTopic p s1 r hp _ h1 => exact (hcall p).started (hs.alloc _ p hp) h1
  | topic p s1 r hp _ h1 =>
    exact ((hcall p).started (hs.alloc _ p hp) h1).congr (SameToggles.openTopic ..)
      (Frame.openTopic ..).next

/-- A due run-once instance is disabled only while it is enabled. -/
theorem schedule (h : Toggled s) (he : s.schedule = .ok s') : Toggled s' := by
  refine (scheduleLoop_induct (P := Toggled) ?_ _ h he).1
  intro s1 s2 h1 h2
  obtain ⟨e, rest, _, _, ho⟩ := scheduleOne_outcome h2
  have hpop : SameToggles s1 { s1 with scheduleQueue := rest } :=
    SameToggles.of_eq rfl (fun _ => rfl)
  have hrun := hpop.trans (SameToggles.call _ e.ptr (c := .run) rfl)
  cases ho with
  | dropped => exact h1.congr hpop rfl
  | once hen => exact (h1.congr hrun rfl).closeInstance hen
  | again => exact h1.congr (hrun.trans (SameToggles.of_eq rfl (fun _ => rfl))) rfl

theorem step {a : Action} (hs : StoreOk s) (h : Toggled s) (hok : GuardsHold s a)
    (he : OeAware.step s a = .ok s') : Toggled s' := by
  cases a with
  | message m ans =>
    obtain ⟨⟨s1, r⟩, h1, rfl⟩ := map_ok he
    cases m with
    | ENABLED name params =>
      simp only [State.handle, Except.ok.injEq] at h1
      have ho := enable_outcome s name params ans.enable
      rw [h1] at ho
      cases ho with
      | missing => exact h
      | failed p hp hr => exact h.enableFailed (hok p hp) hr
      | enabled p hp hr => exact h.enableOk (hs.alloc _ p hp) (hok p hp) hr
    | DISABLED name => cases h1; exact h.disableInstance hok
    | DISABLED_FORCE name => cases h1; exact h.disableInstance hok
    | SUBSCRIBE topic x =>
      simp only [State.handle, Except.ok.injEq] at h1
      have := subscribe hs h topic.getType x ans
      rwa [h1] at this
    | UNSUBSCRIBE topic x =>
      exact unsubscribed_induct (P := Toggled) (fun _ _ _ _ h he => h.unsubscribe he)
        (Or.inl ⟨topic, x, rfl⟩) h h1
    | UNSUBSCRIBE_SDK x =>
      exact unsubscribed_induct (P := Toggled) (fun _ _ _ _ h he => h.unsubscribe he)
        (Or.inr ⟨x, rfl⟩) h h1
    | PUBLISH_DATA d =>
      obtain ⟨s2, h2, he⟩ := map_ok h1
      cases he
      have htouch : SameToggles s (s.touchSubs d.topic.getType) :=
        SameToggles.of_eq rfl (fun _ => rfl)
      exact h.congr (htouch.trans (SameToggles.deliver d _ h2)) (handle_frame hs h1).next
    | PUBLISH d =>
      simp only [State.handle, Except.ok.injEq] at h1
      have := publish hs h d ans
      rwa [h1] at this
    | SHUTDOWN => cases h1; exact h
  | tick =>
    obtain ⟨s1, h1, rfl⟩ := map_ok he
    exact (h.schedule h1).congr (SameToggles.of_eq rfl (fun _ => rfl)) rfl
  | load name file =>
    cases he
    rcases loadPlugin_cases s name file with he | ⟨interfaces, _, hl⟩
    · rw [he]; exact h
    · have hcalls : (s.loadPlugin name file).1.calls = s.calls := by rw [hl.eq]
      have hnext := hl.next
      refine ⟨by rw [hcalls]; exact h.inTurn, fun p => ?_, fun p hp => ?_⟩
      · rw [hcalls]
        by_cases hp : s.next ≤ p ∧ p < (s.loadPlugin name file).1.next
        · obtain ⟨i, _, hi⟩ := hl.new p hp.1 hp.2
          rw [State.enabled, hi, isOn, h.alloc p hp.1]
          rfl
        · rw [State.enabled, hl.old p hp]
          exact h.enabled p
      · rw [hcalls]
        exact h.alloc p (by omega)
  | remove name =>
    cases he
    rcases remove_cases s name with he | ⟨plugin, hr⟩
    · rw [he]; exact h
    · rw [hr.eq]; exact ⟨h.inTurn, h.enabled, h.alloc⟩
  | reorder o => cases he; exact ⟨h.inTurn, h.enabled, h.alloc⟩

end Toggled

theorem toggled_runs {s : State} (h : RunsOf GuardsHold s) : Toggled s := by
  refine (Runs.invariant (I := fun s => StoreOk s ∧ Toggled s)
    ⟨storeOk_init, ⟨trivial, fun _ => rfl, fun _ _ => rfl⟩⟩ ?_ h).2
  intro s a s' hs hok he
  exact ⟨storeOk_step hs.1 he, hs.2.step hs.1 hok he⟩

end OeAware
