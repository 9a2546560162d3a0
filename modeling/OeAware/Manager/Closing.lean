import OeAware.Manager.Opening

/-! @src src/plugin_mgr/plugin.cpp, instance_run_handler.cpp | name:OpenTopic, CloseTopic, Disable |
    scheme:state-machine

    `Instance::openTopics` against what was really opened and closed. `Instance::Disable` closes
    everything in the set and leaves the set as it is, so from then on the set is wrong and the next
    close is a second one. Set and interface agree as long as `Disable` only ever finds the set empty.

        openTopics      OpenTopic ─▶ {t} ──Disable─▶ {t} ──Disable─▶ {t}
        at interface    OpenTopic ─▶ {t} ──Disable─▶ ∅   ──Disable─▶ CloseTopic(t) once more -/

namespace OeAware
open Schemes

/-! ### The history of a topic -/

/-- The calls of a history after which `topic` is open at the interface of `p`: an `OpenTopic` for it
    succeeded, and no `CloseTopic` came since. -/
def openedIn (p : InstancePtr) (topic : Topic) : List CallRecord → Bool
  | [] => false
  | c :: cs =>
    match c.call with
    | .openTopic t ret => (decide (c.ptr = p ∧ t = topic) && !ret.failed) || openedIn p topic cs
    | .closeTopic t => if c.ptr = p ∧ t = topic then false else openedIn p topic cs
    | _ => openedIn p topic cs

/-- Every `CloseTopic` of a history was for a topic that was open at that moment. -/
def ClosesOpened : List CallRecord → Prop
  | [] => True
  | c :: cs =>
    (match c.call with
      | .closeTopic t => openedIn c.ptr t cs = true
      | _ => True) ∧ ClosesOpened cs

/-- The call neither opens nor closes a topic: a refused `OpenTopic` does not. -/
def IfaceCall.idle : IfaceCall → Bool
  | .openTopic _ ret => ret.failed
  | .closeTopic _ => false
  | _ => true

theorem openedIn_idle {c : CallRecord} (h : c.call.idle = true) (p : InstancePtr) (t : Topic)
    (cs : List CallRecord) : openedIn p t (c :: cs) = openedIn p t cs := by
  rw [openedIn]
  cases hc : c.call <;> simp_all [IfaceCall.idle]

theorem closesOpened_idle {c : CallRecord} (h : c.call.idle = true) (cs : List CallRecord) :
    ClosesOpened (c :: cs) ↔ ClosesOpened cs := by
  rw [ClosesOpened]
  cases hc : c.call <;> simp_all [IfaceCall.idle]

namespace State

/-- `topic` is open at the interface of `p`. -/
def openedAt (s : State) (p : InstancePtr) (topic : Topic) : Bool := openedIn p topic s.calls

/-- `Instance::openTopics` of `p` is empty. -/
def Shut (s : State) (p : InstancePtr) : Prop := (s.heap p).openTopics.elems = []

instance (s : State) (p : InstancePtr) : Decidable (s.Shut p) :=
  inferInstanceAs (Decidable (_ = []))

/-- An `OpenTopic` that does not fail answers `OK`, under a type string that stands for no other open
    topic. -/
def Opens (s : State) (p : InstancePtr) (topic : Topic) (ret : Result) : Prop :=
  ret.code = some OK ∧
    (topic.getType ∈ (s.heap p).openTopics.elems → s.openedAt p topic = true)

instance (s : State) (p : InstancePtr) (topic : Topic) (ret : Result) :
    Decidable (s.Opens p topic ret) := inferInstanceAs (Decidable (_ ∧ _))

/-- An enabled instance all of whose marked topics have lost their entry (`gone`) has no topic open
    but these: `UpdateInstance` will have closed them when it disables it. -/
def ShutsIf (s : State) (gone : Str → Prop) : Prop :=
  ∀ k ∈ s.topicState.keys, ∀ p ∈ s.getInstance k.instanceName, s.enabled p = true →
    (∀ t ∈ s.topicState.keys, t.instanceName = k.instanceName → s.flag t = true →
      gone t.getType) →
    ∀ type ∈ (s.heap p).openTopics.elems, ∃ t ∈ s.topicState.keys,
      t.instanceName = k.instanceName ∧ s.flag t = true ∧ t.getType = type

instance (s : State) (gone : Str → Prop) [DecidablePred gone] : Decidable (s.ShutsIf gone) :=
  inferInstanceAs (Decidable (∀ k ∈ s.topicState.keys, ∀ p ∈ s.getInstance k.instanceName, _ → _ →
    ∀ type ∈ (s.heap p).openTopics.elems, ∃ t ∈ s.topicState.keys, _))

end State

/-- The step makes `Instance::Disable` run only on instances with no topic left in `openTopics`, and
    opens topics that `openTopics` can tell apart. -/
def DisablesShut (s : State) : Action → Prop
  | .message (.DISABLED name) _ => ∀ p ∈ s.getInstance name, s.Shut p
  | .message (.DISABLED_FORCE name) _ => ∀ p ∈ s.getInstance name, s.Shut p
  | .message (.SUBSCRIBE topic _) ans =>
    ∀ p ∈ s.getInstance (getTopicFromType topic.getType).instanceName, s.starts p ans = true →
      s.flag (getTopicFromType topic.getType) = false →
      if ans.openTopic.failed then s.Shut p
      else s.Opens p (getTopicFromType topic.getType) ans.openTopic
  | .message (.PUBLISH d) ans =>
    ∀ p ∈ s.getInstance d.topic.instanceName, s.unsupported p d.topic = false →
      s.starts p ans = true → d.topic.topicName ≠ [] → ans.openTopic.failed = false →
      s.Opens p d.topic ans.openTopic
  | .message (.UNSUBSCRIBE topic x) _ =>
    s.ShutsIf (fun type => (s.eraseSub topic.getType x).subscibers.count type = false)
  | .message (.UNSUBSCRIBE_SDK x) _ => (∃ type ∈ s.subscibers.keys, x ∈ s.subs type) →
    s.ShutsIf (fun type => s.subscibers.count type = false ∨ s.subs type = [x])
  | .tick => ∀ e ∈ s.scheduleQueue, e.time = s.time → s.enabled e.ptr = true →
      s.runOnce e.ptr = true → s.Shut e.ptr
  | .remove name => ∀ plugin ∈ s.memoryStore.plugins.find name,
      plugin.instances.any s.enabled = false → ∀ t ∈ s.topicState.keys, s.flag t = true →
      t.instanceName ∉ s.instanceNames plugin
  | _ => True

instance (s : State) : ∀ a, Decidable (DisablesShut s a)
  | .message (.DISABLED name) _ => inferInstanceAs (Decidable (∀ p ∈ s.getInstance name, _))
  | .message (.DISABLED_FORCE name) _ => inferInstanceAs (Decidable (∀ p ∈ s.getInstance name, _))
  | .message (.SUBSCRIBE topic _) _ => inferInstanceAs (Decidable
      (∀ p ∈ s.getInstance (getTopicFromType topic.getType).instanceName, _ → _ → ite _ _ _))
  | .message (.PUBLISH d) _ => inferInstanceAs (Decidable
      (∀ p ∈ s.getInstance d.topic.instanceName, _ → _ → _ → _ → _))
  | .message (.UNSUBSCRIBE topic x) _ => inferInstanceAs (Decidable
      (s.ShutsIf (fun type => (s.eraseSub topic.getType x).subscibers.count type = false)))
  | .message (.UNSUBSCRIBE_SDK x) _ => inferInstanceAs (Decidable (_ →
      s.ShutsIf (fun type => s.subscibers.count type = false ∨ s.subs type = [x])))
  | .tick => inferInstanceAs (Decidable (∀ e ∈ s.scheduleQueue, _ → _ → _ → _))
  | .remove name => inferInstanceAs (Decidable
      (∀ plugin ∈ s.memoryStore.plugins.find name, _ → ∀ t ∈ s.topicState.keys, _ → _))
  | .message (.ENABLED _ _) _ => isTrue trivial
  | .message (.PUBLISH_DATA _) _ => isTrue trivial
  | .message .SHUTDOWN _ => isTrue trivial
  | .load _ _ => isTrue trivial
  | .reorder _ => isTrue trivial

/-! ### Steps that open and close nothing -/

/-- Nothing was opened or closed, and `openTopics` is as before. -/
structure SameOpen (s s' : State) : Prop where
  opened : ∀ p t, s'.openedAt p t = s.openedAt p t
  closes : ClosesOpened s.calls → ClosesOpened s'.calls
  openTopics : ∀ p type, type ∈ (s'.heap p).openTopics.elems ↔ type ∈ (s.heap p).openTopics.elems

namespace SameOpen
variable {s s' s'' : State}

theorem of_eq (hc : s'.calls = s.calls)
    (ho : ∀ p, (s'.heap p).openTopics = (s.heap p).openTopics) : SameOpen s s' where
  opened p t := by rw [State.openedAt, hc]; rfl
  closes := by rw [hc]; exact id
  openTopics p type := by rw [ho]

theorem refl (s : State) : SameOpen s s := of_eq rfl (fun _ => rfl)

theorem trans (h : SameOpen s s') (h' : SameOpen s' s'') : SameOpen s s'' :=
  ⟨fun p t => (h'.opened p t).trans (h.opened p t), fun hc => h'.closes (h.closes hc),
    fun p type => (h'.openTopics p type).trans (h.openTopics p type)⟩

theorem call (s : State) (p : InstancePtr) {c : IfaceCall} (h : c.idle = true) :
    SameOpen s (s.call p c) where
  opened _ _ := openedIn_idle (c := ⟨s.time, p, c⟩) h ..
  closes := (closesOpened_idle (c := ⟨s.time, p, c⟩) h _).mpr
  openTopics _ _ := Iff.rfl

theorem enableOk (s : State) (p : InstancePtr) : SameOpen s (s.enableOk p) := by
  refine of_eq rfl (fun q => ?_)
  by_cases hq : q = p <;> simp [State.enableOk, State.modify, State.push, hq]

theorem subscribed (s : State) (p : InstancePtr) (t : Topic) (type x : Str) :
    SameOpen s (s.subscribed p t type x) := by
  rw [State.subscribed_eq]; exact of_eq rfl (fun _ => rfl)

theorem started {s1 : State} {p : InstancePtr} {params : Str} {ret : Result}
    (h : Started s p params ret s1) : SameOpen s s1 := by
  cases h with
  | already => exact refl s
  | now => exact (call s p rfl).trans (enableOk _ p)

theorem refusedOpen (s : State) (p : InstancePtr) (t : Topic) {ret : Result}
    (h : ret.failed = true) : SameOpen s (s.openTopic p t ret) := by
  have hcode : ret.code ≠ some OK := by
    intro hc; simp [Result.failed, hc, OK] at h
  unfold State.openTopic
  rw [if_neg hcode]
  exact call s p h

/-- `Instance::Disable` on an empty `openTopics` closes nothing. -/
theorem closeInstance {p : InstancePtr} (h : s.Shut p) : SameOpen s (s.closeInstance p) := by
  have hcl : s.closedBy p = [] := by rw [State.closedBy, h]; rfl
  rw [State.closeInstance_eq, hcl]
  refine (call s p (c := .disable) rfl).trans (of_eq rfl (fun q => ?_))
  dsimp only [State.call]
  split <;> rfl

theorem disableInstance {name : Str} (h : ∀ p ∈ s.getInstance name, s.Shut p) :
    SameOpen s (s.disableInstance name) :=
  disableInstance_induct (refl s) (fun p hp => closeInstance (h p hp))

theorem enableInstance (s : State) (name params : Str) (ret : Result) :
    SameOpen s (s.enableInstance name params ret).1 := by
  have ho := enable_outcome s name params ret
  generalize s.enableInstance name params ret = res at ho
  cases ho with
  | missing => exact refl s
  | failed p => exact call s p rfl
  | enabled p => exact (call s p rfl).trans (enableOk _ p)

theorem deliver (d : DataList) (l : List Str) (he : s.deliver d l = .ok s') : SameOpen s s' := by
  refine deliver_induct (P := SameOpen s) ?_ ?_ l (refl s) he
  · intro s1 events h
    exact h.trans (of_eq rfl (fun _ => rfl))
  · intro s1 p h
    exact h.trans (call s1 p rfl)

theorem reorder (s : State) (o : Order) : SameOpen s (s.reorder o) :=
  ⟨fun _ _ => rfl, id, fun p type => by simp [State.reorder]⟩

theorem shut (h : SameOpen s s') {p : InstancePtr} (hp : s.Shut p) : s'.Shut p := by
  rw [State.Shut, List.eq_nil_iff_forall_not_mem]
  intro type hm
  rw [h.openTopics, hp] at hm
  cases hm

theorem opens (h : SameOpen s s') {p : InstancePtr} {t : Topic} {ret : Result}
    (hp : s.Opens p t ret) : s'.Opens p t ret :=
  ⟨hp.1, fun hm => (h.opened p t).trans (hp.2 ((h.openTopics p _).mp hm))⟩

end SameOpen

/-- Along a tick: nothing is closed when no run-once instance that is due has a topic open. -/
theorem SameOpen.schedule {s s' : State} (hok : DisablesShut s .tick)
    (he : s.schedule = .ok s') : SameOpen s s' := by
  refine (scheduleLoop_induct (P := fun s' => SameOpen s s' ∧ DisablesShut s' .tick) ?_ _
    ⟨SameOpen.refl s, hok⟩ he).1.1
  rintro s1 s2 ⟨h, hok⟩ h1
  obtain ⟨e, rest, hq, ht, ho⟩ := scheduleOne_outcome h1
  have hpop : SameOpen s1 { s1 with scheduleQueue := rest } := SameOpen.of_eq rfl (fun _ => rfl)
  have hrun := hpop.trans (SameOpen.call _ e.ptr (c := .run) rfl)
  have hround : SameOpen s1 s2 := by
    cases ho with
    | dropped => exact hpop
    | once hen hro =>
      have hshut := hok e (by rw [hq]; exact List.mem_cons_self ..) ht hen hro
      exact hrun.trans (SameOpen.closeInstance (hrun.shut hshut))
    | again => exact hrun.trans (SameOpen.of_eq rfl (fun _ => rfl))
  refine ⟨h.trans hround, fun a hm hat hen hro => hround.shut ?_⟩
  obtain ⟨hm, hat, hen, hro⟩ := ho.dueOnce hq ⟨hm, hat, hen, hro⟩
  exact hok a hm hat hen hro

/-! ### The set and the interface agree -/

/-- Whatever was closed was open, `openTopics` holds the type strings of what is open, one for each
    topic, and marked topics are open. -/
structure OpenExact (s : State) : Prop where
  closes : ClosesOpened s.calls
  mem : ∀ p type, type ∈ (s.heap p).openTopics.elems ↔
    ∃ t, s.openedAt p t = true ∧ t.getType = type
  inj : ∀ p t u, s.openedAt p t = true → s.openedAt p u = true → t.getType = u.getType → t = u
  marked : ∀ t, s.flag t = true →
    ∃ p, s.getInstance t.instanceName = some p ∧ s.openedAt p t = true
  alloc : ∀ (p : ℕ) t, s.openedAt p t = true → p < s.next

theorem OpenExact.congr {s s' : State} (h : OpenExact s) (hsame : SameOpen s s')
    (hflag : ∀ t, s'.flag t = true → s.flag t = true)
    (hget : ∀ t p, s.flag t = true → s.getInstance t.instanceName = some p →
      s'.getInstance t.instanceName = some p) (hnext : s.next ≤ s'.next) : OpenExact s' where
  closes := hsame.closes h.closes
  mem p type := by simp only [hsame.openTopics, hsame.opened, h.mem]
  inj p t u := by simp only [hsame.opened]; exact h.inj p t u
  marked t ht := by
    obtain ⟨p, hp, ho⟩ := h.marked t (hflag t ht)
    exact ⟨p, hget t p (hflag t ht) hp, (hsame.opened p t).trans ho⟩
  alloc p t ht := lt_of_lt_of_le (h.alloc p t ((hsame.opened p t).symm.trans ht)) hnext

theorem OpenExact.of_frame {s s' : State} (h : OpenExact s) (hsame : SameOpen s s')
    (hf : Frame s s') (hflag : ∀ t, s'.flag t = true → s.flag t = true) : OpenExact s' :=
  h.congr hsame hflag (fun _ _ _ hp => (hf.getInstance _).trans hp) hf.next.ge

theorem openedAt_openTopic (s : State) (p q : InstancePtr) (t u : Topic) {ret : Result}
    (h : ret.failed = false) :
    (s.openTopic p t ret).openedAt q u = true ↔ (p = q ∧ t = u) ∨ s.openedAt q u = true := by
  rw [State.openTopic_eq]
  simp [State.openedAt, openedIn, h]

theorem OpenExact.openTopic {s : State} (h : OpenExact s) {p : ℕ} {t : Topic} {ret : Result}
    (hp : p < s.next) (ho : s.Opens p t ret) : OpenExact (s.openTopic p t ret) := by
  obtain ⟨hcode, hclash⟩ := ho
  have hok : ret.failed = false := by simp [Result.failed, hcode, OK]
  have hf := Frame.openTopic s p t ret
  have hopened := fun q u => openedAt_openTopic s p q t u hok
  -- another topic that is open under the same type string is excluded
  have hother : ∀ q u, p = q → s.openedAt q u = true → t.getType = u.getType → t = u := by
    rintro q u rfl hu he
    exact h.inj p t u (hclash ((h.mem p _).mpr ⟨u, hu, he.symm⟩)) hu he
  refine ⟨?_, fun q type => ?_, fun q u v hu hv he => ?_, fun u hu => ?_, fun q u hu => ?_⟩
  · rw [State.openTopic_eq]
    exact ⟨trivial, h.closes⟩
  · simp only [hopened]
    have htop : ((s.openTopic p t ret).heap q).openTopics =
        if q = p then (s.heap q).openTopics.insert t.getType else (s.heap q).openTopics := by
      rw [State.openTopic_eq]
      by_cases hq : q = p <;> simp [hq, hcode]
    rw [htop]
    split
    · rename_i hq
      rw [USet.mem_insert, h.mem]
      constructor
      · rintro (rfl | ⟨u, hu, he⟩)
        · exact ⟨t, Or.inl ⟨hq.symm, rfl⟩, rfl⟩
        · exact ⟨u, Or.inr hu, he⟩
      · rintro ⟨u, ⟨_, rfl⟩ | hu, he⟩
        · exact Or.inl he.symm
        · exact Or.inr ⟨u, hu, he⟩
    · rename_i hq
      rw [h.mem]
      constructor
      · rintro ⟨u, hu, he⟩
        exact ⟨u, Or.inr hu, he⟩
      · rintro ⟨u, ⟨rfl, _⟩ | hu, he⟩
        · exact absurd rfl hq
        · exact ⟨u, hu, he⟩
  · rw [hopened] at hu hv
    rcases hu with ⟨hq, rfl⟩ | hu <;> rcases hv with ⟨hq', rfl⟩ | hv
    · rfl
    · exact hother q v hq hv he
    · exact (hother q u hq' hu he.symm).symm
    · exact h.inj q u v hu hv he
  · rw [flag_congr (topics_openTopic s p t ret).1] at hu
    obtain ⟨q, hq, hopen⟩ := h.marked u hu
    exact ⟨q, (hf.getInstance _).trans hq, (hopened q u).mpr (Or.inr hopen)⟩
  · rw [hf.next]
    rcases (hopened q u).mp hu with ⟨rfl, _⟩ | hu
    · exact hp
    · exact h.alloc q u hu

theorem openedAt_closeTopic (s : State) (p q : InstancePtr) (t u : Topic) :
    (s.closeTopic p t).openedAt q u = true ↔ ¬ (p = q ∧ t = u) ∧ s.openedAt q u = true := by
  show openedIn q u (⟨s.time, p, .closeTopic t⟩ :: s.calls) = true ↔ _
  rw [openedIn]
  by_cases hq : p = q ∧ t = u <;> simp [hq, State.openedAt]

theorem mem_openTopics_closeTopic (s : State) (p q : InstancePtr) (t : Topic) (type : Str) :
    type ∈ ((s.closeTopic p t).heap q).openTopics.elems ↔
      ¬ (p = q ∧ t.getType = type) ∧ type ∈ (s.heap q).openTopics.elems := by
  by_cases hq : q = p
  · subst hq
    simp [State.closeTopic, State.call, State.modify, eq_comm]
  · have hq' : ¬ p = q := fun he => hq he.symm
    simp [State.closeTopic, State.call, State.modify, hq, hq']

/-- Closing an open topic and taking its mark away. -/
theorem OpenExact.closeTopic {s : State} (h : OpenExact s) {p : InstancePtr} {t : Topic}
    (ho : s.openedAt p t = true) : OpenExact ((s.closeTopic p t).setFlag t false) := by
  have hopened : ∀ q u, ((s.closeTopic p t).setFlag t false).openedAt q u = true ↔
      ¬ (p = q ∧ t = u) ∧ s.openedAt q u = true := fun q u => openedAt_closeTopic s p q t u
  refine ⟨⟨ho, h.closes⟩, fun q type => ?_, fun q u v hu hv he => ?_, fun u hu => ?_, fun q u hu => ?_⟩
  · refine (mem_openTopics_closeTopic s p q t type).trans ?_
    simp only [hopened, h.mem]
    constructor
    · rintro ⟨hne, u, hu, rfl⟩
      exact ⟨u, ⟨fun hh => hne ⟨hh.1, hh.2 ▸ rfl⟩, hu⟩, rfl⟩
    · rintro ⟨u, ⟨hne, hu⟩, rfl⟩
      refine ⟨?_, u, hu, rfl⟩
      rintro ⟨rfl, he⟩
      exact hne ⟨rfl, h.inj p t u ho hu he⟩
  · exact h.inj q u v ((hopened q u).mp hu).2 ((hopened q v).mp hv).2 he
  · rw [State.flag_setFlag] at hu
    split at hu
    · cases hu
    · rename_i hne
      obtain ⟨q, hq, hopen⟩ := h.marked u hu
      exact ⟨q, hq, (hopened q u).mpr ⟨fun hh => hne hh.2.symm, hopen⟩⟩
  · exact h.alloc q u ((hopened q u).mp hu).2

/-! ### Sweeping -/

/-- What a sweep keeps, when the type strings without an entry are among the `gone` ones. -/
structure SweepOpen (gone : Str → Prop) (s : State) : Prop where
  store : StoreOk s
  exact : OpenExact s
  shuts : s.ShutsIf gone
  gone : ∀ type, s.subscibers.count type = false → gone type

theorem SweepOpen.close (gone : Str → Prop) : KeptByClose (SweepOpen gone) := by
  rintro s p t ⟨hs, hx, hsh, hg⟩ hf hn hp
  obtain ⟨q, hq, ho⟩ := hx.marked t hf
  rw [hp] at hq
  cases hq
  refine ⟨hs.of_frame ((Frame.closeTopic s p t).trans (Frame.setFlag _ t false)), hx.closeTopic ho,
    ?_, hg⟩
  have hflag : ∀ u, ((s.closeTopic p t).setFlag t false).flag u = if u = t then false else s.flag u :=
    fun u => State.flag_setFlag ..
  intro k hk q hq hen hgone type hm
  obtain ⟨hne, hm⟩ := (mem_openTopics_closeTopic s p q t type).mp hm
  -- the topic just closed is gone too, so all topics marked before are
  obtain ⟨u, hu, hn', hfu, rfl⟩ := hsh k ((keys_close p hf k).mp hk) q hq
    ((State.enabled_closeTopic s p q t).symm.trans hen) (fun u hu hun hfu => by
      by_cases hut : u = t
      · subst hut; exact hg _ hn
      · exact hgone u ((keys_close p hf u).mpr hu) hun (by rw [hflag, if_neg hut]; exact hfu))
    type hm
  refine ⟨u, (keys_close p hf u).mpr hu, hn', ?_, rfl⟩
  have hut : u ≠ t := by
    rintro rfl
    have hq' : s.getInstance k.instanceName = some q := hq
    rw [← hn', hp] at hq'
    exact hne ⟨Option.some.inj hq', rfl⟩
  rw [hflag, if_neg hut]
  exact hfu

theorem SweepOpen.disable (gone : Str → Prop) : KeptByDisable (SweepOpen gone) := by
  rintro s name p ⟨hs, hx, hsh, hg⟩ ⟨k, hk, rfl⟩ hp hen hnone
  -- no topic of the instance is marked any more, so none is open
  have hshut : s.Shut p := by
    refine List.eq_nil_iff_forall_not_mem.mpr (fun type hm => ?_)
    obtain ⟨u, _, hn, hf, _⟩ := hsh k hk p hp hen
      (fun t _ hn hf => by rw [hnone t hn] at hf; cases hf) type hm
    rw [hnone u hn] at hf
    cases hf
  have hsame := SameOpen.closeInstance hshut
  have hframe := Frame.closeInstance s p
  obtain ⟨ht, hsb⟩ := topics_closeInstance s p
  refine ⟨hs.of_frame hframe, hx.of_frame hsame hframe (fun t h => by rwa [flag_congr ht] at h), ?_,
    by rw [hsb]; exact hg⟩
  intro k' hk' q hq hen' hgone type hm
  rw [ht] at hk' hgone ⊢
  rw [hframe.getInstance] at hq
  simp only [flag_congr ht] at hgone ⊢
  exact hsh k' hk' q hq ((quiet_closeInstance s p).enabled q hen') hgone type
    ((hsame.openTopics q type).mp hm)

theorem SweepOpen.unsubscribe {gone : Str → Prop} {s s' : State} {type x : Str}
    (hs : StoreOk s) (hx : OpenExact s) (hsh : s.ShutsIf gone)
    (hg : ∀ type', (s.eraseSub type x).subscibers.count type' = false → gone type')
    (he : s.unsubscribe type x = .ok s') : SweepOpen gone s' := by
  have hf := Frame.eraseSub s type x
  exact updateInstance_induct (SweepOpen.close gone) (SweepOpen.disable gone)
    ⟨hs.of_frame hf, hx.of_frame (SameOpen.of_eq rfl (fun _ => rfl)) hf (fun _ h => h), hsh, hg⟩ he

/-- Taking the SDK client out of one more set leaves no entry that was not bound to go. -/
theorem gone_eraseSub {s : State} {type x : Str} (hx : x ∈ s.subs type) (type' : Str)
    (h : (s.eraseSub type x).subscibers.count type' = false ∨ (s.eraseSub type x).subs type' = [x]) :
    s.subscibers.count type' = false ∨ s.subs type' = [x] := by
  by_cases hne : type' = type
  · subst hne
    rcases h with h | h
    · refine Or.inr ?_
      have hno := (s.count_eraseSub type' x type' (List.ne_nil_of_mem hx)).not
      rw [h] at hno
      simp only [Bool.false_eq_true, not_false_eq_true, ne_eq, not_not, true_iff] at hno
      have hall : ∀ y ∈ s.subs type', y = x := by
        intro y hy
        by_contra hyx
        have := (s.mem_subs_eraseSub type' x type' y).mpr ⟨hy, fun hh => hyx hh.2⟩
        rw [hno] at this
        cases this
      have hnd : (s.subs type').Nodup := by
        rw [State.subs]
        split
        · exact USet.nodup _
        · exact List.nodup_nil
      exact List.perm_singleton.mp ((List.perm_ext_iff_of_nodup hnd (List.nodup_singleton x)).mpr
        (fun y => ⟨fun hy => List.mem_singleton.mpr (hall y hy),
          fun hy => List.mem_singleton.mp hy ▸ hx⟩))
    · have : x ∈ (s.eraseSub type' x).subs type' := by rw [h]; exact List.mem_singleton_self x
      exact absurd ⟨rfl, rfl⟩ ((s.mem_subs_eraseSub type' x type' x).mp this).2
  · have hfind := s.find_eraseSub_ne type x type' hne
    rw [UMap.count, State.subs, hfind] at h
    exact h

theorem OpenExact.unsubscribeSdk {s s' : State} {x : Str} {ans : Answers} (hs : StoreOk s)
    (h : OpenExact s) (hok : DisablesShut s (.message (.UNSUBSCRIBE_SDK x) ans))
    (he : s.unsubscribeSdk x = .ok s') : OpenExact s' := by
  have hkey : ∀ {type}, x ∈ s.subs type → type ∈ s.subscibers.keys := by
    intro type hm
    rw [UMap.mem_keys]
    cases hf : s.subscibers.find type with
    | none => simp [State.subs, hf] at hm
    | some set => rfl
  by_cases hex : ∃ type ∈ s.subscibers.keys, x ∈ s.subs type
  · refine (unsubscribeLoop_induct (P := fun s1 => SweepOpen
        (fun type => s.subscibers.count type = false ∨ s.subs type = [x]) s1 ∧
      ∀ type, s1.subscibers.count type = false ∨ s1.subs type = [x] →
        s.subscibers.count type = false ∨ s.subs type = [x]) ?_ _
      ⟨⟨hs, h, hok hex, fun _ hc => Or.inl hc⟩, fun _ hc => hc⟩ he).1.exact
    rintro s1 s2 type ⟨hsw, hg⟩ hm hu
    have hback := fun type' hc => hg type' (gone_eraseSub hm type' hc)
    refine ⟨SweepOpen.unsubscribe hsw.store hsw.exact hsw.shuts
      (fun type' hc => hback type' (Or.inl hc)) hu, fun type' hc => hback type' ?_⟩
    have hsub := (updateInstance_swept hu).subscibers
    rwa [hsub, subs_congr hsub] at hc
  · have : s' = s := by
      refine unsubscribeLoop_induct (P := fun s1 => s1 = s) ?_ _ rfl he
      rintro s1 s2 type rfl hm _
      exact absurd ⟨type, hkey hm, hm⟩ hex
    rw [this]
    exact h

/-! ### Over a run -/

theorem OpenExact.subscribe {s : State} (hs : StoreOk s) (h : OpenExact s) {topic : Topic} {x : Str}
    {ans : Answers} (hok : DisablesShut s (.message (.SUBSCRIBE topic x) ans)) :
    OpenExact (s.subscribe topic.getType x ans).1 := by
  have := subscribe_outcome hs topic.getType x ans
  generalize s.subscribe topic.getType x ans = res at this
  set T := getTopicFromType topic.getType with hT
  have hstart : ∀ {p s1}, Started s p T.params ans.enable s1 →
      SameOpen s (s1.touch T) ∧ OpenExact (s1.touch T) := by
    intro p s1 h1
    have hsame : SameOpen s (s1.touch T) :=
      (SameOpen.started h1).trans (SameOpen.of_eq rfl (fun _ => rfl))
    refine ⟨hsame, h.of_frame hsame (h1.frame.trans (Frame.touch s1 T)) (fun t ht => ?_)⟩
    rwa [State.flag_touch, flag_congr h1.same.topicState] at ht
  have hsubscribed : ∀ {s1 : State} {p : InstancePtr}, OpenExact s1 →
      OpenExact (s1.subscribed p T topic.getType x) := by
    intro s1 p h1
    refine h1.of_frame (SameOpen.subscribed ..) (Frame.subscribed ..) (fun t ht => ?_)
    rwa [flag_congr (topics_subscribed s1 p T topic.getType x).1] at ht
  cases this with
  | missing => exact h
  | notEnabled p => exact h.of_frame (SameOpen.call s p rfl) (Frame.call s p _) (fun _ ht => ht)
  | known p s1 r hp h1 hf => exact hsubscribed (hstart h1).2
  | refused p s1 hp h1 hf ho =>
    obtain ⟨hsame, hx⟩ := hstart h1
    have hshut : s.Shut p := by
      have := hok p hp h1.starts hf
      rwa [if_pos ho] at this
    have hopen := SameOpen.refusedOpen (s1.touch T) p T ho
    refine hx.of_frame (hopen.trans (SameOpen.closeInstance ((hsame.trans hopen).shut hshut)))
      ((Frame.openTopic ..).trans (Frame.closeInstance ..)) (fun t ht => ?_)
    rwa [flag_congr (topics_closeInstance _ p).1, flag_congr (topics_openTopic ..).1] at ht
  | opened p s1 hp h1 hf ho =>
    obtain ⟨hsame, hx⟩ := hstart h1
    have hopens : (s1.touch T).Opens p T ans.openTopic := by
      have := hok p hp h1.starts hf
      rw [if_neg (by rw [ho]; decide)] at this
      exact hsame.opens this
    have hframe := h1.frame.trans (Frame.touch s1 T)
    have halloc : p < (s1.touch T).next := by rw [hframe.next]; exact hs.alloc _ p hp
    have hx2 := hx.openTopic halloc hopens
    refine hsubscribed ⟨hx2.closes, hx2.mem, hx2.inj, fun t ht => ?_, hx2.alloc⟩
    rw [State.flag_setFlag] at ht
    split at ht
    · rename_i he
      subst he
      refine ⟨p, (hframe.trans (Frame.openTopic ..)).getInstance _ |>.trans hp, ?_⟩
      exact (openedAt_openTopic (s1.touch T) p p T T ho).mpr (Or.inl ⟨rfl, rfl⟩)
    · exact hx2.marked t ht

theorem OpenExact.publish {s : State} (hs : StoreOk s) (h : OpenExact s) {d : DataList}
    {ans : Answers} (hok : DisablesShut s (.message (.PUBLISH d) ans)) :
    OpenExact (s.publish d ans).1 := by
  have := publish_outcome s d ans
  generalize s.publish d ans = res at this
  have hcall : ∀ p, SameOpen s (s.call p (.updateData d)) := fun p => SameOpen.call s p rfl
  have hstart : ∀ {p s1}, Started (s.call p (.updateData d)) p [] ans.enable s1 →
      SameOpen s s1 ∧ OpenExact s1 ∧ Frame s s1 := by
    intro p s1 h1
    have hsame := (hcall p).trans (SameOpen.started h1)
    have hframe := (Frame.call s p (.updateData d)).trans h1.frame
    refine ⟨hsame, h.of_frame hsame hframe (fun t ht => ?_), hframe⟩
    rwa [flag_congr h1.same.topicState] at ht
  cases this with
  | rejected => exact h
  | notEnabled p =>
    exact h.of_frame ((hcall p).trans (SameOpen.call _ p rfl))
      ((Frame.call s p _).trans (Frame.call _ p _)) (fun _ ht => ht)
  | noTopic p s1 r _ _ h1 => exact (hstart h1).2.1
  | topic p s1 r hp hu h1 hn =>
    obtain ⟨hsame, hx, hframe⟩ := hstart h1
    cases ho : ans.openTopic.failed with
    | true =>
      refine hx.of_frame (SameOpen.refusedOpen s1 p d.topic ho) (Frame.openTopic ..) (fun t ht => ?_)
      rwa [flag_congr (topics_openTopic ..).1] at ht
    | false =>
      refine hx.openTopic ?_ (hsame.opens (hok p hp hu h1.starts hn ho))
      rw [hframe.next]
      exact hs.alloc _ p hp

theorem OpenExact.step {s s' : State} {a : Action} (hs : StoreOk s) (h : OpenExact s)
    (hok : DisablesShut s a) (he : OeAware.step s a = .ok s') : OpenExact s' := by
  cases a with
  | message m ans =>
    obtain ⟨⟨s1, r⟩, h1, rfl⟩ := map_ok he
    have hf := handle_frame hs h1
    cases m with
    | ENABLED name params =>
      have hsame := SameOpen.enableInstance s name params ans.enable
      have ht := sameTopics_enableInstance s name params ans.enable
      simp only [State.handle, Except.ok.injEq] at h1
      rw [h1] at hsame ht
      exact h.of_frame hsame hf (fun t hft => ht.flag t ▸ hft)
    | DISABLED name =>
      cases h1
      exact h.of_frame (SameOpen.disableInstance hok) hf
        (fun t ht => (sameTopics_disableInstance s name).flag t ▸ ht)
    | DISABLED_FORCE name =>
      cases h1
      exact h.of_frame (SameOpen.disableInstance hok) hf
        (fun t ht => (sameTopics_disableInstance s name).flag t ▸ ht)
    | SUBSCRIBE topic x =>
      simp only [State.handle, Except.ok.injEq] at h1
      have := h.subscribe hs hok
      rwa [h1] at this
    | UNSUBSCRIBE topic x =>
      obtain ⟨s2, h2, he⟩ := map_ok h1
      cases he
      have hsh : s.ShutsIf (fun type => (s.eraseSub topic.getType x).subscibers.count type = false) :=
        hok
      exact (SweepOpen.unsubscribe hs h hsh (fun _ hc => hc) h2).exact
    | UNSUBSCRIBE_SDK x =>
      obtain ⟨s2, h2, he⟩ := map_ok h1
      cases he
      exact h.unsubscribeSdk hs hok h2
    | PUBLISH_DATA d =>
      obtain ⟨s2, h2, he⟩ := map_ok h1
      cases he
      have htouch : SameOpen s (s.touchSubs d.topic.getType) := SameOpen.of_eq rfl (fun _ => rfl)
      exact h.of_frame (htouch.trans (SameOpen.deliver d _ h2)) hf
        (fun t ht => (sameTopics_publishData h2).flag t ▸ ht)
    | PUBLISH d =>
      simp only [State.handle, Except.ok.injEq] at h1
      have := h.publish hs hok
      rwa [h1] at this
    | SHUTDOWN => cases h1; exact h
  | tick =>
    obtain ⟨s1, h1, rfl⟩ := map_ok he
    have hx : OpenExact s1 := h.of_frame (SameOpen.schedule hok h1) (schedule_frame h1)
      (fun t ht => (sameTopics_schedule h1).flag t ▸ ht)
    exact hx.of_frame (SameOpen.of_eq rfl (fun _ => rfl))
      ⟨rfl, rfl, rfl, fun _ => rfl, fun _ => rfl⟩ (fun _ ht => ht)
  | load name file =>
    cases he
    rcases loadPlugin_cases s name file with he | ⟨interfaces, _, hl⟩
    · rw [he]; exact h
    · refine h.congr ⟨fun p t => by rw [hl.eq]; rfl, by rw [hl.eq]; exact id, fun p type => ?_⟩
        (fun t ht => by rw [hl.eq] at ht; exact ht) (fun _ _ _ hp => hl.kept _ _ hp)
        (by rw [hl.next]; omega)
      by_cases hp : s.next ≤ p ∧ p < (s.loadPlugin name file).1.next
      · -- a new object has nothing open, and neither had its address
        obtain ⟨i, _, hi⟩ := hl.new p hp.1 hp.2
        have hold : type ∉ (s.heap p).openTopics.elems := by
          intro hm
          obtain ⟨t, ht, _⟩ := (h.mem p type).mp hm
          exact Nat.not_lt.mpr hp.1 (h.alloc p t ht)
        rw [hi]
        exact iff_of_false List.not_mem_nil hold
      · rw [hl.old p hp]
  | remove name =>
    cases he
    rcases remove_cases s name with he | ⟨plugin, hr⟩
    · rw [he]; exact h
    · refine h.congr (SameOpen.of_eq (by rw [hr.eq]) (fun p => by rw [hr.eq]))
        (fun t ht => by rw [hr.eq] at ht; exact ht) (fun t p ht hp => ?_) (by rw [hr.eq])
      rw [hr.getInstance, if_neg (hok plugin hr.found hr.disabled t (State.mem_keys_of_flag ht) ht)]
      exact hp
  | reorder o =>
    cases he
    exact h.of_frame (SameOpen.reorder s o) (frame_reorder s o)
      (fun t ht => flag_reorder s o t ▸ ht)

theorem openExact_init : OpenExact State.init where
  closes := trivial
  mem p type := by
    refine iff_of_false List.not_mem_nil ?_
    rintro ⟨t, h, _⟩
    cases h
  inj p t u h := by cases h
  marked t h := by cases h
  alloc p t h := by cases h

/-- OPEN TOPICS, where `Disable` only finds them closed: over the whole run `CloseTopic` was called
    for open topics only, and `openTopics` is the set of the topics open at the interface, one type
    string for each. -/
theorem openTopics_exact {s : State} (h : RunsOf DisablesShut s) :
    ClosesOpened s.calls ∧
    (∀ p type, type ∈ (s.heap p).openTopics.elems ↔
      ∃ t, s.openedAt p t = true ∧ t.getType = type) ∧
    ∀ p t u, s.openedAt p t = true → s.openedAt p u = true → t.getType = u.getType → t = u := by
  obtain ⟨_, hx⟩ := Runs.invariant (I := fun s => StoreOk s ∧ OpenExact s)
    ⟨storeOk_init, openExact_init⟩
    (fun _ _ _ hs hok he => ⟨storeOk_step hs.1 he, hs.2.step hs.1 hok he⟩) h
  exact ⟨hx.closes, hx.mem, hx.inj⟩

/-- A topic is subscribed, published to, swept closed with its instance, and subscribed again. -/
theorem openTopics_exact_again : ∃ s, RunsOf DisablesShut s ∧ s.openedAt 0 (sampleTopic "i") = true ∧
    (sampleTopic "i").getType ∈ (s.heap 0).openTopics.elems := by
  have h : RunsOf DisablesShut _ := Runs.of_runAll DisablesShut
    [sampleLoad, .message (.SUBSCRIBE (sampleTopic "i") (str "7")) accepting, .tick,
      .message (.PUBLISH ⟨sampleTopic "i", []⟩) accepting,
      .message (.UNSUBSCRIBE (sampleTopic "i") (str "7")) accepting,
      .message (.SUBSCRIBE (sampleTopic "i") (str "7")) accepting,
      .message (.UNSUBSCRIBE_SDK (str "7")) accepting,
      .message (.SUBSCRIBE (sampleTopic "i") (str "8")) accepting] .start rfl
  refine ⟨_, h, ?_, ((openTopics_exact h).2.1 0 _).mpr ⟨sampleTopic "i", ?_, rfl⟩⟩ <;> decide

/-- Disabled twice, the instance is asked twice to close one topic, and the set still names it. -/
theorem openTopics_stale : ∃ s, Reach s ∧ ¬ ClosesOpened s.calls ∧
    (sampleTopic "i").getType ∈ (s.heap 0).openTopics.elems ∧
    s.openedAt 0 (sampleTopic "i") = false := by
  have h : Reach _ := Runs.of_runAll (fun _ _ => True)
    [sampleLoad, .message (.SUBSCRIBE (sampleTopic "i") (str "7")) accepting,
      .message (.DISABLED (str "i")) accepting, .message (.ENABLED (str "i") []) accepting,
      .message (.DISABLED (str "i")) accepting] .start rfl
  refine ⟨_, h, ?_, by decide, by decide⟩
  intro hc
  have := hc.2.1
  revert this
  decide

end OeAware
