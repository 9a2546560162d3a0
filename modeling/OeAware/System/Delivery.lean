import OeAware.System.Threads

/-! @src src/plugin_mgr/instance_run_handler.cpp, message_manager.cpp |
    name:InstanceRunHandler::PublishData, TcpMessageHandler::Start | scheme:loop

    Who gets published data, and how. A subscriber is an instance or an SDK connection; the set under
    a topic keeps only a string for it, and `PublishData` takes every string with a digit in it for a
    connection. The data thread reads the descriptor off that string with `atoi`.

        inst name ──name────▶ ╮                ╭─no digit─▶ UpdateData on the instance
                              ├── subscibers ──┤
        sdk fd ──to_string──▶ ╯                ╰─a digit──▶ DATA event ──atoi──▶ fd -/

namespace OeAware
open Schemes

/-! ### Descriptors as text -/

theorem isSdk_toStr (fd : ℕ) : State.isSdk (toStr fd) = true := by
  obtain ⟨c, l, hc⟩ := List.exists_cons_of_ne_nil (toStr_ne_nil fd)
  have := mem_toStr (show c ∈ toStr fd by rw [hc]; simp)
  rw [State.isSdk, hc]
  simp [this]

/-! ### Subscribers -/

/-- A subscriber as it registered: an instance under its name, an SDK connection under its descriptor,
    an `int`. -/
inductive Subscriber where
  | inst (name : Str)
  | sdk (fd : ℕ) (int : fd < 2 ^ 31)

/-- What the set keeps of a subscriber. -/
def Subscriber.key : Subscriber → Str
  | .inst name => name
  | .sdk fd _ => toStr fd

/-- The subscribers of a type are those of `X`. -/
def State.Holds (s : State) (type : Str) (X : Set Subscriber) : Prop :=
  ∀ key, key ∈ s.subs type ↔ ∃ x ∈ X, x.key = key

/-- How often data has been handed to the instance at `p`. -/
def State.updates (s : State) (p : InstancePtr) (d : DataList) : ℕ :=
  s.calls.countP (fun c => c.ptr = p ∧ c.call = .updateData d)

/-- The descriptor that `Start` reads off an event. -/
def Event.addressee (e : Event) : Option ℤ :=
  match e.payload with
  | [subscriber, _] => if e.opt = Opt.DATA.toInt then some (atoi subscriber) else none
  | _ => none

/-- How many events with data have been queued for a descriptor. -/
def State.dataTo (s : State) (fd : ℤ) (d : DataList) : ℕ :=
  s.recvData.countP (fun e => e.addressee = some fd ∧ d.serialize ∈ e.payload)

/-- How many events with data have been queued under a subscriber's string. -/
def State.dataUnder (s : State) (key : Str) (d : DataList) : ℕ :=
  s.recvData.countP (fun e => e.payload = [key, d.serialize])

/-- Between two states data has reached a subscriber once, by its own route. -/
def ReachedOnce (s s' : State) (d : DataList) : Subscriber → Prop
  | .inst name => ∃ p, s.getInstance name = some p ∧ s'.updates p d = s.updates p d + 1 ∧
      s'.dataUnder name d = s.dataUnder name d
  | .sdk fd _ => s'.dataTo fd d = s.dataTo fd d + 1 ∧
      ∀ p, s.getInstance (toStr fd) = some p → s'.updates p d = s.updates p d

/-! ### The loop -/

namespace State

/-- The event that `PublishData` queues for a subscriber. -/
def dataEvent (d : DataList) (key : Str) : Event :=
  ⟨Opt.DATA.toInt, .EXTERNAL, [key, d.serialize]⟩

/-- The route to a subscriber is there: a codec for a connection, an object for an instance. -/
def routed (reg : Register) (s : State) (d : DataList) (key : Str) : Bool :=
  if isSdk key then !d.encodesNull reg else s.isInstanceExist key

/-- What the loop of `PublishData` leaves when all routes are there. -/
def sentTo (s : State) (d : DataList) (l : List Str) : State :=
  { s with
    recvData := s.recvData ++ (l.filter isSdk).map (dataEvent d)
    calls := ((l.filter (fun k => !isSdk k)).filterMap s.getInstance).reverse.map
      (fun p => ⟨s.time, p, .updateData d⟩) ++ s.calls }

theorem sentTo_sdk {x : Str} (hx : isSdk x = true) (s : State) (d : DataList) (l : List Str) :
    s.sentTo d (x :: l) =
      ({ s with recvData := s.recvData ++ [dataEvent d x] } : State).sentTo d l := by
  simp only [sentTo, List.filter_cons, hx, if_true, List.map_cons, List.append_assoc,
    Bool.not_true, Bool.false_eq_true, if_false, List.cons_append, List.nil_append]
  rfl

theorem sentTo_inst {x : Str} {s : State} {p : InstancePtr} (hx : isSdk x = false)
    (hp : s.getInstance x = some p) (d : DataList) (l : List Str) :
    s.sentTo d (x :: l) = (s.call p (.updateData d)).sentTo d l := by
  simp only [sentTo, List.filter_cons, hx, Bool.not_false, if_true, List.filterMap_cons, hp,
    List.reverse_cons, List.map_append, List.map_cons, List.map_nil, List.append_assoc,
    Bool.false_eq_true, if_false]
  rfl

/-- The loop of `PublishData`, in one go. -/
theorem deliverWith_iff {reg : Register} (d : DataList) : ∀ (l : List Str) {s s' : State},
    s.deliverWith reg d l = .ok s' ↔ (∀ key ∈ l, s.routed reg d key = true) ∧ s' = s.sentTo d l
  | [], s, s' => by
    have : s.sentTo d [] = s := by simp [sentTo]
    rw [deliverWith, this]
    exact ⟨fun h => ⟨by simp, (Except.ok.inj h).symm⟩, fun h => by rw [h.2]⟩
  | x :: l, s, s' => by
    rw [deliverWith, List.forall_mem_cons]
    by_cases hx : isSdk x = true
    · rw [sentTo_sdk hx]
      by_cases hn : d.encodesNull reg = true
      · simp [hx, hn, routed]
      · rw [if_pos hx, if_neg hn, deliverWith_iff d l, show s.routed reg d x = true by
          simp [routed, hx, hn], eq_self_iff_true, true_and]
        rfl
    · have hx' := Bool.eq_false_iff.mpr hx
      rw [if_neg hx]
      cases hp : s.getInstance x with
      | none =>
        have hr : s.routed reg d x = false := by
          rw [routed, if_neg hx, isInstanceExist, UMap.count]
          exact Option.isSome_eq_false_iff.mpr (Option.isNone_iff_eq_none.mpr hp)
        simp [hr]
      | some p =>
        have hr : s.routed reg d x = true := by
          rw [routed, if_neg hx, isInstanceExist, UMap.count]
          exact Option.isSome_iff_exists.mpr ⟨p, hp⟩
        rw [sentTo_inst hx' hp, hr, eq_self_iff_true, true_and]
        exact deliverWith_iff d l

/-! ### Counting -/

variable {s : State} {d : DataList} {l : List Str}

theorem updates_sentTo (p : InstancePtr) : (s.sentTo d l).updates p d =
    s.updates p d + (l.filter (fun k => !isSdk k)).countP (fun k => s.getInstance k = some p) := by
  simp only [updates, sentTo, List.countP_append, List.countP_map, List.countP_reverse,
    List.countP_filterMap]
  rw [Nat.add_comm]
  congr 1
  refine List.countP_congr (fun k _ => ?_)
  cases s.getInstance k <;> simp

theorem dataUnder_sentTo (key : Str) : (s.sentTo d l).dataUnder key d =
    s.dataUnder key d + (l.filter isSdk).count key := by
  simp only [dataUnder, sentTo, List.countP_append, List.countP_map, List.count]
  congr 1
  refine List.countP_congr (fun k _ => ?_)
  simp [dataEvent]

theorem dataTo_sentTo (fd : ℤ) : (s.sentTo d l).dataTo fd d =
    s.dataTo fd d + (l.filter isSdk).countP (fun k => atoi k = fd) := by
  simp only [dataTo, sentTo, List.countP_append, List.countP_map]
  congr 1
  refine List.countP_congr (fun k _ => ?_)
  simp [dataEvent, Event.addressee]

/-- In a list without repetition, what singles out one member counts once. -/
theorem countP_eq_one {p : Str → Bool} {a : Str} (hl : l.Nodup) (ha : a ∈ l)
    (hp : ∀ k ∈ l, p k = true ↔ k = a) : l.countP p = 1 := by
  rw [← List.count_eq_one_of_mem hl ha, List.count]
  exact List.countP_congr (fun k hk => by simp [hp k hk])

theorem nodup_subs (s : State) (type : Str) : (s.subs type).Nodup := by
  rw [subs]
  cases s.subscibers.find type with
  | none => exact List.nodup_nil
  | some set => exact set.nodup

end State

/-! ### Every subscriber once -/

/-- Nothing that `PublishData` could take for the other kind: the subscribing instances are loaded and
    have no digit in their names, and for connections there is a codec. -/
def Routable (reg : Register) (s : State) (d : DataList) (X : Set Subscriber) : Prop :=
  (∀ name, .inst name ∈ X → State.isSdk name = false ∧ s.isInstanceExist name = true) ∧
  ∀ fd int, .sdk fd int ∈ X → d.encodesNull reg = false

section
variable {reg : Register} {s : State} {d : DataList} {X : Set Subscriber}

theorem publishDataWith_iff {s' : State} : s.publishDataWith reg d = .ok s' ↔
    (∀ key ∈ s.subs d.topic.getType, s.routed reg d key = true) ∧
      s' = (s.touchSubs d.topic.getType).sentTo d (s.subs d.topic.getType) := by
  rw [State.publishDataWith, subs_touchSubs, State.deliverWith_iff]
  rfl

theorem Routable.routed (hX : s.Holds d.topic.getType X) (hr : Routable reg s d X) :
    ∀ key ∈ s.subs d.topic.getType, s.routed reg d key = true := by
  intro key hk
  obtain ⟨x, hx, rfl⟩ := (hX key).mp hk
  cases x with
  | inst name =>
    obtain ⟨hd, he⟩ := hr.1 name hx
    simp [Subscriber.key, State.routed, hd, he]
  | sdk fd int => simp [Subscriber.key, State.routed, isSdk_toStr, hr.2 fd int hx]

/-- An instance under a name without digits is handed the data once. -/
theorem reachedOnce_inst (hs : StoreOk s) (hX : s.Holds d.topic.getType X) {name : Str}
    (hn : .inst name ∈ X) (hd : State.isSdk name = false) (he : s.isInstanceExist name = true) :
    ReachedOnce s ((s.touchSubs d.topic.getType).sentTo d (s.subs d.topic.getType)) d
      (.inst name) := by
  obtain ⟨p, hp⟩ := Option.isSome_iff_exists.mp he
  refine ⟨p, hp, ?_, ?_⟩
  · rw [State.updates_sentTo, State.countP_eq_one (a := name) ((s.nodup_subs _).filter _)]
    · rfl
    · simpa [hd] using (hX name).mpr ⟨_, hn, rfl⟩
    · intro k _
      rw [decide_eq_true_iff]
      exact ⟨fun hk => hs.inj hk hp, fun hk => hk ▸ hp⟩
  · rw [State.dataUnder_sentTo, List.count_eq_zero_of_not_mem (by simp [hd])]
    rfl

/-- Among subscribers without misleading names, a connection has one event queued for it. -/
theorem reachedOnce_sdk (hs : StoreOk s) (hX : s.Holds d.topic.getType X)
    (hr : ∀ name, .inst name ∈ X → State.isSdk name = false) {fd : ℕ} {int : fd < 2 ^ 31}
    (hfd : .sdk fd int ∈ X) :
    ReachedOnce s ((s.touchSubs d.topic.getType).sentTo d (s.subs d.topic.getType)) d
      (.sdk fd int) := by
  refine ⟨?_, fun p hp => ?_⟩
  · rw [State.dataTo_sentTo, State.countP_eq_one (a := toStr fd) ((s.nodup_subs _).filter _)]
    · rfl
    · simpa [isSdk_toStr] using (hX (toStr fd)).mpr ⟨_, hfd, rfl⟩
    · intro k hk
      obtain ⟨hm, hsdk⟩ := List.mem_filter.mp hk
      obtain ⟨x, hx, rfl⟩ := (hX k).mp hm
      rw [decide_eq_true_iff]
      cases x with
      | inst name => rw [Subscriber.key, hr name hx] at hsdk; cases hsdk
      | sdk fd' int' =>
        simp only [Subscriber.key, atoi_toStr int']
        refine ⟨fun he => by rw [Int.natCast_inj.mp he], fun he => ?_⟩
        rw [← atoi_toStr int', he, atoi_toStr int]
  · rw [State.updates_sentTo, List.countP_eq_zero.mpr]
    · rfl
    · intro k hk hkp
      have hsame := hs.inj (of_decide_eq_true hkp) hp
      rw [hsame] at hk
      simp [isSdk_toStr] at hk

/-- ONCE, BY ITS OWN ROUTE: in every reachable state and for every set of subscribers, `PublishData`
    comes to its end and has reached each subscriber exactly once by the right route, if and only if
    every subscribing instance is loaded and has a name without digits (and the data can be encoded). -/
theorem publishData_reaches_iff (h : Reach s) (hX : s.Holds d.topic.getType X) :
    (∃ s', s.publishDataWith reg d = .ok s' ∧ ∀ x ∈ X, ReachedOnce s s' d x) ↔
      Routable reg s d X := by
  have hs := storeOk_runs h
  constructor
  · rintro ⟨s', hs', hx⟩
    obtain ⟨hr, rfl⟩ := publishDataWith_iff.mp hs'
    refine ⟨fun name hn => ?_, fun fd int hfd => ?_⟩
    · obtain ⟨p, hp, -, hu⟩ := hx _ hn
      refine ⟨?_, Option.isSome_iff_exists.mpr ⟨p, hp⟩⟩
      -- an instance with a digit in its name has had an event queued for it
      rw [State.dataUnder_sentTo] at hu
      have hzero := Nat.add_eq_left.mp hu
      have hm := (hX name).mpr ⟨_, hn, rfl⟩
      by_contra hd
      exact List.count_eq_zero.mp hzero (List.mem_filter.mpr ⟨hm, by simpa using hd⟩)
    · have := hr (toStr fd) ((hX _).mpr ⟨_, hfd, rfl⟩)
      simpa [State.routed, isSdk_toStr] using this
  · intro hr
    refine ⟨_, publishDataWith_iff.mpr ⟨hr.routed hX, rfl⟩, fun x hx => ?_⟩
    cases x with
    | inst name => exact reachedOnce_inst hs hX hx (hr.1 name hx).1 (hr.1 name hx).2
    | sdk fd int => exact reachedOnce_sdk hs hX (fun name hn => (hr.1 name hn).1) hx

end

theorem holds_map {s : State} {type : Str} {l : List Subscriber}
    (h : s.subs type = l.map Subscriber.key) : s.Holds type {x | x ∈ l} := by
  intro key
  rw [h, List.mem_map]
  rfl

/-- The data thread sends an event to whoever owns its addressee's descriptor, if that is connected. -/
theorem System.sendData_sent (s : System) (e : Event) (audience : List ℕ) :
    (s.sendData e audience).sent = s.sent ∨
    ∃ fd : ℕ, e.addressee = some (fd : ℤ) ∧ s.handler.conns.count fd = true ∧
      (s.sendData e audience).sent = s.sent ++ [(s.owner fd, audience)] := by
  unfold System.sendData Event.addressee
  dsimp only
  split
  · exact Or.inl rfl
  · rename_i hopt
    split
    · rename_i hp
      split
      · rename_i hg
        refine Or.inr ⟨_, ?_, hg.2.1, rfl⟩
        simp only [hp, if_pos (not_not.mp hopt), Int.toNat_of_nonneg hg.1]
      · exact Or.inl rfl
    · exact Or.inl rfl

/-- A subscriber of each kind. -/
def bothKinds : List Subscriber := [.sdk 7 (by decide), .inst (str "j")]

/-- An instance and a connection, each reached once. -/
theorem publishData_reaches_both : ∃ s s' : State, Reach s ∧
    s.subs (sampleTopic "i").getType = [str "7", str "j"] ∧
    s.publishDataWith noCodecs ⟨sampleTopic "i", []⟩ = .ok s' ∧
    ReachedOnce s s' ⟨sampleTopic "i", []⟩ (.inst (str "j")) ∧
    ReachedOnce s s' ⟨sampleTopic "i", []⟩ (.sdk 7 (by decide)) := by
  have h : Reach _ := Runs.of_runAll (fun _ _ => True)
    [sampleLoad, .message (.SUBSCRIBE (sampleTopic "i") (str "j")) accepting,
      .message (.SUBSCRIBE (sampleTopic "i") (str "7")) accepting] .start rfl
  have hj : ∀ name, Subscriber.inst name ∈ bothKinds → name = str "j" := by
    intro name hn
    simpa [bothKinds] using hn
  obtain ⟨s', hs', hx⟩ := (publishData_reaches_iff h (holds_map (l := bothKinds) (by decide))).mpr
    (⟨fun name hn => by rw [hj name hn]; exact ⟨by decide, by decide⟩, fun _ _ _ => rfl⟩ :
      Routable noCodecs _ ⟨sampleTopic "i", []⟩ _)
  exact ⟨_, s', h, by decide, hs', hx _ (List.mem_of_getElem? (i := 1) rfl),
    hx _ (List.mem_of_getElem? (i := 0) rfl)⟩

/-- An instance with a digit in its name is taken for the connection with descriptor `0`. -/
theorem publishData_misses : ∃ s s' : State, Reach s ∧
    s.Holds (sampleTopic "i").getType {x | x ∈ [Subscriber.inst (str "l3c")]} ∧
    s.publishDataWith noCodecs ⟨sampleTopic "i", []⟩ = .ok s' ∧ s.getInstance (str "l3c") = some 3 ∧
    s'.updates 3 ⟨sampleTopic "i", []⟩ = 0 ∧ s'.dataTo 0 ⟨sampleTopic "i", []⟩ = 1 ∧
    ¬ ReachedOnce s s' ⟨sampleTopic "i", []⟩ (.inst (str "l3c")) := by
  have h : Reach _ := Runs.of_runAll (fun _ _ => True)
    [sampleLoad, .load (str "b.so") ⟨true, true, some [⟨str "l3c", [], 0, 1, 20⟩]⟩,
      .message (.SUBSCRIBE (sampleTopic "i") (str "l3c")) accepting] .start rfl
  refine ⟨_, _, h, holds_map (by decide), rfl, by decide, by decide, by decide, ?_⟩
  rintro ⟨p, hp, hu, -⟩
  obtain rfl : 3 = p := Option.some.inj hp
  revert hu
  decide

end OeAware
