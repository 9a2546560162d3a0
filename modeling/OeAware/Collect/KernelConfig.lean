import Mathlib.Data.List.TakeWhile
import OeAware.Collect.CommandBase
import OeAware.Common.Numbers
import OeAware.Schemes.Container
import OeAware.Schemes.Run
import OeAware.Schemes.Words

/-! @src src/plugin/collect/system/kernel_config.cpp | name:KernelConfig | scheme:run

    A topic `get_cmd` names a pipeline of commands, which every `Run` passes to a shell. The stages are stored
    one by one while they are checked, so that those before a stage that is refused stay; `Disable` leaves them
    as well.

        cat f @@ grep x @@ reboot        getCmds:  cat f │ grep x          and OpenTopic fails

    Beside the state of the object there are the topics that are open. -/

namespace OeAware
open Schemes

namespace KernelConfig
open CommandBase

def getCmdGroup : List Str :=
  [str "cat", str "grep", str "awk", str "pgrep", str "ls", str "ethtool", str "lscpu", str "ifconfig"]

def cmdGroup : List Str := [str "sysctl", str "ifconfig", str "/sbin/blockdev"]

def topicStr : List Str := [str "get_kernel_config", str "get_cmd", str "set_kernel_config"]

def cmdSeparator : Str := str "@@"

structure State where
  getTopics : UMap Str (USet Str)
  getCmds : UMap Str (List Str)
  setSystemParams : List (Str × Str)
  sysctlParams : UMap Str Str
  cmdRun : List Str

def State.init : State := ⟨.empty, .empty, [], .empty, []⟩

/-- The loop of `InitCmd` over the words of the stream; `cmd` is the stage that is being read. -/
def initCmd (topicType : Str) : List Str → Str → UMap Str (List Str) → Bool × UMap Str (List Str)
  | [], cmd, getCmds =>
    if validateCmd cmd then (true, getCmds.push topicType cmd) else (false, getCmds)
  | word :: ws, cmd, getCmds =>
    if word = cmdSeparator then
      if validateCmd cmd then initCmd topicType ws [] (getCmds.push topicType cmd) else (false, getCmds)
    else if cmd ≠ [] then initCmd topicType ws (cmd ++ str " " ++ word) getCmds
    else if word ∈ getCmdGroup then initCmd topicType ws (cmd ++ word) getCmds
    else (false, getCmds)

def openTopic (topic : Topic) (s : State) : Result × State :=
  if topic.topicName ∉ topicStr then (⟨some FAILED, str "topic\x7b" ++ topic.topicName ++ str "\x7d invalid."⟩, s)
  else if topic.topicName = str "get_cmd" then
    let r := initCmd topic.getType (words isSpace topic.params) [] s.getCmds
    (if r.1 then ⟨some OK, []⟩ else ⟨some FAILED, str "params invalid."⟩, { s with getCmds := r.2 })
  else if topic.topicName = str "get_kernel_config" then
    (⟨some OK, []⟩, { s with getTopics := (words isSpace topic.params).foldl (fun getTopics word =>
      getTopics.insert topic.getType (((getTopics.find topic.getType).getD .empty).insert word)) s.getTopics })
  else (⟨some OK, []⟩, s)

def closeTopic (topic : Topic) (s : State) : State :=
  { s with
    getTopics := s.getTopics.erase topic.getType
    getCmds := s.getCmds.erase topic.getType
    setSystemParams := []
    cmdRun := [] }

/-- A line of `sysctl -a`. -/
def readParam (sysctlParams : UMap Str Str) (buffer : Str) : UMap Str Str :=
  let line := if buffer.getLast? = some 10 then buffer.dropLast else buffer
  match splitString line (str " = ") with
  | [key, value] => sysctlParams.insert key value
  | _ => sysctlParams

/-- `Enable`, from what `popen` gives. -/
def enable (output : Option (List Str)) (s : State) : Result × State :=
  match output with
  | none => (⟨some FAILED, str "Error: popen() filed"⟩, s)
  | some lines => (⟨some OK, []⟩, { s with sysctlParams := lines.foldl readParam s.sysctlParams })

def disable (s : State) : State :=
  { s with sysctlParams := .empty, setSystemParams := [], getTopics := .empty, cmdRun := [] }

/-- `UpdateData`, from the keys and values of all elements. -/
def updateData (nodes : List (Str × Str)) (s : State) : State :=
  nodes.foldl (fun s node =>
    if node.2 = [] then { s with cmdRun := s.cmdRun ++ [node.1] }
    else { s with setSystemParams := s.setSystemParams ++ [node] }) s

/-- The stages, with pipes between them. -/
def joinStages (stages : List Str) : Str :=
  stages.foldl (fun cmd cmdPart => (if cmd ≠ [] then cmd ++ str " | " else cmd) ++ cmdPart) []

/-- What `PublishCmd` has run for each topic. -/
def publishCmd (s : State) : List (Str × Str) :=
  s.getCmds.keys.filterMap (fun type => (s.getCmds.find type).map (fun stages => (type, joinStages stages)))

/-- What `PublishKernelParams` publishes under each topic. -/
def publishKernelParams (s : State) : List (Topic × List (Str × Str)) :=
  s.getTopics.keys.filterMap (fun type => (s.getTopics.find type).map (fun names =>
    (getTopicFromType type, names.elems.filterMap (fun name => (s.sysctlParams.find name).map (fun v => (name, v))))))

/-- A command that `SetKernelConfig` runs. -/
def settable (cmd : Str) : Bool :=
  (splitString cmd (str " ")).head?.any (fun part => decide (part ∈ cmdGroup)) && validateCmd cmd

/-- What one `Run` does. -/
structure Done where
  ran : List (Str × Str)
  published : List (Topic × List (Str × Str))
  written : List (Str × Str)
  set : List Str

def run (s : State) : Done :=
  if s.getTopics.keys = [] ∧ s.getCmds.keys = [] then ⟨[], [], s.setSystemParams, s.cmdRun.filter settable⟩
  else ⟨publishCmd s, publishKernelParams s, s.setSystemParams, s.cmdRun.filter settable⟩

/-! ### What a topic asks for -/

/-- The words of a stage. -/
abbrev Stage := List Str

def Stage.text (stage : Stage) : Str := concat stage (str " ")

/-- The stages of a topic's params. -/
def stagesOf (params : Str) : List Stage := groupsFrom cmdSeparator [] (words isSpace params)

/-- The stage is stored. -/
def Stage.allowed (stage : Stage) : Bool :=
  stage.head?.all (fun word => decide (word ∈ getCmdGroup)) && validateCmd stage.text

/-- Every stage is. -/
def accepted (params : Str) : Bool := (stagesOf params).all Stage.allowed

/-- The stages that are stored of a topic. -/
def stored (params : Str) : List Str := ((stagesOf params).takeWhile Stage.allowed).map Stage.text

section
variable {topicType : Str} {getCmds : UMap Str (List Str)}

theorem text_ne_nil {stage : Stage} (hwords : ∀ w ∈ stage, w ≠ []) : stage.text = [] ↔ stage = [] := by
  cases stage with
  | nil => simp [Stage.text, concat, List.intercalate]
  | cons w ws =>
    have hw := hwords w List.mem_cons_self
    cases ws with
    | nil => simpa [Stage.text, concat, List.intercalate] using hw
    | cons v vs =>
      simp only [Stage.text, concat, List.intercalate_cons_cons, List.append_assoc, List.append_eq_nil_iff,
        reduceCtorEq, iff_false]
      exact fun h => hw h.1

theorem text_append {stage : Stage} (h : stage ≠ []) (word : Str) :
    Stage.text (stage ++ [word]) = stage.text ++ str " " ++ word := by
  induction stage with
  | nil => exact absurd rfl h
  | cons w ws ih =>
    cases ws with
    | nil => simp [Stage.text, concat, List.intercalate]
    | cons v vs =>
      have := ih (by simp)
      simp only [Stage.text, concat] at this ⊢
      rw [List.cons_append, List.cons_append, List.intercalate_cons_cons, ← List.cons_append, this,
        List.intercalate_cons_cons]
      simp only [List.append_assoc]

theorem not_allowed_cons {word : Str} (hword : word ∉ getCmdGroup) (rest : List Str) :
    Stage.allowed (word :: rest) = false := by
  simp [Stage.allowed, hword]

/-- What is read is in the first of the pieces. -/
theorem exists_groupsFrom (cur : Stage) : ∀ ws : List Str, ∃ (g : Stage) (gs : List Stage),
    groupsFrom cmdSeparator cur ws = g :: gs ∧ cur <+: g
  | [] => ⟨cur, [], rfl, List.prefix_rfl⟩
  | w :: ws => by
    rw [groupsFrom]
    split
    · exact ⟨cur, _, rfl, List.prefix_rfl⟩
    · obtain ⟨g, gs, heq, hpre⟩ := exists_groupsFrom (cur ++ [w]) ws
      exact ⟨g, gs, heq, (List.prefix_append cur [w]).trans hpre⟩

/-- `InitCmd` stores the stages up to the first that is refused. -/
theorem initCmd_eq : ∀ {ws : List Str} {cur : Stage} {getCmds : UMap Str (List Str)}, (∀ w ∈ ws, w ≠ []) →
    (∀ w ∈ cur, w ≠ []) → (cur.head?.all fun word => decide (word ∈ getCmdGroup)) = true →
    initCmd topicType ws cur.text getCmds =
      ((groupsFrom cmdSeparator cur ws).all Stage.allowed,
        getCmds.pushAll topicType (((groupsFrom cmdSeparator cur ws).takeWhile Stage.allowed).map Stage.text))
  | [], cur, getCmds, _, _, hhead => by
    have hallowed : cur.allowed = validateCmd cur.text := by rw [Stage.allowed, hhead, Bool.true_and]
    rw [initCmd, groupsFrom, List.all_cons, List.all_nil, Bool.and_true, hallowed, List.takeWhile_cons, hallowed]
    cases validateCmd cur.text <;> rfl
  | word :: ws, cur, getCmds, hws, hcur, hhead => by
    obtain ⟨hword, hws⟩ := List.forall_mem_cons.mp hws
    have hallowed : cur.allowed = validateCmd cur.text := by rw [Stage.allowed, hhead, Bool.true_and]
    rw [initCmd, groupsFrom]
    by_cases hsep : word = cmdSeparator
    · rw [if_pos hsep, if_pos hsep, List.all_cons, List.takeWhile_cons, hallowed]
      cases hvalid : validateCmd cur.text with
      | false => rfl
      | true =>
        rw [if_pos rfl, if_pos rfl, Bool.true_and]
        exact initCmd_eq hws (fun w hw => absurd hw List.not_mem_nil) rfl
    · rw [if_neg hsep, if_neg hsep]
      have hcur' : ∀ w ∈ cur ++ [word], w ≠ [] := by
        intro w hw
        rcases List.mem_append.mp hw with h | h
        · exact hcur w h
        · exact List.mem_singleton.mp h ▸ hword
      by_cases hnil : cur = []
      · subst hnil
        have htext : Stage.text [] = [] := rfl
        rw [htext, if_neg (not_not.mpr rfl), List.nil_append, List.nil_append]
        by_cases hmem : word ∈ getCmdGroup
        · have hone : Stage.text [word] = word := by simp [Stage.text, concat, List.intercalate]
          have h : initCmd topicType ws (Stage.text [word]) getCmds = _ :=
            initCmd_eq hws (by simpa using hword) (by simpa using hmem)
          rw [hone] at h
          rw [if_pos hmem, h]
        · -- what follows is not looked at
          obtain ⟨g, gs, heq, hpre⟩ := exists_groupsFrom [word] ws
          have hg : g.allowed = false := by
            obtain ⟨rest, rfl⟩ := hpre
            exact not_allowed_cons hmem rest
          rw [if_neg hmem, heq, List.all_cons, List.takeWhile_cons, hg]
          rfl
      · rw [if_pos (fun h => hnil ((text_ne_nil hcur).mp h)), ← text_append hnil]
        refine initCmd_eq hws hcur' ?_
        rw [List.head?_append_of_ne_nil _ hnil]
        exact hhead

end

/-- A topic `get_cmd` stores its stages up to the first that is refused, and is accepted where there is none. -/
theorem openTopic_getCmds {topic : Topic} (hname : topic.topicName = str "get_cmd") (s : State) :
    openTopic topic s = (if accepted topic.params then ⟨some OK, []⟩ else ⟨some FAILED, str "params invalid."⟩,
      { s with getCmds := s.getCmds.pushAll topic.getType (stored topic.params) }) := by
  have hmem : topic.topicName ∈ topicStr := by
    rw [hname]
    decide
  have hinit : initCmd topic.getType (words isSpace topic.params) (Stage.text []) s.getCmds = _ :=
    initCmd_eq (fun w hw => ne_nil_of_mem_words hw) (fun w hw => absurd hw List.not_mem_nil) rfl
  have htext : Stage.text [] = [] := rfl
  rw [htext] at hinit
  unfold openTopic
  rw [if_neg (not_not.mpr hmem), if_pos hname, hinit]
  rfl

/-! ### Runs -/

inductive Event
  | openTopic (topic : Topic)
  | closeTopic (topic : Topic)
  | enable (output : Option (List Str))
  | disable
  | updateData (nodes : List (Str × Str))
  | run

/-- The object, and the topics `get_cmd` that have been opened and neither closed nor disabled since. -/
structure Tracked where
  state : State
  opened : List Topic

def Tracked.init : Tracked := ⟨.init, []⟩

def step (tr : Tracked) : Event → Except Empty Tracked
  | .openTopic topic =>
    let r := openTopic topic tr.state
    .ok ⟨r.2, if topic.topicName = str "get_cmd" ∧ r.1.code = some OK then tr.opened ++ [topic] else tr.opened⟩
  | .closeTopic topic =>
    .ok ⟨closeTopic topic tr.state, tr.opened.filter (fun t => t.getType ≠ topic.getType)⟩
  | .enable output => .ok ⟨(enable output tr.state).2, tr.opened⟩
  | .disable => .ok ⟨disable tr.state, []⟩
  | .updateData nodes => .ok ⟨updateData nodes tr.state, tr.opened⟩
  | .run => .ok tr

/-- The stages of some topics, one after the other. -/
def textsOf (topics : List Topic) : List Str := topics.flatMap (fun t => (stagesOf t.params).map Stage.text)

/-- Whatever a `Run` passes to a shell is what topics that are open have asked for. -/
def Owned (tr : Tracked) : Prop :=
  ∀ p ∈ (run tr.state).ran, ∃ topics : List Topic, topics ≠ [] ∧
    (∀ t ∈ topics, t ∈ tr.opened ∧ t.getType = p.1) ∧ p.2 = joinStages (textsOf topics)

/-- The first stage is refused. -/
def refusedFirst (params : Str) : Bool := !(stagesOf params).head?.any Stage.allowed

/-- A topic that is refused is refused at its first stage, and nothing is disabled while commands are stored. -/
def Careful (tr : Tracked) : Event → Prop
  | .openTopic topic =>
    topic.topicName = str "get_cmd" → accepted topic.params = true ∨ refusedFirst topic.params = true
  | .disable => tr.state.getCmds.keys = []
  | _ => True

theorem stagesOf_ne_nil (params : Str) : stagesOf params ≠ [] := by
  obtain ⟨g, gs, heq, -⟩ := exists_groupsFrom [] (words isSpace params)
  rw [stagesOf, heq]
  exact List.cons_ne_nil _ _

theorem stored_of_accepted {params : Str} (h : accepted params = true) :
    stored params = (stagesOf params).map Stage.text := by
  rw [stored, List.takeWhile_eq_self_iff.mpr (fun stage hstage => List.all_eq_true.mp h stage hstage)]

theorem stored_eq_nil_iff (params : Str) : stored params = [] ↔ refusedFirst params = true := by
  unfold stored refusedFirst
  rw [List.map_eq_nil_iff]
  cases hstages : stagesOf params with
  | nil => exact absurd hstages (stagesOf_ne_nil params)
  | cons g gs =>
    rw [List.takeWhile_cons, List.head?_cons, Option.any_some]
    cases g.allowed <;> simp

/-- What is stored is what the open topics have asked for. -/
def Kept (tr : Tracked) : Prop :=
  ∀ type, tr.state.getCmds.find type =
    if tr.opened.filter (fun t => t.getType = type) = [] then none
    else some (textsOf (tr.opened.filter (fun t => t.getType = type)))

theorem Kept.open {tr : Tracked} (h : Kept tr) {topic : Topic} (hacc : accepted topic.params = true) :
    Kept ⟨{ tr.state with getCmds := tr.state.getCmds.pushAll topic.getType (stored topic.params) },
      tr.opened ++ [topic]⟩ := by
  intro type
  rw [stored_of_accepted hacc]
  refine (UMap.find_pushAll _ (by simpa using stagesOf_ne_nil topic.params) type).trans ?_
  by_cases htype : type = topic.getType
  · subst htype
    rw [if_pos rfl, h, List.filter_append, List.filter_cons_of_pos (by simp)]
    split
    · rename_i hnone
      rw [hnone]
      simp [textsOf]
    · simp [textsOf]
  · rw [if_neg htype, h, List.filter_append, List.filter_cons_of_neg (by simpa using Ne.symm htype)]
    simp

theorem Kept.close {tr : Tracked} (h : Kept tr) (topic : Topic) :
    Kept ⟨closeTopic topic tr.state, tr.opened.filter (fun t => t.getType ≠ topic.getType)⟩ := by
  intro type
  refine (UMap.find_erase _ _ _).trans ?_
  rw [List.filter_filter]
  by_cases htype : type = topic.getType
  · subst htype
    rw [if_pos rfl, List.filter_eq_nil_iff.mpr (fun t _ => by simp), if_pos rfl]
  · have hsame : tr.opened.filter (fun t => decide (t.getType = type) && decide (t.getType ≠ topic.getType)) =
        tr.opened.filter (fun t => t.getType = type) := by
      refine List.filter_congr (fun t _ => ?_)
      by_cases ht : t.getType = type
      · simp [ht, htype]
      · simp [ht]
    rw [if_neg htype, hsame]
    exact h type

theorem updateData_getCmds : ∀ (nodes : List (Str × Str)) (s : State), (updateData nodes s).getCmds = s.getCmds
  | [], _ => rfl
  | node :: nodes, s => by
    unfold updateData
    rw [List.foldl_cons]
    refine (updateData_getCmds nodes _).trans ?_
    split <;> rfl

theorem enable_getCmds (output : Option (List Str)) (s : State) : (enable output s).2.getCmds = s.getCmds := by
  cases output <;> rfl

theorem openTopic_other {topic : Topic} (hname : topic.topicName ≠ str "get_cmd") (s : State) :
    (openTopic topic s).2.getCmds = s.getCmds := by
  unfold openTopic
  rw [if_neg hname]
  split
  · rfl
  · split <;> rfl

theorem Kept.of_same {tr tr' : Tracked} (h : Kept tr) (hcmds : tr'.state.getCmds = tr.state.getCmds)
    (hopened : tr'.opened = tr.opened) : Kept tr' := by
  intro type
  rw [hcmds, hopened]
  exact h type

theorem Kept.step {tr tr' : Tracked} {e : Event} (h : Kept tr) (hok : Careful tr e) (hstep : step tr e = .ok tr') :
    Kept tr' := by
  cases e with
  | openTopic topic =>
    cases hstep
    by_cases hname : topic.topicName = str "get_cmd"
    · rw [openTopic_getCmds hname]
      cases hacc : accepted topic.params with
      | true =>
        rw [if_pos rfl, if_pos ⟨hname, rfl⟩]
        exact h.open hacc
      | false =>
        have hrefused := (hok hname).resolve_left (by simp [hacc])
        rw [if_neg Bool.false_ne_true, if_neg (fun h => absurd (Option.some_inj.mp h.2) (by decide)),
          (stored_eq_nil_iff _).mpr hrefused]
        exact h
    · rw [if_neg (fun h => hname h.1)]
      exact h.of_same (openTopic_other hname _) rfl
  | closeTopic topic =>
    cases hstep
    exact h.close topic
  | enable output =>
    cases hstep
    exact h.of_same (enable_getCmds output _) rfl
  | disable =>
    cases hstep
    intro type
    have hnone : tr.state.getCmds.find type = none := by
      rw [← Option.not_isSome_iff_eq_none, ← UMap.mem_keys, show tr.state.getCmds.keys = [] from hok]
      exact List.not_mem_nil
    exact hnone
  | updateData nodes =>
    cases hstep
    exact h.of_same (updateData_getCmds nodes _) rfl
  | run =>
    cases hstep
    exact h

theorem mem_ran {s : State} {p : Str × Str} (h : p ∈ (run s).ran) :
    ∃ stages, s.getCmds.find p.1 = some stages ∧ p.2 = joinStages stages := by
  unfold run at h
  split at h
  · cases h
  · obtain ⟨type, -, hp⟩ := List.mem_filterMap.mp h
    obtain ⟨stages, hfind, rfl⟩ := Option.map_eq_some_iff.mp hp
    exact ⟨stages, hfind, rfl⟩

theorem Kept.owned {tr : Tracked} (h : Kept tr) : Owned tr := by
  intro p hp
  obtain ⟨stages, hfind, hline⟩ := mem_ran hp
  rw [h] at hfind
  split at hfind
  · cases hfind
  · rename_i hne
    cases hfind
    refine ⟨_, hne, fun t ht => ?_, hline⟩
    obtain ⟨hmem, htype⟩ := List.mem_filter.mp ht
    exact ⟨hmem, of_decide_eq_true htype⟩

/-- **ONLY WHAT IS OPEN IS RUN.** A topic that is refused leaves what is stored as it is exactly if its first stage is
    refused; where that holds of all that are refused, and nothing is disabled while commands are stored, a `Run`
    has run only what open topics have asked for. -/
theorem owned_of_runs (topic : Topic) (s : State) (tr : Tracked) :
    (topic.topicName = str "get_cmd" → (openTopic topic s).1.code = some FAILED →
      ((openTopic topic s).2.getCmds = s.getCmds ↔ refusedFirst topic.params = true)) ∧
      (Runs step .init Careful tr → Owned tr) := by
  refine ⟨fun hname _ => ?_, fun h => ?_⟩
  · rw [openTopic_getCmds hname, ← stored_eq_nil_iff]
    constructor
    · intro hsame
      by_contra hne
      have hfind := s.getCmds.find_pushAll (k := topic.getType) hne topic.getType
      rw [show s.getCmds.pushAll topic.getType (stored topic.params) = s.getCmds from hsame, if_pos rfl] at hfind
      cases hold : s.getCmds.find topic.getType with
      | none =>
        rw [hold] at hfind
        cases hfind
      | some old =>
        rw [hold, Option.getD_some, Option.some.injEq] at hfind
        exact hne (List.self_eq_append_right.mp hfind)
    · intro hnil
      rw [hnil]
      rfl
  · have hkept : Kept tr := h.invariant (I := Kept) (fun _ => rfl) (fun _ _ _ h hok hs => h.step hok hs)
    exact hkept.owned

/-- Its second stage is refused. -/
def sampleTopic : Topic := ⟨str "kernel_config", str "get_cmd", str "cat /proc/version @@ reboot"⟩

/-- It is refused, and its first stage is run. -/
theorem not_owned_refused : ¬ ((∀ (topic : Topic) (s : State), topic.topicName = str "get_cmd" →
      (openTopic topic s).1.code = some FAILED → (openTopic topic s).2.getCmds = s.getCmds) ∧
      ∀ tr, Runs step .init (fun _ _ => True) tr → Owned tr) := by
  rintro ⟨-, h⟩
  have hrun : Runs step .init (fun _ _ => True) ⟨(openTopic sampleTopic .init).2, []⟩ :=
    .next (a := .openTopic sampleTopic) .start trivial (by
      unfold step
      have hfailed : (openTopic sampleTopic .init).1.code ≠ some OK := by decide +kernel
      exact congrArg (fun l => Except.ok (⟨(openTopic sampleTopic .init).2, l⟩ : Tracked)) (if_neg (fun h => hfailed h.2)))
  have hran : (sampleTopic.getType, str "cat /proc/version") ∈ (run (openTopic sampleTopic .init).2).ran := by
    decide +kernel
  obtain ⟨topics, hne, hall, -⟩ := h _ hrun _ hran
  obtain ⟨t, ht⟩ := List.exists_mem_of_ne_nil topics hne
  cases (hall t ht).1

end KernelConfig
end OeAware
