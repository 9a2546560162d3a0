import Mathlib.Data.Bool.AllAny
import OeAware.Collect.KernelConfig

/-! @src src/plugin/collect/system/kernel_config.cpp, src/plugin/collect/system/command/command_base.cpp |
    name:PublishCmd, SetKernelConfig, ValidateArgs | scheme:words

    What is passed to a shell has been looked through for what a shell makes something of. The first words of
    its stages are known programs, unless a stage has no word; and a `$(` starts another program.

        "cat f @@ grep x"  ──▶  cat f │ grep x          "@@ cat f @@"  ──▶  cat f │
        "cat $(reboot)"    ──▶  cat $(reboot) -/

namespace OeAware
open Schemes
open CommandBase

namespace KernelConfig

/-! ### Lines -/

/-- The first word is one of some programs. -/
def StartsWith (programs : List Str) (stage : Str) : Prop :=
  ∃ blanks program rest, stage = blanks ++ (program ++ rest) ∧ (∀ c ∈ blanks, c = 32) ∧ program ∈ programs ∧
    ∀ c ∈ rest.head?, c = 32

/-- The line is a pipeline of some programs, without `;`, `&`, `>`, `<`, a newline, a backquote, or `$(`. -/
structure Pipeline (programs : List Str) (line : Str) : Prop where
  stages : ∀ stage ∈ line.splitOn 124, StartsWith programs stage
  control : ∀ c ∈ [59, 38, 62, 60, 10, 96], c ∉ line
  substitution : ¬ str "$(" <:+: line

/-- What is read of some stages: nothing is after the first `NUL`. -/
def handed : List Str → List Str
  | [] => []
  | x :: xs => if 0 ∈ x then [cStr x] else x :: handed xs

/-- Apart from empty stages at the front, which leave nothing, there is a stage, none is empty, and none has a
    `$(`. -/
def Sound (stages : List Str) : Prop :=
  handed (stages.dropWhile (fun x => x.isEmpty)) ≠ [] ∧
    ∀ x ∈ handed (stages.dropWhile (fun x => x.isEmpty)), x ≠ [] ∧ ¬ str "$(" <:+: x

/-- Nothing in the string is illegal. -/
def Legal (x : Str) : Prop := ∀ c ∈ [124, 59, 38, 62, 60, 96, 10], c ∉ x

theorem validateCmd_iff (cmd : Str) : validateCmd cmd = true ↔ Legal (cStr cmd) := by
  have h : illegal = ([124, 59, 38, 62, 60, 96, 10] : List UInt8).map (fun c => [c]) := by decide
  unfold validateCmd Legal
  rw [h, List.all_map, List.all_eq_true]
  simp only [Function.comp_apply, Bool.not_eq_true', decide_eq_false_iff_not, List.singleton_infix_iff]

theorem cStr_append (a b : Str) : cStr (a ++ b) = if 0 ∈ a then cStr a else a ++ cStr b := by
  unfold cStr
  split
  · rename_i h
    rw [List.takeWhile_append, if_neg]
    intro hlen
    have hall := List.takeWhile_eq_self_iff.mp ((List.takeWhile_prefix _).eq_of_length hlen) 0 h
    exact absurd hall (by decide)
  · rename_i h
    rw [List.takeWhile_append_of_pos]
    intro c hc
    exact decide_eq_true (fun h0 => h (h0 ▸ hc))

theorem cStr_of_not_mem {a : Str} (h : 0 ∉ a) : cStr a = a := by
  have := cStr_append a []
  rwa [List.append_nil, if_neg h, show cStr [] = [] from rfl, List.append_nil] at this

theorem cStr_intercalate {sep : Str} (hsep : 0 ∉ sep) : ∀ xs : List Str,
    cStr (sep.intercalate xs) = sep.intercalate (handed xs)
  | [] => rfl
  | [x] => by
    rw [handed, handed, List.intercalate_singleton]
    split
    · rw [List.intercalate_singleton]
    · rename_i h
      rw [List.intercalate_singleton, cStr_of_not_mem h]
  | x :: y :: xs => by
    rw [List.intercalate_cons_cons, List.append_assoc, cStr_append, handed]
    split
    · rw [List.intercalate_singleton]
    · rw [cStr_append, if_neg hsep, cStr_intercalate hsep (y :: xs)]
      cases hrest : handed (y :: xs) with
      | nil =>
        rw [handed] at hrest
        split at hrest <;> cases hrest
      | cons z zs => rw [List.intercalate_cons_cons, List.append_assoc]

/-- Stages are joined once there is something to join them to. -/
theorem joinStages_eq (stages : List Str) :
    joinStages stages = (str " | ").intercalate (stages.dropWhile (fun x => x.isEmpty)) := by
  have hfold : ∀ (xs : List Str) (acc : Str), acc ≠ [] →
      xs.foldl (fun cmd cmdPart => (if cmd ≠ [] then cmd ++ str " | " else cmd) ++ cmdPart) acc =
        (str " | ").intercalate (acc :: xs) := by
    intro xs
    induction xs with
    | nil => exact fun acc _ => (List.intercalate_singleton).symm
    | cons x xs ih =>
      intro acc hacc
      rw [List.foldl_cons, if_pos hacc, ih _ (by simp [hacc])]
      cases xs with
      | nil => simp [List.intercalate_cons_cons]
      | cons y ys => simp [List.intercalate_cons_cons]
  unfold joinStages
  induction stages with
  | nil => rfl
  | cons x xs ih =>
    rw [List.foldl_cons, if_neg (not_not.mpr rfl), List.nil_append, List.dropWhile_cons]
    cases x with
    | nil => exact ih
    | cons c x => exact hfold xs (c :: x) (List.cons_ne_nil c x)

/-! ### The stages of a line -/

/-- Stages with the blanks that are around the pipes. -/
def padFrom (lead : Str) : List Str → List Str
  | [] => []
  | [x] => [lead ++ (x ++ [])]
  | x :: y :: xs => (lead ++ (x ++ [32])) :: padFrom [32] (y :: xs)

theorem intercalate_padFrom : ∀ (xs : List Str) (lead : Str), xs ≠ [] →
    [124].intercalate (padFrom lead xs) = lead ++ (str " | ").intercalate xs
  | [], _, h => absurd rfl h
  | [x], lead, _ => by
    rw [padFrom, List.intercalate_singleton, List.intercalate_singleton, List.append_nil]
  | x :: y :: xs, lead, _ => by
    have ih := intercalate_padFrom (y :: xs) [32] (List.cons_ne_nil y xs)
    have hpipe : str " | " = [32] ++ [124] ++ [32] := by decide
    rw [padFrom]
    cases hpad : padFrom [32] (y :: xs) with
    | nil => cases xs <;> cases hpad
    | cons z zs =>
      rw [hpad] at ih
      rw [List.intercalate_cons_cons, List.intercalate_cons_cons, ih]
      simp [hpipe]

theorem forall_padFrom {P Q : Str → Prop} : ∀ (xs : List Str) (lead : Str), (∀ c ∈ lead, c = 32) →
    (∀ x ∈ xs, ∀ lead trail : Str, (∀ c ∈ lead, c = 32) → (∀ c ∈ trail, c = 32) → (P (lead ++ (x ++ trail)) ↔ Q x)) →
    ((∀ stage ∈ padFrom lead xs, P stage) ↔ ∀ x ∈ xs, Q x)
  | [], _, _, _ => by simp [padFrom]
  | [x], lead, hlead, hPQ => by
    rw [padFrom, List.forall_mem_singleton, List.forall_mem_singleton]
    exact hPQ x List.mem_cons_self lead [] hlead (by simp)
  | x :: y :: xs, lead, hlead, hPQ => by
    obtain ⟨hx, hPQ⟩ := List.forall_mem_cons.mp hPQ
    rw [padFrom, List.forall_mem_cons, List.forall_mem_cons, hx lead [32] hlead (by simp),
      forall_padFrom (y :: xs) [32] (by simp) hPQ]

/-- Programs have names, without blanks. -/
def Named (programs : List Str) : Prop := ∀ p ∈ programs, p ≠ [] ∧ 32 ∉ p

theorem not_startsWith_blank {programs : List Str} (hprog : Named programs) {stage : Str} (h : ∀ c ∈ stage, c = 32) :
    ¬ StartsWith programs stage := by
  rintro ⟨blanks, program, rest, rfl, -, hmem, -⟩
  obtain ⟨hne, hblank⟩ := hprog program hmem
  obtain ⟨c, hc⟩ := List.exists_mem_of_ne_nil program hne
  have hc32 := h c (List.mem_append_right _ (List.mem_append_left _ hc))
  exact hblank (hc32 ▸ hc)

theorem startsWith_pad {programs : List Str} (hprog : Named programs) {x lead trail : Str}
    (hx : x = [] ∨ StartsWith programs x) (hlead : ∀ c ∈ lead, c = 32) (htrail : ∀ c ∈ trail, c = 32) :
    StartsWith programs (lead ++ (x ++ trail)) ↔ x ≠ [] := by
  constructor
  · rintro h rfl
    refine not_startsWith_blank hprog (fun c hc => ?_) h
    rcases List.mem_append.mp hc with hc | hc
    · exact hlead c hc
    · exact htrail c hc
  · intro hne
    obtain ⟨blanks, program, rest, rfl, hblanks, hmem, hrest⟩ := hx.resolve_left hne
    refine ⟨lead ++ blanks, program, rest ++ trail, by simp, fun c hc => ?_, hmem, fun c hc => ?_⟩
    · rcases List.mem_append.mp hc with hc | hc
      · exact hlead c hc
      · exact hblanks c hc
    · cases rest with
      | nil => exact htrail c (List.mem_of_mem_head? hc)
      | cons r rest => exact hrest c hc

theorem mem_intercalate {sep : Str} {c : UInt8} : ∀ {xs : List Str}, c ∈ sep.intercalate xs →
    c ∈ sep ∨ ∃ x ∈ xs, c ∈ x
  | [], h => by cases h
  | [x], h => .inr ⟨x, List.mem_cons_self, by rwa [List.intercalate_singleton] at h⟩
  | x :: y :: xs, h => by
    rw [List.intercalate_cons_cons, List.append_assoc] at h
    rcases List.mem_append.mp h with h | h
    · exact .inr ⟨x, List.mem_cons_self, h⟩
    · rcases List.mem_append.mp h with h | h
      · exact .inl h
      · rcases mem_intercalate h with h | ⟨z, hz, hc⟩
        · exact .inl h
        · exact .inr ⟨z, List.mem_cons_of_mem _ hz, hc⟩

/-- A line of legal stages is a pipeline if none is empty and none starts something else. -/
theorem pipeline_iff {programs : List Str} (hprog : Named programs) {xs : List Str}
    (hxs : ∀ x ∈ xs, Legal x ∧ (x = [] ∨ StartsWith programs x)) :
    Pipeline programs ((str " | ").intercalate xs) ↔ xs ≠ [] ∧ ∀ x ∈ xs, x ≠ [] ∧ ¬ str "$(" <:+: x := by
  by_cases hnil : xs = []
  · subst hnil
    refine iff_of_false (fun h => ?_) (fun h => h.1 rfl)
    exact not_startsWith_blank hprog (by simp) (h.stages [] List.mem_cons_self)
  · have hpieces : ((str " | ").intercalate xs).splitOn 124 = padFrom [] xs := by
      rw [← List.nil_append ((str " | ").intercalate xs), ← intercalate_padFrom xs [] hnil]
      refine List.splitOn_intercalate 124 ?_ ?_
      · refine (forall_padFrom xs [] (by simp) (fun x _ lead trail hlead htrail => ?_)).mpr
          (fun x hx => (hxs x hx).1 124 (by decide))
        simp only [List.mem_append, not_or]
        refine ⟨fun h => h.2.1, fun h => ⟨fun hc => ?_, h, fun hc => ?_⟩⟩
        · exact absurd (hlead _ hc) (by decide)
        · exact absurd (htrail _ hc) (by decide)
      · match xs with
        | [] => exact absurd rfl hnil
        | [x] => exact List.cons_ne_nil _ _
        | x :: y :: xs => exact List.cons_ne_nil _ _
    have hstages : (∀ stage ∈ padFrom [] xs, StartsWith programs stage) ↔ ∀ x ∈ xs, x ≠ [] :=
      forall_padFrom xs [] (by simp) (fun x hx lead trail hlead htrail =>
        startsWith_pad hprog (hxs x hx).2 hlead htrail)
    have hsub : str "$(" <:+: (str " | ").intercalate xs ↔ ∃ x ∈ xs, str "$(" <:+: x :=
      pair_infix_intercalate (by decide) (by decide) (by decide) xs
    constructor
    · intro h
      have hne := hstages.mp (hpieces ▸ h.stages)
      exact ⟨hnil, fun x hx => ⟨hne x hx, fun hd => h.substitution (hsub.mpr ⟨x, hx, hd⟩)⟩⟩
    · rintro ⟨-, h⟩
      refine ⟨?_, fun c hc hmem => ?_, fun hd => ?_⟩
      · rw [hpieces]
        exact hstages.mpr (fun x hx => (h x hx).1)
      · rcases mem_intercalate hmem with hsep | ⟨x, hx, hcx⟩
        · have hnot : ∀ c ∈ ([59, 38, 62, 60, 10, 96] : List UInt8), c ∉ str " | " :=
            List.all_iff_forall_prop.mp (by decide +kernel)
          exact hnot c hc hsep
        · have hsub : ∀ c ∈ ([59, 38, 62, 60, 10, 96] : List UInt8),
              c ∈ ([124, 59, 38, 62, 60, 96, 10] : List UInt8) := List.all_iff_forall_prop.mp (by decide +kernel)
          exact (hxs x hx).1 c (hsub c hc) hcx
      · obtain ⟨x, hx, hdx⟩ := hsub.mp hd
        exact (h x hx).2 hdx

/-! ### What the checks let through -/

theorem startsWith_head {programs : List Str} {program rest : Str} (hmem : program ∈ programs)
    (hrest : ∀ c ∈ rest.head?, c = 32) : StartsWith programs (program ++ rest) :=
  ⟨[], program, rest, rfl, by simp, hmem, hrest⟩

/-- What is read of it starts with the program as well. -/
theorem startsWith_cStr {programs : List Str} {program rest : Str} (hmem : program ∈ programs) (hnul : 0 ∉ program)
    (hrest : ∀ c ∈ rest.head?, c = 32) : StartsWith programs (cStr (program ++ rest)) := by
  rw [cStr_append, if_neg hnul]
  refine startsWith_head hmem (fun c hc => ?_)
  cases rest with
  | nil => cases hc
  | cons r rest =>
    have hr := hrest r rfl
    subst hr
    cases hc
    rfl

/-- A string that is the text of an allowed stage. -/
def Vetted (x : Str) : Prop := ∃ stage : Stage, stage.allowed = true ∧ x = stage.text

theorem named_getCmdGroup : Named getCmdGroup := by
  unfold Named
  decide

theorem Vetted.handed {x : Str} (h : Vetted x) :
    Legal (cStr x) ∧ (cStr x = [] ∨ StartsWith getCmdGroup (cStr x)) := by
  obtain ⟨stage, hallowed, rfl⟩ := h
  obtain ⟨hhead, hvalid⟩ := Bool.and_eq_true_iff.mp hallowed
  refine ⟨(validateCmd_iff _).mp hvalid, ?_⟩
  cases stage with
  | nil => exact .inl rfl
  | cons w ws =>
    have hw : w ∈ getCmdGroup := by simpa using hhead
    have hnul : ∀ program ∈ getCmdGroup, (0 : UInt8) ∉ program := by decide
    cases ws with
    | nil =>
      refine .inr ?_
      have htext : Stage.text [w] = w ++ [] := by simp [Stage.text, concat, List.intercalate]
      rw [htext]
      exact startsWith_cStr hw (hnul w hw) (by simp)
    | cons v vs =>
      refine .inr ?_
      have htext : Stage.text (w :: v :: vs) = w ++ ([32] ++ Stage.text (v :: vs)) := by
        simp [Stage.text, concat, List.intercalate_cons_cons, show str " " = [32] from rfl]
      rw [htext]
      exact startsWith_cStr hw (hnul w hw) (by simp)

theorem mem_handed {xs : List Str} {y : Str} (h : y ∈ handed xs) : ∃ x ∈ xs, y = cStr x := by
  induction xs with
  | nil => cases h
  | cons x xs ih =>
    rw [handed] at h
    split at h
    · exact ⟨x, List.mem_cons_self, List.mem_singleton.mp h⟩
    · rename_i hnul
      rcases List.mem_cons.mp h with rfl | h
      · exact ⟨y, List.mem_cons_self, (cStr_of_not_mem hnul).symm⟩
      · obtain ⟨z, hz, rfl⟩ := ih h
        exact ⟨z, List.mem_cons_of_mem _ hz, rfl⟩

/-- The line of some stages is a pipeline if they are sound. -/
theorem pipeline_joinStages {stages : List Str} (h : ∀ x ∈ stages, Vetted x) :
    Pipeline getCmdGroup (cStr (joinStages stages)) ↔ Sound stages := by
  rw [joinStages_eq, cStr_intercalate (by decide)]
  refine pipeline_iff named_getCmdGroup (fun y hy => ?_)
  obtain ⟨x, hx, rfl⟩ := mem_handed hy
  exact (h x ((List.dropWhile_suffix _).subset hx)).handed

/-- Whatever is stored has been looked through. -/
def AllVetted (tr : Tracked) : Prop :=
  ∀ type stages, tr.state.getCmds.find type = some stages → ∀ x ∈ stages, Vetted x

theorem vetted_stored {params x : Str} (h : x ∈ stored params) : Vetted x := by
  obtain ⟨stage, hstage, rfl⟩ := List.mem_map.mp h
  exact ⟨stage, List.mem_takeWhile_imp hstage, rfl⟩

theorem AllVetted.step {tr tr' : Tracked} {e : Event} (h : AllVetted tr) (hstep : step tr e = .ok tr') :
    AllVetted tr' := by
  have hsame : tr'.state.getCmds = tr.state.getCmds → AllVetted tr' := by
    intro hcmds type stages hfind
    rw [hcmds] at hfind
    exact h type stages hfind
  cases e with
  | openTopic topic =>
    by_cases hname : topic.topicName = str "get_cmd"
    · cases hstep
      intro type stages hfind x hx
      rw [openTopic_getCmds hname] at hfind
      by_cases hnone : stored topic.params = []
      · rw [hnone] at hfind
        exact h type stages hfind x hx
      · rw [tr.state.getCmds.find_pushAll hnone type] at hfind
        split at hfind
        · cases hfind
          rcases List.mem_append.mp hx with hx | hx
          · cases hold : tr.state.getCmds.find topic.getType with
            | none =>
              rw [hold] at hx
              cases hx
            | some old =>
              rw [hold] at hx
              exact h _ old hold x hx
          · exact vetted_stored hx
        · exact h type stages hfind x hx
    · cases hstep
      exact hsame (openTopic_other hname _)
  | closeTopic topic =>
    cases hstep
    intro type stages hfind
    have hfind' : (tr.state.getCmds.erase topic.getType).find type = some stages := hfind
    rw [UMap.find_erase] at hfind'
    split at hfind'
    · cases hfind'
    · exact h type stages hfind'
  | enable output =>
    cases hstep
    exact hsame (enable_getCmds output _)
  | disable =>
    cases hstep
    exact hsame rfl
  | updateData nodes =>
    cases hstep
    exact hsame (updateData_getCmds nodes _)
  | run =>
    cases hstep
    exact h

/-- What is run for a topic is what is stored under its type. -/
theorem mem_ran_iff {s : State} {type line : Str} :
    (type, line) ∈ (run s).ran ↔ ∃ stages, s.getCmds.find type = some stages ∧ line = joinStages stages := by
  constructor
  · exact mem_ran
  · rintro ⟨stages, hfind, rfl⟩
    have hkey : type ∈ s.getCmds.keys := UMap.mem_keys_of_find hfind
    unfold run
    rw [if_neg (fun h => by rw [h.2] at hkey; cases hkey)]
    exact List.mem_filterMap.mpr ⟨type, hkey, by rw [hfind]; rfl⟩

/-- What has been opened is run with what was there. -/
theorem ran_of_accepted {topic : Topic} (hname : topic.topicName = str "get_cmd")
    (hacc : accepted topic.params = true) (s : State) {line : Str} :
    (topic.getType, line) ∈ (run (openTopic topic s).2).ran ↔
      line = joinStages ((s.getCmds.find topic.getType).getD [] ++ (stagesOf topic.params).map Stage.text) := by
  have hne : (stagesOf topic.params).map Stage.text ≠ [] := by simpa using stagesOf_ne_nil topic.params
  rw [mem_ran_iff, openTopic_getCmds hname, stored_of_accepted hacc]
  dsimp only
  rw [s.getCmds.find_pushAll hne, if_pos rfl]
  constructor
  · rintro ⟨stages, hstages, rfl⟩
    cases hstages
    rfl
  · rintro rfl
    exact ⟨_, rfl, rfl⟩

/-! ### A program and a blank -/

theorem head_splitAux : ∀ (s acc : Str), (splitAux [32] s 0 acc).head? = some (acc.reverse ++ s.takeWhile (· ≠ 32))
  | [], acc => by simp [splitAux]
  | c :: s, acc => by
    rw [splitAux]
    by_cases hc : c = 32
    · subst hc
      simp [List.isPrefixOf]
    · have hpre : ([32] : Str).isPrefixOf (c :: s) = false := by simp [List.isPrefixOf, Ne.symm hc]
      rw [hpre, if_neg Bool.false_ne_true, head_splitAux s (c :: acc)]
      simp [hc]

theorem head_splitString (s : Str) : (splitString s (str " ")).head? = some (s.takeWhile (· ≠ 32)) := by
  have hhead : (splitAux (str " ") s 0 []).head? = some (s.takeWhile (· ≠ 32)) := head_splitAux s []
  unfold splitString
  dsimp only
  split
  · rename_i h
    rw [← hhead, List.head?_dropLast, if_pos]
    cases htokens : splitAux (str " ") s 0 [] with
    | nil =>
      rw [htokens] at hhead
      cases hhead
    | cons x xs =>
      rw [htokens] at h
      have := h.1
      simp only [List.length_cons, ne_eq, Nat.add_eq_right] at this ⊢
      omega
  · exact hhead

/-- A command that is set starts with its program. -/
theorem settable_iff (cmd : Str) : settable cmd = true ↔ cmd.takeWhile (· ≠ 32) ∈ cmdGroup ∧ Legal (cStr cmd) := by
  unfold settable
  rw [head_splitString, Bool.and_eq_true_iff, validateCmd_iff]
  simp

/-- One command is a pipeline if it is legal, starts with its program and starts nothing else. -/
theorem pipeline_single {programs : List Str} (hprog : Named programs) {line : Str} (hlegal : Legal line)
    (hstart : StartsWith programs line) : Pipeline programs line ↔ ¬ str "$(" <:+: line := by
  have h := @pipeline_iff programs hprog [line] (List.forall_mem_singleton.mpr ⟨hlegal, .inr hstart⟩)
  rw [List.intercalate_singleton] at h
  rw [h]
  constructor
  · exact fun h => (h.2 line List.mem_cons_self).2
  · refine fun hd => ⟨List.cons_ne_nil _ _, List.forall_mem_singleton.mpr ⟨?_, hd⟩⟩
    rintro rfl
    exact not_startsWith_blank hprog (by simp) hstart

theorem pipeline_settable {cmd : Str} (h : settable cmd = true) :
    Pipeline cmdGroup (cStr cmd) ↔ ¬ str "$(" <:+: cStr cmd := by
  obtain ⟨hmem, hlegal⟩ := (settable_iff cmd).mp h
  have hnul : ∀ program ∈ cmdGroup, (0 : UInt8) ∉ program := by decide
  refine pipeline_single (by unfold Named; decide) hlegal ?_
  rw [← List.takeWhile_append_dropWhile (p := (· ≠ 32)) (l := cmd)]
  refine startsWith_cStr hmem (hnul _ hmem) (fun c hc => ?_)
  have hnot := List.head?_dropWhile_not (· ≠ 32) cmd
  rw [Option.mem_def.mp hc] at hnot
  simpa using hnot

theorem pipeline_getCommand {topic : Topic} (h : validateArgs topic = true) :
    Pipeline command (cStr (getCommand topic)) ↔ ¬ str "$(" <:+: cStr topic.params := by
  unfold validateArgs at h
  split at h
  · cases h
  rename_i hmem
  rw [not_not] at hmem
  have hnul : ∀ program ∈ command, (0 : UInt8) ∉ program := by decide
  have hline : cStr (getCommand topic) = topic.topicName ++ 32 :: cStr topic.params := by
    rw [getCommand, List.append_assoc, cStr_append, if_neg (hnul _ hmem), show str " " = [32] from rfl,
      cStr_append, if_neg (by decide)]
    rfl
  have hlegal : Legal (topic.topicName ++ 32 :: cStr topic.params) := by
    have hname : ∀ program ∈ command, ∀ c ∈ ([124, 59, 38, 62, 60, 96, 10] : List UInt8), c ∉ program ∧ c ≠ 32 := by
      decide +kernel
    intro c hc
    rw [List.mem_append, List.mem_cons, not_or, not_or]
    exact ⟨(hname _ hmem c hc).1, (hname _ hmem c hc).2, (validateCmd_iff _).mp h c hc⟩
  have hsub : str "$(" <:+: topic.topicName ++ 32 :: cStr topic.params ↔ str "$(" <:+: cStr topic.params := by
    have hname : ∀ program ∈ command, ¬ str "$(" <:+: program := by decide
    refine (pair_infix_append (by decide) (by decide) _ _).trans ?_
    exact or_iff_right (hname _ hmem)
  rw [hline, pipeline_single (by unfold Named; decide) hlegal (startsWith_head hmem (by simp)), hsub]

/-! ### Every line -/

/-- **PIPELINES OF KNOWN PROGRAMS.** In every state that is reached, a topic that is accepted is run as a pipeline of
    known programs exactly if what is stored for it is sound; a command that is set, and one with accepted
    arguments, exactly if it has no `$(`. -/
theorem pipeline_of_runs (tr : Tracked) (topic : Topic) (s : State) :
    (Runs step .init (fun _ _ => True) tr → topic.topicName = str "get_cmd" →
      (openTopic topic tr.state).1.code = some OK →
      ((∀ line, (topic.getType, line) ∈ (run (openTopic topic tr.state).2).ran → Pipeline getCmdGroup (cStr line)) ↔
        Sound ((tr.state.getCmds.find topic.getType).getD [] ++ (stagesOf topic.params).map Stage.text))) ∧
    (∀ cmd ∈ (run s).set, Pipeline cmdGroup (cStr cmd) ↔ ¬ str "$(" <:+: cStr cmd) ∧
    (validateArgs topic = true →
      (Pipeline command (cStr (getCommand topic)) ↔ ¬ str "$(" <:+: cStr topic.params)) := by
  refine ⟨fun h hname hok => ?_, fun cmd hcmd => ?_, fun h => pipeline_getCommand h⟩
  · have hvetted : AllVetted tr :=
      h.invariant (I := AllVetted) (fun _ _ hfind => by cases hfind) (fun _ _ _ h _ hs => h.step hs)
    have hacc : accepted topic.params = true := by
      rw [openTopic_getCmds hname] at hok
      by_contra hno
      rw [if_neg hno] at hok
      exact absurd (Option.some_inj.mp hok) (by decide)
    have hall : ∀ x ∈ (tr.state.getCmds.find topic.getType).getD [] ++ (stagesOf topic.params).map Stage.text,
        Vetted x := by
      intro x hx
      rcases List.mem_append.mp hx with hx | hx
      · cases hold : tr.state.getCmds.find topic.getType with
        | none =>
          rw [hold] at hx
          cases hx
        | some old =>
          rw [hold] at hx
          exact hvetted _ old hold x hx
      · exact vetted_stored (stored_of_accepted hacc ▸ hx)
    rw [← pipeline_joinStages hall]
    constructor
    · exact fun hline => hline _ ((ran_of_accepted hname hacc _).mpr rfl)
    · intro hline line hran
      rw [(ran_of_accepted hname hacc _).mp hran]
      exact hline
  · have hset : settable cmd = true := by
      unfold run at hcmd
      split at hcmd <;> exact (List.mem_filter.mp hcmd).2
    exact pipeline_settable hset

/-- What is in the parentheses is run by the shell. -/
def sampleSubstitution : Topic := ⟨str "kernel_config", str "get_cmd", str "cat $(reboot)"⟩

theorem not_pipeline_substitution : ¬ ((∀ tr, Runs step .init (fun _ _ => True) tr → ∀ topic : Topic,
      topic.topicName = str "get_cmd" → (openTopic topic tr.state).1.code = some OK →
      ∀ line, (topic.getType, line) ∈ (run (openTopic topic tr.state).2).ran → Pipeline getCmdGroup (cStr line)) ∧
    (∀ s, ∀ cmd ∈ (run s).set, Pipeline cmdGroup (cStr cmd)) ∧
    ∀ topic, validateArgs topic = true → Pipeline command (cStr (getCommand topic))) := by
  rintro ⟨h, -, -⟩
  have hran : (sampleSubstitution.getType, str "cat $(reboot)") ∈ (run (openTopic sampleSubstitution .init).2).ran := by
    decide +kernel
  have hline := h _ .start sampleSubstitution rfl (by decide +kernel) _ hran
  exact hline.substitution (by decide +kernel)

end KernelConfig
end OeAware
