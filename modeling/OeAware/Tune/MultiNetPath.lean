import OeAware.Analysis.Instance
import OeAware.Common.Numbers
import OeAware.Schemes.Words
import OeAware.Tune.RealtimeSwitches

/-! @src src/plugin/tune/system/network/multi_net_path/multi_net_path.cpp | name:MultiNetPath

    `ResolveCmd` makes the command for `modprobe` out of members, and a parameter sets only the members it names. What is
    not named is what an earlier call has left, accepted or not.

        "ifname:eth0#eth1,appname:mysqld" ──▶ ifnamePara, ifname, appname ──▶ " ifname=eth0#eth1 appname=mysqld"
        "ifname:eth2"                     ──▶ ifnamePara, ifname          ──▶ " ifname=eth2 appname=mysqld"       -/

namespace OeAware
open Schemes

namespace MultiNetPath

/-! ### `ResolveCmd` -/

def invaildParam : Int32 := -1

structure State where
  cmd : Str
  ifnamePara : Str
  ifname : List Str
  appname : Str
  matchIp : Int32
  mode : Int32

def init : State where
  cmd := []
  ifnamePara := []
  ifname := []
  appname := str "redis-server"
  matchIp := invaildParam
  mode := invaildParam

/-- The keys of `cmdHelp`. -/
def cmdHelp : List Str := [str "ifname", str "appname", str "matchip", str "mode"]

/-- `SplitStringByHash`. -/
def splitStringByHash (input : Str) : List Str := getlines 35 input

/-- One character each, from `|` to `$`. -/
def illegal : Str := str "|;&><" ++ [96, 10, 34, 92] ++ str "*?~!^$"

/-- `CheckLegal`. -/
def checkLegal (cmd : Str) : Bool := illegal.all (fun c => c ∉ cmd)

/-- An item that lets the call fail. -/
def bad (paramsMap : UMap Str Str) (key : Str) : Bool :=
  key ∉ cmdHelp || !checkLegal ((paramsMap.find key).getD [])

/-- What the command says of the application. -/
def appText (appname : Str) : Str :=
  if appname = [] then []
  else if appname = str "all_app" then str " appname=" ++ [34, 34]
  else str " appname=" ++ appname

/-- The members that the parameter names. -/
def setIfname (paramsMap : UMap Str Str) (s : State) : State :=
  match paramsMap.find (str "ifname") with
  | some v => { s with ifnamePara := cStr v, ifname := splitStringByHash (cStr v) }
  | none => s

def setAppname (paramsMap : UMap Str Str) (s : State) : State :=
  match paramsMap.find (str "appname") with
  | some v => { s with appname := cStr v }
  | none => s

def makeCmd (s : State) : Str :=
  let cmd := str " ifname=" ++ s.ifnamePara
  let cmd := cmd ++ appText s.appname
  let cmd := if s.matchIp ≠ invaildParam then cmd ++ str " match_ip_flag=" ++ showInt s.matchIp.toInt else cmd
  if s.mode ≠ invaildParam then cmd ++ str " mode=" ++ showInt s.mode.toInt else cmd

/-- `ResolveCmd`. -/
def resolveCmd (param : Str) (s : State) : State × Bool :=
  if param = [] then (s, false)
  else
    let paramsMap := getKeyValueFromString param
    if paramsMap.keys.any (bad paramsMap) then (s, false)
    else
      let s := setIfname paramsMap s
      if s.ifname = [] then (s, false)
      else
        let s := setAppname paramsMap s
        ({ s with cmd := makeCmd s }, true)

/-- What comes of a call: the command of `InsertOeNetCls` and the interfaces that `CheckParam` asks about, where it is
    accepted. -/
def outcome (param : Str) (s : State) : Option (Str × List Str) :=
  let r := resolveCmd param s
  if r.2 then some (str "modprobe oenetcls" ++ r.1.cmd, r.1.ifname) else none

/-- The object after earlier calls. -/
def after (history : List Str) : State := history.foldl (fun s param => (resolveCmd param s).1) init

/-! ### What earlier calls leave -/

/-- The call gets as far as the members. -/
def Legal (param : Str) : Prop := param ≠ [] ∧ ∀ key ∈ (getKeyValueFromString param).keys, bad (getKeyValueFromString param) key = false

instance (param : Str) : Decidable (Legal param) := inferInstanceAs (Decidable (_ ∧ ∀ _ ∈ _, _))

/-- The members that no parameter sets are never set; the interfaces are those of the text; and the application is
    legal. -/
structure Proper (s : State) : Prop where
  matchIp : s.matchIp = invaildParam
  mode : s.mode = invaildParam
  ifname : s.ifname = splitStringByHash s.ifnamePara
  appname : checkLegal s.appname = true

theorem checkLegal_iff {cmd : Str} : checkLegal cmd = true ↔ ∀ c ∈ illegal, c ∉ cmd := by
  rw [checkLegal, List.all_eq_true]
  simp only [decide_eq_true_eq]

theorem checkLegal_cStr {v : Str} (h : checkLegal v = true) : checkLegal (cStr v) = true := by
  rw [checkLegal_iff] at h ⊢
  exact fun c hc hmem => h c hc ((List.takeWhile_sublist _).subset hmem)

theorem Legal.value {param : Str} (h : Legal param) {key v : Str}
    (hv : (getKeyValueFromString param).find key = some v) : checkLegal v = true := by
  have hbad := h.2 key (UMap.mem_keys_of_find hv)
  rw [bad, Bool.or_eq_false_iff, hv] at hbad
  simpa using hbad.2

theorem resolveCmd_illegal {param : Str} {s : State} (h : ¬ Legal param) : resolveCmd param s = (s, false) := by
  rw [resolveCmd]
  split
  · rfl
  · rename_i hne
    dsimp only
    rw [if_pos]
    refine Classical.byContradiction fun hany => h ⟨hne, fun key hkey => ?_⟩
    rw [Bool.not_eq_true, List.any_eq_false] at hany
    simpa using hany key hkey

theorem resolveCmd_legal {param : Str} {s : State} (h : Legal param) : resolveCmd param s =
    if (setIfname (getKeyValueFromString param) s).ifname = [] then (setIfname (getKeyValueFromString param) s, false)
    else
      let s := setAppname (getKeyValueFromString param) (setIfname (getKeyValueFromString param) s)
      ({ s with cmd := makeCmd s }, true) := by
  rw [resolveCmd, if_neg h.1]
  dsimp only
  rw [if_neg]
  rw [Bool.not_eq_true, List.any_eq_false]
  simpa using h.2

theorem Proper.setIfname {s : State} (hs : Proper s) (paramsMap : UMap Str Str) : Proper (setIfname paramsMap s) := by
  rw [MultiNetPath.setIfname]
  split
  · exact { hs with ifname := rfl }
  · exact hs

theorem Proper.setAppname {s : State} (hs : Proper s) {param : Str} (h : Legal param) :
    Proper (setAppname (getKeyValueFromString param) s) := by
  rw [MultiNetPath.setAppname]
  split
  · rename_i v hv
    exact { hs with appname := checkLegal_cStr (h.value hv) }
  · exact hs

theorem Proper.step {s : State} (hs : Proper s) (param : Str) : Proper (resolveCmd param s).1 := by
  rcases em (Legal param) with h | h
  · rw [resolveCmd_legal h]
    split
    · exact hs.setIfname _
    · have hset := (hs.setIfname (getKeyValueFromString param)).setAppname h
      exact ⟨hset.matchIp, hset.mode, hset.ifname, hset.appname⟩
  · rw [resolveCmd_illegal h]
    exact hs

theorem proper_after (history : List Str) : Proper (after history) := by
  have hrun : ∀ (history : List Str) (s : State), Proper s →
      Proper (history.foldl (fun s param => (resolveCmd param s).1) s) := by
    intro history
    induction history with
    | nil => exact fun s hs => hs
    | cons param history ih => exact fun s hs => ih _ (hs.step param)
  exact hrun history init ⟨rfl, rfl, by decide, by decide⟩

/-! ### What a command says of the members -/

theorem makeCmd_proper {s : State} (hs : Proper s) : makeCmd s = str " ifname=" ++ s.ifnamePara ++ appText s.appname := by
  rw [makeCmd, hs.matchIp, hs.mode]
  rfl

/-- The text is empty or begins with a blank. -/
theorem appText_head (appname : Str) : appText appname = [] ∨ ∃ rest, appText appname = 32 :: rest := by
  rw [appText]
  split
  · exact .inl rfl
  · split
    · exact .inr ⟨_, rfl⟩
    · exact .inr ⟨_, rfl⟩

theorem appText_injective {a a' : Str} (h : checkLegal a = true) (h' : checkLegal a' = true)
    (heq : appText a = appText a') : a = a' := by
  have hquote : ∀ {b : Str}, checkLegal b = true → b ≠ [34, 34] := by
    rintro b hb rfl
    revert hb
    decide
  rw [appText, appText] at heq
  split at heq
  · rename_i hnil
    split at heq
    · rename_i hnil'
      rw [hnil, hnil']
    · split at heq
      · cases heq
      · cases heq
  · split at heq
    · split at heq
      · cases heq
      · split at heq
        · rename_i hall _ hall'
          rw [hall, hall']
        · exact absurd (List.append_cancel_left heq).symm (hquote h')
    · split at heq
      · cases heq
      · split at heq
        · exact absurd (List.append_cancel_left heq) (hquote h)
        · exact List.append_cancel_left heq

/-- A text that is cut into pieces is these pieces with or without a last `#`. -/
theorem eq_of_splitStringByHash {input : Str} : splitStringByHash input ≠ [] →
    input = [35].intercalate (splitStringByHash input) ∨ input = [35].intercalate (splitStringByHash input) ++ [35] := by
  intro hne
  have hjoin : [35].intercalate (input.splitOn 35) = input := List.intercalate_splitOn 35
  rw [splitStringByHash, getlines] at hne ⊢
  split
  · rename_i hlast
    rw [if_pos hlast] at hne
    obtain ⟨front, hfront⟩ := List.getLast?_eq_some_iff.mp hlast
    rw [hfront, List.dropLast_concat] at hne ⊢
    refine .inr (hjoin.symm.trans ?_)
    rw [hfront, intercalate_concat_nil hne]
  · exact .inl hjoin.symm

/-- Two commands that say the same about the same interfaces have the same text of interfaces. -/
theorem ifnamePara_eq {p p' a a' : Str} (hne : splitStringByHash p ≠ []) (hsplit : splitStringByHash p = splitStringByHash p')
    (h : p ++ appText a = p' ++ appText a') : p = p' := by
  have hhash : ∀ {q b b' : Str}, q ++ appText b ≠ (q ++ [35]) ++ appText b' := by
    intro q b b' heq
    rw [List.append_assoc] at heq
    have hcons := List.append_cancel_left heq
    rcases appText_head b with hnil | ⟨rest, hblank⟩
    · rw [hnil] at hcons
      cases hcons
    · rw [hblank] at hcons
      exact absurd (List.cons.inj hcons).1 (by decide)
  have hp' := eq_of_splitStringByHash (hsplit ▸ hne)
  rw [← hsplit] at hp'
  rcases eq_of_splitStringByHash hne with hp | hp
  · rcases hp' with hp' | hp'
    · exact hp.trans hp'.symm
    · rw [hp, hp'] at h
      exact absurd h hhash
  · rcases hp' with hp' | hp'
    · rw [hp, hp'] at h
      exact absurd h.symm hhash
    · exact hp.trans hp'.symm

/-! ### Two histories -/

/-- The application comes from the parameter, or is the same in both. -/
def SameApp (param : Str) (s s' : State) : Prop :=
  ((getKeyValueFromString param).find (str "appname")).isSome ∨ s.appname = s'.appname

/-- The interfaces come from the parameter, or are the same in both; if there are none, nothing else matters. -/
def Same (param : Str) (s s' : State) : Prop :=
  match (getKeyValueFromString param).find (str "ifname") with
  | some v => splitStringByHash (cStr v) = [] ∨ SameApp param s s'
  | none => s.ifname = [] ∧ s'.ifname = [] ∨
      s.ifname ≠ [] ∧ s'.ifname ≠ [] ∧ s.ifnamePara = s'.ifnamePara ∧ SameApp param s s'

/-- What an accepted call comes to. -/
theorem outcome_legal {param : Str} {s : State} (hs : Proper s) (h : Legal param) : outcome param s =
    if (setIfname (getKeyValueFromString param) s).ifname = [] then none
    else some (str "modprobe oenetcls" ++ (str " ifname=" ++ (setIfname (getKeyValueFromString param) s).ifnamePara ++
      appText (setAppname (getKeyValueFromString param) s).appname), (setIfname (getKeyValueFromString param) s).ifname) := by
  have hset := (hs.setIfname (getKeyValueFromString param)).setAppname h
  rw [outcome, resolveCmd_legal h]
  split
  · rfl
  · have hmake := makeCmd_proper hset
    dsimp only
    rw [if_pos rfl, hmake]
    have hpara : (setAppname (getKeyValueFromString param) (setIfname (getKeyValueFromString param) s)).ifnamePara =
        (setIfname (getKeyValueFromString param) s).ifnamePara := by
      rw [setAppname]
      split <;> rfl
    have hifname : (setAppname (getKeyValueFromString param) (setIfname (getKeyValueFromString param) s)).ifname =
        (setIfname (getKeyValueFromString param) s).ifname := by
      rw [setAppname]
      split <;> rfl
    have happ : (setAppname (getKeyValueFromString param) (setIfname (getKeyValueFromString param) s)).appname =
        (setAppname (getKeyValueFromString param) s).appname := by
      rw [setAppname, setAppname]
      split
      · rfl
      · rw [setIfname]
        split <;> rfl
    rw [hpara, hifname, happ]

theorem sameApp_iff {param : Str} {s s' : State} (hs : Proper s) (hs' : Proper s') :
    appText (setAppname (getKeyValueFromString param) s).appname =
      appText (setAppname (getKeyValueFromString param) s').appname ↔ SameApp param s s' := by
  rw [SameApp]
  cases hfind : (getKeyValueFromString param).find (str "appname") with
  | some v =>
    rw [setAppname, setAppname, hfind]
    simp
  | none =>
    rw [setAppname, setAppname, hfind]
    simp only [Option.isSome_none, Bool.false_eq_true, false_or]
    exact ⟨appText_injective hs.appname hs'.appname, fun heq => by rw [heq]⟩

/-- WHERE HISTORY DOES NOT MATTER: after any two histories a call comes to the same if and only if it is rejected for its
    text, or names the interfaces, or both objects have the same; and so for the application. -/
theorem outcome_eq_iff (history history' : List Str) (param : Str) :
    outcome param (after history) = outcome param (after history') ↔
      (Legal param → Same param (after history) (after history')) := by
  have hs := proper_after history
  have hs' := proper_after history'
  rcases em (Legal param) with h | h
  · rw [outcome_legal hs h, outcome_legal hs' h, Same, ← sameApp_iff hs hs']
    generalize setAppname (getKeyValueFromString param) (after history) = app
    generalize setAppname (getKeyValueFromString param) (after history') = app'
    generalize after history = s at hs
    generalize after history' = s' at hs'
    rw [forall_prop_of_true h]
    cases hfind : (getKeyValueFromString param).find (str "ifname") with
    | some v =>
      rw [setIfname, setIfname, hfind]
      dsimp only
      rcases eq_or_ne (splitStringByHash (cStr v)) [] with hnil | hne
      · rw [if_pos hnil, if_pos hnil]
        exact iff_of_true rfl (.inl hnil)
      · rw [if_neg hne, if_neg hne, or_iff_right hne]
        simp
    | none =>
      rw [setIfname, setIfname, hfind]
      dsimp only
      rcases eq_or_ne s.ifname [] with hnil | hne
      · rw [if_pos hnil]
        rcases eq_or_ne s'.ifname [] with hnil' | hne'
        · rw [if_pos hnil']
          exact iff_of_true rfl (.inl ⟨hnil, hnil'⟩)
        · rw [if_neg hne']
          refine iff_of_false (fun heq => by cases heq) fun hor => ?_
          exact hor.elim (fun h => hne' h.2) fun h => h.1 hnil
      · rw [if_neg hne]
        rcases eq_or_ne s'.ifname [] with hnil' | hne'
        · rw [if_pos hnil']
          refine iff_of_false (fun heq => by cases heq) fun hor => ?_
          exact hor.elim (fun h => hne h.1) fun h => h.2.1 hnil'
        · rw [if_neg hne', or_iff_right fun h => hne h.1, and_iff_right hne, and_iff_right hne']
          simp only [Option.some.injEq, Prod.mk.injEq, List.append_cancel_left_eq, List.append_assoc]
          constructor
          · rintro ⟨hcmd, hlist⟩
            rw [hs.ifname, hs'.ifname] at hlist
            have hpara := ifnamePara_eq (hs.ifname ▸ hne) hlist hcmd
            exact ⟨hpara, List.append_cancel_left (hpara ▸ hcmd)⟩
          · rintro ⟨hpara, happ⟩
            exact ⟨by rw [hpara, happ], by rw [hs.ifname, hs'.ifname, hpara]⟩
  · refine iff_of_true ?_ fun hl => absurd hl h
    rw [outcome, outcome, resolveCmd_illegal h, resolveCmd_illegal h]
    rfl

/-- Without interfaces of its own a call is rejected by a new object and accepted by one that has some; and an application
    that was named once is meant from then on. -/
theorem not_independent :
    outcome (str "appname:mysqld") (after []) ≠ outcome (str "appname:mysqld") (after [str "ifname:eth0"]) ∧
    outcome (str "ifname:eth0") (after []) ≠ outcome (str "ifname:eth0") (after [str "ifname:eth1,appname:mysqld"]) := by
  decide

end MultiNetPath
end OeAware
