import OeAware.Analysis.Tables
import OeAware.Schemes.Pointers

/-! @src src/plugin/collect/docker/docker_adapt.cpp | name:DockerAdapt | scheme:pointers

    The collector keeps the containers in a hash map and publishes pointers to its entries. `Run` writes
    the entries of the containers that are still there, where they are, and erases the others. -/

namespace OeAware
open Schemes

namespace DockerAdapt

/-- `Container`, with what only the subscribers of the collector's own kind look at. -/
structure Entry extends Container where
  cfs_burst_us : Int64
  cpus : Str
  mems : Str
  system_cpu_usage : UInt64
  tasks : List Int32

def OE_DOCKER_COLLECTOR : Str := str "docker_collector"

structure State where
  openStatus : Bool
  /-- Where the entries are. -/
  containers : UMap Str ℕ
  /-- Where the next one will be. -/
  fresh : ℕ

def init : State := ⟨false, .empty, 0⟩

abbrev Deeds : Type := List (Deed ℕ Entry Topic)

/-- The first loop of `DockerUpdate`: the containers that have gone. -/
def eraseGone (directories : List Str) (s : State) : State × Deeds :=
  let gone := s.containers.keys.filter (fun dir => dir ∉ directories)
  ({ s with containers := gone.foldl UMap.erase s.containers },
    (gone.filterMap s.containers.find).map (.write · none))

/-- `containers[dir] = container`. -/
def store (dir : Str) (container : Entry) (s : State) : State × Deeds :=
  match s.containers.find dir with
  | some a => (s, [.write a (some container)])
  | none => ({ s with containers := s.containers.insert dir s.fresh, fresh := s.fresh + 1 },
      [.write s.fresh (some container)])

/-- The second loop; of a container some of whose files cannot be read nothing is stored. -/
def storeAll : List (Str × Option Entry) → State → State × Deeds
  | [], s => (s, [])
  | (_, none) :: found, s => storeAll found s
  | (dir, some container) :: found, s =>
    let r := store dir container s
    let r' := storeAll found r.1
    (r'.1, r.2 ++ r'.2)

/-- `Run`. What is `found` are the directories, each with what its files hold. -/
def run (found : List (Str × Option Entry)) (s : State) : State × Deeds :=
  if ¬ s.openStatus then (s, [])
  else
    let r := eraseGone (found.map (·.1)) s
    let r' := storeAll found r.1
    (r'.1, r.2 ++ r'.2 ++ [.post ⟨OE_DOCKER_COLLECTOR, OE_DOCKER_COLLECTOR, []⟩
      (r'.1.containers.keys.filterMap r'.1.containers.find)])

inductive Call where
  | openTopic (topic : Topic)
  | closeTopic (topic : Topic)
  | disable
  | run (found : List (Str × Option Entry))

def call : Call → State → State × Deeds
  | .openTopic _, s => ({ s with openStatus := true }, [])
  | .closeTopic _, s | .disable, s => ({ s with openStatus := false }, [])
  | .run found, s => run found s

end DockerAdapt

/-- `DockerAdapt`. -/
@[reducible] def dockerAdapt : Sender where
  State := DockerAdapt.State
  Call := DockerAdapt.Call
  Cell := ℕ
  Content := DockerAdapt.Entry
  Topic := Topic
  init := DockerAdapt.init
  content _ := none
  call := DockerAdapt.call

namespace DockerAdapt

/-- `Run` collects only while no message with a container is waiting. -/
def Allowed (x : dockerAdapt.Sending) : Call → Prop
  | .run _ => x.inst.openStatus = true → ∀ a, x.mail.Unread a
  | _ => True

/-- With no container waited for, anything may be written, and then anything be posted. -/
theorem gentle_writes : ∀ (ds : Deeds) (mail : Mail ℕ Entry Topic), (∀ a, mail.Unread a) →
    (∀ d ∈ ds, ∃ a v, d = .write a v) → ∀ topic cells, mail.GentleAll (ds ++ [.post topic cells])
  | [], _, _, _, _, _ => ⟨trivial, trivial⟩
  | d :: ds, mail, h, hds, topic, cells => by
    obtain ⟨a, v, rfl⟩ := hds d List.mem_cons_self
    exact ⟨h a, gentle_writes ds (mail.perform (.write a v)) h
      (fun d hd => hds d (List.mem_cons_of_mem _ hd)) topic cells⟩

theorem store_writes (dir : Str) (container : Entry) (s : State) :
    ∀ d ∈ (store dir container s).2, ∃ a v, d = .write a v := by
  unfold store
  split <;>
    · intro d hd
      exact ⟨_, _, List.mem_singleton.mp hd⟩

theorem storeAll_writes : ∀ (found : List (Str × Option Entry)) (s : State),
    ∀ d ∈ (storeAll found s).2, ∃ a v, d = .write a v
  | [], _, _, hd => absurd hd List.not_mem_nil
  | (_, none) :: found, s, d, hd => storeAll_writes found s d hd
  | (dir, some container) :: found, s, d, hd => by
    rcases List.mem_append.mp hd with hd | hd
    · exact store_writes dir container s d hd
    · exact storeAll_writes found _ d hd

theorem careful : Sender.Careful (P := dockerAdapt) Allowed := by
  intro x c hc
  cases c with
  | openTopic topic => trivial
  | closeTopic topic => trivial
  | disable => trivial
  | run found =>
    simp only [call, run]
    split
    · trivial
    · rename_i hopen
      refine gentle_writes _ _ (hc (not_not.mp hopen)) (fun d hd => ?_) _ _
      rcases List.mem_append.mp hd with hd | hd
      · obtain ⟨a, _, rfl⟩ := List.mem_map.mp hd
        exact ⟨a, none, rfl⟩
      · exact storeAll_writes found _ d hd

end DockerAdapt
end OeAware
