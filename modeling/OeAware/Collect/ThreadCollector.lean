import OeAware.Common.Numbers
import OeAware.Data.Plain
import OeAware.Schemes.Journal
import OeAware.Schemes.Run

/-! @src src/plugin/collect/system/thread/thread_collector.cpp, ebpf/thread_collector.bpf.c |
    name:ThreadCollector | scheme:snapshot and journal

    The collector publishes the threads that are alive. One build looks through `/proc`, and passes over
    a process whose task directory has the time it had when it was read; the other looks once and then
    follows what the kernel reports of `clone` and `exit`.

        scan    /proc ─▶ threads ─▶ publish
        trace   /proc ─▶ threads ◀─ ring buffer ◀─ sys_exit_clone, sys_enter_exit -/

namespace OeAware
open Schemes

namespace ThreadCollector

/-! ### The kernel -/

/-- A thread. -/
structure Task where
  pid : UInt32
  comm : Str
  deriving DecidableEq

/-- A `clone` that has not returned in the parent: its process, the child and its name. -/
structure CloneReturn where
  pid : UInt32
  tid : UInt32
  comm : Str
  child : 0 < tid
  deriving DecidableEq

structure Kernel where
  alive : UMap UInt32 Task
  parents : List CloneReturn
  /-- How many have not returned in the child. -/
  children : ℕ

structure ThreadEvent where
  pid : UInt32
  tid : UInt32
  comm : Str
  is_create : Bool
  deriving DecidableEq

/-- `trace_sys_exit_clone`, by a thread of the process `pid`; nothing is written over `memory` in a child. -/
def traceSysExitClone (pid : UInt32) (ret : ℤ) (comm : Str) (memory : ThreadEvent) : ThreadEvent :=
  if ret ≠ 0 then ⟨pid, .ofInt ret, comm, true⟩ else memory

/-- `trace_sys_enter_exit`. -/
def traceSysEnterExit (pid tid : UInt32) (comm : Str) : ThreadEvent :=
  ⟨pid, tid, comm, false⟩

/-- What threads do: a `clone` of a thread or of a process that succeeds or fails, its returns in the parent and
    in the child, which may be far apart, and `exit`. -/
inductive Deed where
  | clone (parent child : UInt32) (thread : Bool)
  | cloneFails (parent : UInt32) (ret : ℤ) (memory : ThreadEvent)
  | cloneReturns (r : CloneReturn) (memory : ThreadEvent)
  | cloneReturnsInChild (memory : ThreadEvent)
  | exit (tid : UInt32)

/-- What a deed leaves, and what it reports; `none` where it cannot happen. -/
def Kernel.step (k : Kernel) : Deed → Option (Kernel × Option ThreadEvent)
  | .clone parent child thread =>
    match k.alive.find parent with
    | none => none
    | some task =>
      if h : 0 < child ∧ k.alive.find child = none then
        some (⟨k.alive.insert child ⟨if thread then task.pid else child, task.comm⟩,
          ⟨task.pid, child, task.comm, h.1⟩ :: k.parents, k.children + 1⟩, none)
      else none
  | .cloneFails parent ret memory =>
    match k.alive.find parent with
    | none => none
    | some task =>
      if ret < 0 then some (k, some (traceSysExitClone task.pid ret task.comm memory)) else none
  | .cloneReturns r memory =>
    if r ∈ k.parents then
      some ({ k with parents := k.parents.erase r }, some (traceSysExitClone r.pid r.tid.toNat r.comm memory))
    else none
  | .cloneReturnsInChild memory =>
    if 0 < k.children then
      some ({ k with children := k.children - 1 }, some (traceSysExitClone 0 0 [] memory))
    else none
  | .exit tid =>
    match k.alive.find tid with
    | none => none
    | some task =>
      some ({ k with alive := k.alive.erase tid }, some (traceSysEnterExit task.pid tid task.comm))

/-- The processes in `/proc`. -/
def Kernel.processes (k : Kernel) : List UInt32 := (k.alive.values.map (·.pid)).dedup

/-- The threads in `/proc/pid/task`. -/
def Kernel.tasks (k : Kernel) (pid : UInt32) : List UInt32 :=
  k.alive.keys.filter (fun tid => (k.alive.find tid).map (·.pid) = some pid)

/-- `access("/proc/pid/task/tid", F_OK)`, where `pid` is the process of `tid`, or another thread of it. -/
def Kernel.taskPath (k : Kernel) (pid tid : UInt32) : Bool :=
  match k.alive.find tid with
  | none => false
  | some task => task.pid = pid || (k.alive.find pid).map (·.pid) = some task.pid

/-! ### Looking through `/proc` -/

/-- A key of the maps is an `int`, of which there is one to each unsigned number. -/
structure State where
  openStatus : Bool
  threads : UMap UInt32 ThreadInfo
  taskTime : UMap UInt32 Int64

def init : State := ⟨false, .empty, .empty⟩

/-- The body of the loop of `ClearInvalidThread`. -/
def clearThread (k : Kernel) (s : State) (tid : UInt32) : State :=
  match s.threads.find tid with
  | none => s
  | some info =>
    if k.taskPath info.pid info.tid then s
    else { s with threads := s.threads.erase tid, taskTime := s.taskTime.erase tid }

def clearInvalidThread (k : Kernel) (s : State) : State := s.threads.keys.foldl (clearThread k) s

/-- `GetThreadInfo`, which reads the first word of the file. -/
def getThreadInfo (k : Kernel) (pid tid : UInt32) : Option ThreadInfo :=
  (k.alive.find tid).map (fun task => ⟨pid, tid, readWord (task.comm ++ [10]) []⟩)

/-- The body of the loop of `CollectThreads`. -/
def collectThread (k : Kernel) (pid : UInt32) (threads : UMap UInt32 ThreadInfo) (tid : UInt32) :
    UMap UInt32 ThreadInfo :=
  match getThreadInfo k pid tid with
  | none => threads
  | some info => threads.insert tid info

def collectThreads (k : Kernel) (pid : UInt32) (threads : UMap UInt32 ThreadInfo) : UMap UInt32 ThreadInfo :=
  (k.tasks pid).foldl (collectThread k pid) threads

/-- `IsNotChange`; the build that traces does not ask. -/
def isNotChange (mtime : Option (UInt32 → Int64)) (taskTime : UMap UInt32 Int64) (pid : UInt32) : Bool :=
  match mtime with
  | none => false
  | some mtime => taskTime.find pid = some (mtime pid)

/-- The body of the loop of `GetAllThreads`. -/
def getThreads (k : Kernel) (mtime : Option (UInt32 → Int64)) (s : State) (pid : UInt32) : State :=
  if isNotChange mtime s.taskTime pid then s
  else
    { s with
      threads := collectThreads k pid s.threads
      taskTime := match mtime with
        | none => s.taskTime
        | some mtime => s.taskTime.insert pid (mtime pid) }

/-- `GetAllThreads`; `mtime` has the times of the task directories where they matter. -/
def getAllThreads (k : Kernel) (mtime : Option (UInt32 → Int64)) (s : State) : State :=
  k.processes.foldl (getThreads k mtime) (clearInvalidThread k s)

/-- What there is no defined outcome for. -/
inductive Fault where
  /-- A deed that the kernel does not let happen. -/
  | noDeed
  /-- The ring buffer is polled or given back where there is none. -/
  | badPointer
  deriving DecidableEq

/-- How `OpenThreadTrace` ends: well, before there is a ring buffer or for want of one. -/
inductive Opening where
  | done
  | notLoaded
  | noRingBuffer
  deriving DecidableEq

inductive Call where
  | enable (opening : Opening)
  | openTopic
  | run (mtime : UInt32 → Int64)
  | closeTopic
  | disable

inductive Act where
  | deed (d : Deed)
  | call (c : Call)

/-! ### The build that scans -/

/-- The machine, with what was published by the last step and the threads of the last scan. -/
structure Scanning where
  kernel : Kernel
  state : State
  published : Option (List ThreadInfo)
  seen : UMap UInt32 Task

namespace Scanning

def start (k : Kernel) : Scanning := ⟨k, init, none, .empty⟩

def step (w : Scanning) : Act → Except Fault Scanning
  | .deed d =>
    match w.kernel.step d with
    | none => .error .noDeed
    | some r => .ok { w with kernel := r.1, published := none }
  | .call (.enable _) => .ok { w with published := none }
  | .call .openTopic => .ok { w with state := { w.state with openStatus := true }, published := none }
  | .call .closeTopic => .ok { w with state := { w.state with openStatus := false }, published := none }
  | .call .disable => .ok { w with state := init, published := none, seen := .empty }
  | .call (.run mtime) =>
    if w.state.openStatus then
      let s := getAllThreads w.kernel (some mtime) w.state
      .ok { w with state := s, published := some s.threads.values, seen := w.kernel.alive }
    else .ok { w with published := none }

end Scanning

/-! ### The build that traces -/

/-- `rb`, with the events that have not been read. -/
inductive RingBuffer where
  | null
  | live (events : List ThreadEvent)
  | freed

/-- An event is submitted. -/
def RingBuffer.submit : RingBuffer → Option ThreadEvent → RingBuffer
  | .live events, some event => .live (events ++ [event])
  | rb, _ => rb

/-- What an event says of a thread. -/
def ThreadEvent.entry (e : ThreadEvent) : JournalEntry UInt32 ThreadInfo :=
  (e.tid, if e.is_create then some ⟨e.pid, e.tid, e.comm⟩ else none)

/-- `ParseThreadEvent`. -/
def parseThreadEvent (events : List ThreadEvent) (threads : UMap UInt32 ThreadInfo) : UMap UInt32 ThreadInfo :=
  threads.replay (events.map ThreadEvent.entry)

/-- The machine, with the threads that have been created while it traced and whose `clone` has not returned
    in the parent. -/
structure Tracing where
  kernel : Kernel
  state : State
  rb : RingBuffer
  published : Option (List ThreadInfo)
  missing : List UInt32

namespace Tracing

def start (k : Kernel) : Tracing := ⟨k, init, .null, none, []⟩

/-- Which threads are missing after a deed. -/
def missingAfter (w : Tracing) : Deed → List UInt32
  | .clone _ child _ => child :: w.missing
  | .cloneReturns r _ => w.missing.filter (· ≠ r.tid)
  | .exit tid => w.missing.filter (· ≠ tid)
  | _ => w.missing

def step (w : Tracing) : Act → Except Fault Tracing
  | .deed d =>
    match w.kernel.step d with
    | none => .error .noDeed
    | some r =>
      .ok { w with
        kernel := r.1
        rb := w.rb.submit r.2
        published := none
        missing := w.missingAfter d }
  | .call (.enable opening) =>
    let w := { w with state := getAllThreads w.kernel none w.state, published := none }
    match opening with
    | .done => .ok { w with rb := .live [], missing := [] }
    | .notLoaded => .ok w
    | .noRingBuffer => .ok { w with rb := .null }
  | .call .openTopic => .ok { w with state := { w.state with openStatus := true }, published := none }
  | .call .closeTopic => .ok { w with state := { w.state with openStatus := false }, published := none }
  | .call .disable =>
    match w.rb with
    | .null => .ok { w with state := init, published := none }
    | .live _ => .ok { w with state := init, rb := .freed, published := none }
    | .freed => .error .badPointer
  | .call (.run _) =>
    if w.state.openStatus then
      match w.rb with
      | .live events =>
        let threads := parseThreadEvent events w.state.threads
        .ok { w with
          state := { w.state with threads }, rb := .live [], published := some threads.values }
      | _ => .error .badPointer
    else .ok { w with published := none }

end Tracing

end ThreadCollector
end OeAware
