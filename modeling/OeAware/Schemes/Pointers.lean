import Mathlib.Logic.Function.Basic
import OeAware.Schemes.Run

/-! @scheme pointers | name:messages that carry pointers

    A sender has cells of its own, and what it posts are pointers to them: a message says what its cells
    hold when it is received, not when it was posted. The two are the same if no cell is written
    while a message that points to it is waiting.

        write c 5 ──▶ post [c] ──▶ write c 7 ──▶ receive
                      posted 5                   received 7 -/

namespace Schemes

/-- What a sender does with its cells; a cell without content has been freed. -/
inductive Deed (κ ρ τ : Type) where
  | write (c : κ) (v : Option ρ)
  | post (topic : τ) (cells : List κ)

/-- A message that is waiting, with what its cells held when it was posted. -/
structure Posted (κ ρ τ : Type) where
  topic : τ
  cells : List κ
  posted : List (Option ρ)

/-- A message that has been received. -/
structure Received (ρ τ : Type) where
  topic : τ
  posted : List (Option ρ)
  received : List (Option ρ)

structure Mail (κ ρ τ : Type) where
  cell : κ → Option ρ
  queue : List (Posted κ ρ τ)
  received : List (Received ρ τ)

namespace Mail
variable {κ ρ τ : Type} [DecidableEq κ]

def perform (x : Mail κ ρ τ) : Deed κ ρ τ → Mail κ ρ τ
  | .write c v => { x with cell := Function.update x.cell c v }
  | .post topic cells => { x with queue := x.queue ++ [⟨topic, cells, cells.map x.cell⟩] }

def performAll (x : Mail κ ρ τ) (ds : List (Deed κ ρ τ)) : Mail κ ρ τ := ds.foldl perform x

omit [DecidableEq κ] in
/-- The oldest message is received. -/
def receive (x : Mail κ ρ τ) : Mail κ ρ τ :=
  match x.queue with
  | [] => x
  | m :: queue =>
    { x with queue, received := x.received ++ [⟨m.topic, m.posted, m.cells.map x.cell⟩] }

/-- No message is waiting that points to the cell. -/
def Unread (x : Mail κ ρ τ) (c : κ) : Prop := ∀ m ∈ x.queue, c ∉ m.cells

/-- The deed leaves the messages that are waiting as they are. -/
def Gentle (x : Mail κ ρ τ) : Deed κ ρ τ → Prop
  | .write c _ => x.Unread c
  | .post _ _ => True

def GentleAll : Mail κ ρ τ → List (Deed κ ρ τ) → Prop
  | _, [] => True
  | x, d :: ds => x.Gentle d ∧ GentleAll (x.perform d) ds

/-- What is waiting is as it was posted, and so was what has been received. -/
structure Intact (x : Mail κ ρ τ) : Prop where
  waiting : ∀ m ∈ x.queue, m.cells.map x.cell = m.posted
  read : ∀ r ∈ x.received, r.received = r.posted

variable {x : Mail κ ρ τ}

@[simp] theorem queue_write (x : Mail κ ρ τ) (c : κ) (v : Option ρ) :
    (x.perform (.write c v)).queue = x.queue := rfl

@[simp] theorem unread_write (x : Mail κ ρ τ) (c c' : κ) (v : Option ρ) :
    (x.perform (.write c v)).Unread c' ↔ x.Unread c' := Iff.rfl

@[simp] theorem unread_post (x : Mail κ ρ τ) (topic : τ) (cells : List κ) (c : κ) :
    (x.perform (.post topic cells)).Unread c ↔ x.Unread c ∧ c ∉ cells := by
  simp [Unread, perform, or_imp, forall_and]

theorem gentleAll_append : ∀ (ds ds' : List (Deed κ ρ τ)) (x : Mail κ ρ τ),
    x.GentleAll (ds ++ ds') ↔ x.GentleAll ds ∧ (x.performAll ds).GentleAll ds'
  | [], _, _ => (true_and _).symm.to_iff
  | d :: ds, ds', x =>
    (and_congr_right fun _ => gentleAll_append ds ds' (x.perform d)).trans and_assoc.symm

theorem Intact.perform (h : x.Intact) {d : Deed κ ρ τ} (hd : x.Gentle d) : (x.perform d).Intact := by
  cases d with
  | write c v =>
    refine ⟨fun m hm => ?_, h.read⟩
    rw [← h.waiting m hm]
    refine List.map_congr_left (fun c' hc' => Function.update_of_ne ?_ ..)
    rintro rfl
    exact hd m hm hc'
  | post topic cells =>
    refine ⟨fun m hm => ?_, h.read⟩
    rcases List.mem_append.mp hm with hm | hm
    · exact h.waiting m hm
    · rw [List.mem_singleton.mp hm]
      rfl

theorem Intact.performAll : ∀ {ds : List (Deed κ ρ τ)} {x : Mail κ ρ τ}, x.Intact → x.GentleAll ds →
    (x.performAll ds).Intact
  | [], _, h, _ => h
  | _ :: _, _, h, hds => (h.perform hds.1).performAll hds.2

omit [DecidableEq κ] in
theorem Intact.receive (h : x.Intact) : x.receive.Intact := by
  unfold Mail.receive
  split
  · exact h
  · rename_i m queue hq
    refine ⟨fun m' hm' => h.waiting m' (hq ▸ List.mem_cons_of_mem m hm'), fun r hr => ?_⟩
    rcases List.mem_append.mp hr with hr | hr
    · exact h.read r hr
    · rw [List.mem_singleton.mp hr]
      exact h.waiting m (hq ▸ List.mem_cons_self)

end Mail

/-! ### Senders -/

/-- A sender: each call changes its state, and does things with its cells. -/
structure Sender where
  State : Type
  Call : Type
  Cell : Type
  Content : Type
  Topic : Type
  [cells : DecidableEq Cell]
  init : State
  /-- What the cells hold at first. -/
  content : Cell → Option Content
  call : Call → State → State × List (Deed Cell Content Topic)

attribute [instance] Sender.cells

namespace Sender
variable (P : Sender)

/-- The sender and its mail. -/
structure Sending where
  inst : P.State
  mail : Mail P.Cell P.Content P.Topic

inductive Act where
  | call (c : P.Call)
  | receive

def start : P.Sending := ⟨P.init, ⟨P.content, [], []⟩⟩

variable {P}

def step (x : P.Sending) : P.Act → Except Empty P.Sending
  | .call c => .ok ⟨(P.call c x.inst).1, x.mail.performAll (P.call c x.inst).2⟩
  | .receive => .ok { x with mail := x.mail.receive }

/-- The runs whose calls all meet the condition. -/
abbrev Sends (ok : P.Sending → P.Call → Prop) : P.Sending → Prop :=
  Runs step P.start (fun x a => ∀ c, a = .call c → ok x c)

/-- The calls that meet the condition leave the messages that are waiting as they are. -/
def Careful (ok : P.Sending → P.Call → Prop) : Prop :=
  ∀ x c, ok x c → x.mail.GentleAll (P.call c x.inst).2

/-- RECEIVED AS POSTED: a message is received with what its cells held when it was posted. -/
theorem Careful.received {ok : P.Sending → P.Call → Prop} (h : Careful ok) {x : P.Sending}
    (hx : Sends ok x) : ∀ r ∈ x.mail.received, r.received = r.posted := by
  refine (Runs.invariant (I := fun x : P.Sending => x.mail.Intact) ⟨?_, ?_⟩ ?_ hx).read
  · exact fun m hm => absurd hm List.not_mem_nil
  · exact fun r hr => absurd hr List.not_mem_nil
  · intro x a x' hi hok he
    cases a with
    | call c =>
      cases he
      exact hi.performAll (h x c (hok c rfl))
    | receive =>
      cases he
      exact hi.receive

end Sender
end Schemes
