import OeAware.Schemes.Container

/-! @scheme journal | name:a map that is kept by entries | models:the replay of events

    Each entry of a journal says what is under one key from now on, and replaying it over a map leaves the
    last word on each key. A key that the journal is silent about is as it was: the map under the journal
    can be renewed where the journal is silent, and the journal can grow. -/

namespace Schemes
variable {κ α : Type} [DecidableEq κ]

/-- A key and what is under it, if anything. -/
abbrev JournalEntry (κ α : Type) : Type := κ × Option α

namespace UMap

/-- Enter what is said of one key. -/
def enter (m : UMap κ α) (e : JournalEntry κ α) : UMap κ α :=
  match e.2 with
  | some v => m.insert e.1 v
  | none => m.erase e.1

theorem find_enter (m : UMap κ α) (e : JournalEntry κ α) (k : κ) :
    (m.enter e).find k = if k = e.1 then e.2 else m.find k := by
  obtain ⟨k', v⟩ := e
  cases v <;> rfl

def replay (m : UMap κ α) (es : List (JournalEntry κ α)) : UMap κ α := es.foldl enter m

end UMap

/-- The last word of a journal on a key. -/
def lastWord (k : κ) : List (JournalEntry κ α) → Option (Option α)
  | [] => none
  | e :: es => (lastWord k es).or (if k = e.1 then some e.2 else none)

theorem lastWord_append (k : κ) : ∀ es es' : List (JournalEntry κ α),
    lastWord k (es ++ es') = (lastWord k es').or (lastWord k es)
  | [], es' => by simp [lastWord]
  | e :: es, es' => by
    rw [List.cons_append, lastWord, lastWord, lastWord_append k es es', Option.or_assoc]

/-- What a replay finds is the last word, or what was there before. -/
theorem find_replay (k : κ) : ∀ (es : List (JournalEntry κ α)) (m : UMap κ α),
    (m.replay es).find k = (lastWord k es).getD (m.find k)
  | [], _ => rfl
  | e :: es, m => by
    have ih := find_replay k es (m.enter e)
    rw [UMap.find_enter] at ih
    rw [lastWord]
    refine ih.trans ?_
    cases lastWord k es with
    | some v => rfl
    | none => split <;> rfl

/-- Map and journal together say `x` of a key: the journal does, or it is silent and the map does. -/
structure Tells (m : UMap κ α) (es : List (JournalEntry κ α)) (k : κ) (x : Option α) : Prop where
  word : ∀ v, lastWord k es = some v → v = x
  silent : lastWord k es = none → m.find k = x

namespace Tells
variable {m m' : UMap κ α} {es : List (JournalEntry κ α)} {k : κ} {x : Option α}

theorem find (h : Tells m es k x) : (m.replay es).find k = x := by
  rw [find_replay]
  cases hw : lastWord k es with
  | some v => exact h.word v hw
  | none => exact h.silent hw

/-- Without a journal it is the map that says it. -/
theorem of_find (h : m.find k = x) : Tells m [] k x where
  word _ hw := by cases hw
  silent _ := h

/-- The map is renewed under the journal. -/
theorem renew (h : Tells m es k x) (h' : m'.find k = x) : Tells m' es k x := ⟨h.word, fun _ => h'⟩

/-- The journal grows by a word on the key. -/
theorem last (m : UMap κ α) (es : List (JournalEntry κ α)) (k : κ) (x : Option α) :
    Tells m (es ++ [(k, x)]) k x := by
  have hw : lastWord k (es ++ [(k, x)]) = some x := by
    rw [lastWord_append, lastWord, lastWord, if_pos rfl]
    rfl
  exact ⟨fun v hv => Option.some.inj (hv.symm.trans hw), fun hn => by rw [hw] at hn; cases hn⟩

/-- It grows by a word on another one. -/
theorem other (h : Tells m es k x) {e : JournalEntry κ α} (he : k ≠ e.1) : Tells m (es ++ [e]) k x := by
  have hw : lastWord k (es ++ [e]) = lastWord k es := by
    rw [lastWord_append, lastWord, lastWord, if_neg he]
    rfl
  exact ⟨fun v hv => h.word v (hw ▸ hv), fun hn => h.silent (hw ▸ hn)⟩

end Tells

end Schemes
