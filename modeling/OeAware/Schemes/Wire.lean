import Mathlib.Data.List.Basic

/-! @scheme wire | name:reading back what was written | models:hand-written pairs of encoders and decoders

    A decoder is a reader: it takes something off a stream, gives a value, or stops with an error. What
    it is to read back `bytes` as `a` says `Reads`: on any stream that starts with them it gives `a` and
    leaves the stream right behind them. That is closed under everything decoders are made of, so the
    proof about a decoder has the shape of the decoder.

        stream (b₁ ++ b₂ ++ rest) ──r──▶ a, stream (b₂ ++ rest) ──f a──▶ c, stream rest -/

namespace Schemes
variable {σ β ε α γ : Type}

/-- A reader of a stream `σ` that may stop with an error. -/
abbrev Reader (σ ε : Type) := StateT σ (Except ε)

/-- On every stream that starts with `bytes` the reader gives `a` and takes just these off; `stream` is
    the stream that holds given bytes. -/
def Reads (stream : List β → σ) (r : Reader σ ε α) (bytes : List β) (a : α) : Prop :=
  ∀ rest, r (stream (bytes ++ rest)) = .ok (a, stream rest)

/-- `n` times the same. -/
def times (r : Reader σ ε α) : ℕ → Reader σ ε (List α)
  | 0 => pure []
  | n + 1 => do
    let x ← r
    let xs ← times r n
    pure (x :: xs)

namespace Reads
variable {stream : List β → σ}

theorem pure (a : α) : Reads stream (Pure.pure a : Reader σ ε α) [] a := fun _ => rfl

/-- It reads them back as one thing only. -/
theorem unique {r : Reader σ ε α} {bytes : List β} {a a' : α} (h : Reads stream r bytes a)
    (h' : Reads stream r bytes a') : a = a' := by
  have he := (h []).symm.trans (h' [])
  injection he with he
  exact congrArg Prod.fst he

theorem bind {r : Reader σ ε α} {f : α → Reader σ ε γ} {bytes bytes' : List β} {a : α} {c : γ}
    (h : Reads stream r bytes a) (h' : Reads stream (f a) bytes' c) :
    Reads stream (r >>= f) (bytes ++ bytes') c := by
  intro rest
  have hr := h (bytes' ++ rest)
  rw [← List.append_assoc] at hr
  show Except.bind (r (stream (bytes ++ bytes' ++ rest))) _ = _
  rw [hr]
  exact h' rest

/-- What is done with the value takes nothing off. -/
theorem andThen {r : Reader σ ε α} {f : α → Reader σ ε γ} {bytes : List β} {a : α} {c : γ}
    (h : Reads stream r bytes a) (h' : Reads stream (f a) [] c) :
    Reads stream (r >>= f) bytes c := by
  have := h.bind h'
  rwa [List.append_nil] at this

theorem times {r : Reader σ ε α} {ser : α → List β} : ∀ (l : List α),
    (∀ x ∈ l, Reads stream r (ser x) x) →
    Reads stream (times r l.length) (l.map ser).flatten l
  | [], _ => Reads.pure []
  | x :: l, h => by
    have hx := h x (List.mem_cons_self ..)
    have hl := Reads.times l (fun y hy => h y (List.mem_cons_of_mem _ hy))
    exact hx.bind (hl.andThen (Reads.pure _))

end Reads

end Schemes
