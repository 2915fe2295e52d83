import Mathlib

/-!
# Watching a program

A program that asks its surroundings for operations, and a monitor that sees each of them before
it is carried out.

* `Prog`, `Prog.run` — a program, and its run against a server with a state.
* `Prog.monitored` — the same run under a monitor.
* `monitored_eq` — the monitor changes nothing, and has seen exactly what was asked for.
-/

set_option autoImplicit false

namespace Monitor

/-- A program with operations `ω`, answered by `α`; it may raise `ε`. -/
inductive Prog (ω α ε : Type) where
  | ret
  | raise (e : ε)
  | op (o : ω) (k : α → Prog ω α ε)

variable {ω α ε σ μ : Type}

/-- What a run leaves: the operations, each with the state it was asked for in, the exception,
and the last state. -/
structure Outcome (ω ε σ : Type) where
  trace : List (σ × ω)
  raised : Option ε
  last : σ

/-- The run against a server. -/
def Prog.run (server : σ → ω → α × σ) : Prog ω α ε → σ → Outcome ω ε σ
  | .ret, s => ⟨[], none, s⟩
  | .raise e, s => ⟨[], some e, s⟩
  | .op o k, s =>
    let (a, s') := server s o
    let rest := (k a).run server s'
    { rest with trace := (s, o) :: rest.trace }

/-- The run under a monitor. -/
def Prog.monitored (server : σ → ω → α × σ) (see : μ → σ × ω → μ) :
    Prog ω α ε → μ → σ → μ × Outcome ω ε σ
  | .ret, m, s => (m, ⟨[], none, s⟩)
  | .raise e, m, s => (m, ⟨[], some e, s⟩)
  | .op o k, m, s =>
    let (a, s') := server s o
    let (m', rest) := (k a).monitored server see (see m (s, o)) s'
    (m', { rest with trace := (s, o) :: rest.trace })

/-- **A monitor changes nothing**, and has seen the operations of the run in order. -/
theorem monitored_eq (server : σ → ω → α × σ) (see : μ → σ × ω → μ) (p : Prog ω α ε) (m : μ)
    (s : σ) :
    p.monitored server see m s = ((p.run server s).trace.foldl see m, p.run server s) := by
  induction p generalizing m s with
  | ret => rfl
  | raise e => rfl
  | op o k ih => simp only [Prog.monitored, Prog.run, ih, List.foldl_cons]

end Monitor
