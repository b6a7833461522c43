import Dormitory.Txn.Performs
import Dormitory.Txn.Serial

/-!
# Attempts at a job

A worker that takes a job up again until it has returned or its attempts are
used up. An attempt is a script. Each one that throws is reported to a listener,
a script that nobody waits for, so its transactions may come at any time, also
during a later attempt. Between any two transactions the rest of the database
may change.
-/

namespace Dormitory.Txn

/-- The job, as the queue keeps it. -/
structure Worker (σ : Sig) (α β : Type) where
  db : σ.St
  attemptsMade : Nat := 0
  /-- The attempt that is under way. -/
  running : Option (Script σ α) := none
  returned : Bool := false
  /-- What the attempts threw, each with the rest of its listener. -/
  failures : List (σ.Err × Script σ β) := []
  /-- The calls that the attempts made to the outside. -/
  calls : List σ.Job := []

/-- What is done with a job; `own` is the part of the database that nobody else
changes. An attempt and a listener each meet an outside of their own. -/
structure Processor (σ : Sig) (α β O L R : Type) where
  maxAttempts : Nat
  process : O → Script σ α
  onFailed : L → σ.Err → Nat → Script σ β
  own : σ.St → R

namespace Worker

inductive Move (σ : Sig) (O L : Type) where
  | start (outside : O)
  | advance
  /-- The queue takes the answer of the attempt. -/
  | settle (outside : L)
  | listen (i : Nat)
  | surroundings (db : σ.St)

section
variable {σ : Sig} {α β γ O L R : Type}

/-- The rest of a script after a transaction. -/
def after (e : Ending σ (Script σ γ)) : Script σ γ :=
  match e.answer with
  | .ok s => s
  | .error err => .done (.error err)

def next [DecidableEq R] (E : Engine σ) (P : Processor σ α β O L R) (w : Worker σ α β) :
    Move σ O L → Worker σ α β
  | .start outside =>
    if w.running.isNone ∧ w.returned = false ∧ w.attemptsMade < P.maxAttempts then
      { w with running := some (P.process outside) }
    else w
  | .advance =>
    match w.running with
    | some (.tx p) =>
      let e := p.serve E (fun _ => true) w.db
      { w with
        db := e.commit E w.db
        running := some (after e)
        calls := w.calls ++ (p.sent E ⟨fun _ => w.db, fun _ => true⟩ 0 {}).map Prod.fst }
    | _ => w
  | .settle outside =>
    match w.running with
    | some (.done (.ok _)) => { w with running := none, returned := true }
    | some (.done (.error err)) =>
      { w with
        running := none
        attemptsMade := w.attemptsMade + 1
        failures := w.failures ++ [(err, P.onFailed outside err (w.attemptsMade + 1))] }
    | _ => w
  | .listen i =>
    match w.failures[i]? with
    | some (err, .tx p) =>
      let e := p.serve E (fun _ => true) w.db
      { w with db := e.commit E w.db, failures := w.failures.set i (err, after e) }
    | _ => w
  | .surroundings db => if P.own db = P.own w.db then { w with db := db } else w

/-- A move that finds nothing to do changes nothing. -/
theorem next_advance_done [DecidableEq R] {E : Engine σ} {P : Processor σ α β O L R}
    {w : Worker σ α β} (none : ∀ p, w.running ≠ some (.tx p)) : w.next E P .advance = w := by
  cases here : w.running with
  | none => simp [next, here]
  | some s =>
    cases s with
    | done r => simp [next, here]
    | tx p => exact absurd here (none p)

end
end Worker

section
variable {σ : Sig} {α β γ O L R : Type} {E : Engine σ} {db db' : σ.St} {n : Nat} {x : Session σ}
  {s : Script σ γ} {calls : List σ.Job}

/-- The transaction, served on `db` with a queue that is up, leaves `s` to be
done and `db'`, and has made the calls. -/
structure Prog.Gives (E : Engine σ) (db : σ.St) (n : Nat) (x : Session σ)
    (p : Prog σ (Script σ γ)) (s : Script σ γ) (db' : σ.St) (calls : List σ.Job) : Prop where
  rest : Worker.after (p.runIn E ⟨fun _ => db, fun _ => true⟩ n x) = s
  left : (p.runIn E ⟨fun _ => db, fun _ => true⟩ n x).commit E db = db'
  sent : (p.sent E ⟨fun _ => db, fun _ => true⟩ n x).map Prod.fst = calls

namespace Prog.Gives

theorem ret (sound : x.broken = false) : (Prog.ret s).Gives E db n x s (x.view E db) [] := by
  refine ⟨rfl, ?_, rfl⟩
  simp [Ending.commit, Ending.written, sound, Session.view]

theorem sql {q : σ.Stmt} {k : Except σ.Err (σ.Ans q) → Prog σ (Script σ γ)} {ws : List σ.Write}
    {a : σ.Ans q} (sound : x.broken = false) (ran : E.exec q (x.view E db) = .ok (ws, a))
    (rest : (k (.ok a)).Gives E db (n + 1)
      { x with writes := x.writes ++ ws, trace := x.trace ++ [(q, x.view E db)] } s db' calls) :
    (Prog.sql q k).Gives E db n x s db' calls := by
  have stepped : (k (x.exec E db q).2).Gives E db (n + 1) (x.exec E db q).1 s db' calls := by
    rw [Session.exec_ok sound ran]
    exact rest
  exact ⟨stepped.rest, stepped.left, stepped.sent⟩

theorem query {q : σ.Stmt} {f : σ.Ans q → Prog σ (Script σ γ)} {ws : List σ.Write}
    {a : σ.Ans q} (sound : x.broken = false) (ran : E.exec q (x.view E db) = .ok (ws, a))
    (rest : (f a).Gives E db (n + 1)
      { x with writes := x.writes ++ ws, trace := x.trace ++ [(q, x.view E db)] } s db' calls) :
    (Prog.query q >>= f).Gives E db n x s db' calls :=
  sql sound ran rest

theorem send {j : σ.Job} {k : Except σ.Err Unit → Prog σ (Script σ γ)}
    (rest : (k (.ok ())).Gives E db (n + 1) x s db' calls) :
    (Prog.send j k).Gives E db n x s db' (j :: calls) :=
  ⟨rest.rest, rest.left, congrArg (List.cons j) rest.sent⟩

end Prog.Gives

namespace Worker
variable [DecidableEq R] {P : Processor σ α β O L R} {w : Worker σ α β}

theorem next_advance {p : Prog σ (Script σ α)} {s : Script σ α}
    (here : w.running = some (.tx p)) (gives : p.Gives E w.db 0 {} s db' calls) :
    w.next E P .advance =
      { w with db := db', running := some s, calls := w.calls ++ calls } := by
  obtain ⟨rfl, rfl, rfl⟩ := gives
  simp only [next, here]
  rfl

theorem next_listen {i : Nat} {err : σ.Err} {p : Prog σ (Script σ β)} {s : Script σ β}
    (here : w.failures[i]? = some (err, .tx p)) (gives : p.Gives E w.db 0 {} s db' []) :
    w.next E P (.listen i) = { w with db := db', failures := w.failures.set i (err, s) } := by
  obtain ⟨rfl, rfl, -⟩ := gives
  simp only [next, here]
  rfl

end Worker
end
end Dormitory.Txn
