import Mathlib.Data.List.Basic

/-!
# Transaction programs

A request handler talks to a database one statement at a time, inside one open
transaction, and may add jobs to a queue that is not part of the transaction.
`Prog` is that conversation: a tree of statements whose branches are the
answers the database can give. Nothing here names a schema or a service.
-/

namespace Dormitory.Txn

/-- The types a family of transaction programs is written over. -/
structure Sig where
  Stmt : Type
  Ans : Stmt → Type
  Err : Type
  St : Type
  Write : Type
  Lock : Type
  Job : Type

/-- Savepoint commands. -/
inductive Ctl where
  | savepoint (name : String)
  | release (name : String)
  | rollbackTo (name : String)
  deriving DecidableEq, Repr

/-- A handler: it returns, throws, runs a statement, moves a savepoint or adds
a job. Each of the last three hands its outcome to the rest of the program. -/
inductive Prog (σ : Sig) (α : Type) where
  | ret (a : α)
  | fail (e : σ.Err)
  | sql (s : σ.Stmt) (k : Except σ.Err (σ.Ans s) → Prog σ α)
  | ctl (c : Ctl) (k : Except σ.Err Unit → Prog σ α)
  | send (j : σ.Job) (k : Except σ.Err Unit → Prog σ α)

namespace Prog
variable {σ : Sig} {α β γ : Type}

def bind : Prog σ α → (α → Prog σ β) → Prog σ β
  | ret a, f => f a
  | fail e, _ => fail e
  | sql s k, f => sql s fun r => (k r).bind f
  | ctl c k, f => ctl c fun r => (k r).bind f
  | send j k, f => send j fun r => (k r).bind f

instance : Monad (Prog σ) where
  pure := ret
  bind := bind

/-- `try … catch`: the handler sees what the program throws. -/
def attempt : Prog σ α → (σ.Err → Prog σ α) → Prog σ α
  | ret a, _ => ret a
  | fail e, h => h e
  | sql s k, h => sql s fun r => (k r).attempt h
  | ctl c k, h => ctl c fun r => (k r).attempt h
  | send j k, h => send j fun r => (k r).attempt h

/-- An outcome that is not caught: its error ends the program. -/
def uncaught : Except σ.Err α → Prog σ α
  | .ok a => ret a
  | .error e => fail e

/-- One awaited statement. -/
def query (s : σ.Stmt) : Prog σ (σ.Ans s) := sql s uncaught

def control (c : Ctl) : Prog σ Unit := ctl c uncaught

def throw (e : σ.Err) : Prog σ α := fail e

@[simp] theorem pure_eq (a : α) : (pure a : Prog σ α) = ret a := rfl

@[simp] theorem bind_ret (a : α) (f : α → Prog σ β) : (ret a : Prog σ α) >>= f = f a := rfl

@[simp] theorem bind_fail (e : σ.Err) (f : α → Prog σ β) : (fail e : Prog σ α) >>= f = fail e := rfl

@[simp] theorem bind_throw (e : σ.Err) (f : α → Prog σ β) :
    (throw e : Prog σ α) >>= f = fail e := rfl

@[simp] theorem bind_sql (s : σ.Stmt) (k : Except σ.Err (σ.Ans s) → Prog σ α)
    (f : α → Prog σ β) : (sql s k : Prog σ α) >>= f = sql s fun r => k r >>= f := rfl

@[simp] theorem bind_ctl (c : Ctl) (k : Except σ.Err Unit → Prog σ α) (f : α → Prog σ β) :
    (ctl c k : Prog σ α) >>= f = ctl c fun r => k r >>= f := rfl

@[simp] theorem bind_send (j : σ.Job) (k : Except σ.Err Unit → Prog σ α) (f : α → Prog σ β) :
    (send j k : Prog σ α) >>= f = send j fun r => k r >>= f := rfl

@[simp] theorem attempt_ret (a : α) (h : σ.Err → Prog σ α) : (ret a).attempt h = ret a := rfl

@[simp] theorem attempt_fail (e : σ.Err) (h : σ.Err → Prog σ α) : (fail e).attempt h = h e := rfl

@[simp] theorem attempt_sql (s : σ.Stmt) (k : Except σ.Err (σ.Ans s) → Prog σ α)
    (h : σ.Err → Prog σ α) : (sql s k).attempt h = sql s fun r => (k r).attempt h := rfl

@[simp] theorem attempt_ctl (c : Ctl) (k : Except σ.Err Unit → Prog σ α) (h : σ.Err → Prog σ α) :
    (ctl c k).attempt h = ctl c fun r => (k r).attempt h := rfl

@[simp] theorem uncaught_ok (a : α) : (uncaught (.ok a) : Prog σ α) = ret a := rfl

@[simp] theorem uncaught_error (e : σ.Err) : (uncaught (.error e) : Prog σ α) = fail e := rfl

theorem bind_assoc (p : Prog σ α) (f : α → Prog σ β) (g : β → Prog σ γ) :
    (p >>= f) >>= g = p >>= fun a => f a >>= g := by
  induction p with
  | ret a => rfl
  | fail e => rfl
  | sql s k ih => simp only [bind_sql]; congr 1; funext r; exact ih r
  | ctl c k ih => simp only [bind_ctl]; congr 1; funext r; exact ih r
  | send j k ih => simp only [bind_send]; congr 1; funext r; exact ih r

theorem bind_pure (p : Prog σ α) : p >>= ret = p := by
  induction p with
  | ret a => rfl
  | fail e => rfl
  | sql s k ih => simp only [bind_sql]; congr 1; funext r; exact ih r
  | ctl c k ih => simp only [bind_ctl]; congr 1; funext r; exact ih r
  | send j k ih => simp only [bind_send]; congr 1; funext r; exact ih r

end Prog
end Dormitory.Txn
