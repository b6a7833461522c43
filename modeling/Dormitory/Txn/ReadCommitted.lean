import Mathlib.Data.Fintype.Basic
import Mathlib.Logic.Function.Basic
import Dormitory.Txn.Prog

/-!
# Interleaved transactions at READ COMMITTED

* every statement sees the rows committed before it starts, with the
  transaction's own writes on top of them;
* a write takes its locks (rows, unique-index entries) and keeps them to the
  end of the transaction: a statement whose locks another open transaction
  holds waits, which here means that it has no step;
* a failed statement breaks the transaction: every later statement fails until
  a ROLLBACK TO SAVEPOINT, and COMMIT of a broken transaction rolls it back
  while its caller still gets the handler's value;
* jobs go to a queue outside the transaction and are visible at once.
-/

namespace Dormitory.Txn

/-- What the database does with a statement. -/
structure Engine (σ : Sig) where
  exec : (s : σ.Stmt) → σ.St → Except σ.Err (List σ.Write × σ.Ans s)
  apply : σ.St → σ.Write → σ.St
  locks : σ.Write → List σ.Lock
  /-- The error of a statement in a broken transaction. -/
  aborted : σ.Err
  noSavepoint : σ.Err
  queueDown : σ.Err

/-- The database side of one open transaction. `trace` is ghost state: each
statement that succeeded, with what it saw. -/
structure Session (σ : Sig) where
  writes : List σ.Write := []
  saves : List (String × List σ.Write) := []
  broken : Bool := false
  trace : List (σ.Stmt × σ.St) := []

namespace Session
variable {σ : Sig}

def view (E : Engine σ) (db : σ.St) (x : Session σ) : σ.St := x.writes.foldl E.apply db

def held (E : Engine σ) (x : Session σ) : List σ.Lock := x.writes.flatMap E.locks

/-- One statement. -/
def exec (E : Engine σ) (db : σ.St) (s : σ.Stmt) (x : Session σ) :
    Session σ × Except σ.Err (σ.Ans s) :=
  if x.broken then (x, .error E.aborted)
  else match E.exec s (x.view E db) with
    | .error e => ({ x with broken := true }, .error e)
    | .ok (ws, a) =>
      ({ x with writes := x.writes ++ ws, trace := x.trace ++ [(s, x.view E db)] }, .ok a)

/-- One savepoint command. ROLLBACK TO keeps the savepoint it goes back to. -/
def control (E : Engine σ) : Ctl → Session σ → Session σ × Except σ.Err Unit
  | .savepoint n, x =>
    if x.broken then (x, .error E.aborted)
    else ({ x with saves := (n, x.writes) :: x.saves }, .ok ())
  | .release n, x =>
    if x.broken then (x, .error E.aborted)
    else match x.saves.dropWhile (fun p => p.1 ≠ n) with
      | [] => ({ x with broken := true }, .error E.noSavepoint)
      | _ :: rest => ({ x with saves := rest }, .ok ())
  | .rollbackTo n, x =>
    match x.saves.dropWhile (fun p => p.1 ≠ n) with
    | [] => ({ x with broken := true }, .error E.noSavepoint)
    | p :: rest => ({ x with writes := p.2, saves := p :: rest, broken := false }, .ok ())

section exec
variable {E : Engine σ} {db : σ.St} {s : σ.Stmt} {x : Session σ}

theorem exec_broken (h : x.broken = true) : x.exec E db s = (x, .error E.aborted) := by
  simp [exec, h]

theorem exec_ok (h : x.broken = false) {ws : List σ.Write} {a : σ.Ans s}
    (ran : E.exec s (x.view E db) = .ok (ws, a)) :
    x.exec E db s =
      ({ x with writes := x.writes ++ ws, trace := x.trace ++ [(s, x.view E db)] }, .ok a) := by
  simp [exec, h, ran]

theorem exec_error (h : x.broken = false) {e : σ.Err} (ran : E.exec s (x.view E db) = .error e) :
    x.exec E db s = ({ x with broken := true }, .error e) := by
  simp [exec, h, ran]

end exec
end Session

/-- A request's transaction. A finished one remembers what its caller was told:
`rolledBack (.ok a)` is the answer of a handler whose COMMIT did nothing. -/
inductive Tx (σ : Sig) (α : Type) where
  | running (p : Prog σ α) (x : Session σ)
  | committed (a : α)
  | rolledBack (answer : Except σ.Err α)
  | crashed

instance Tx.decidableCommitted {σ : Sig} {α : Type} :
    (tx : Tx σ α) → Decidable (∃ a, tx = .committed a)
  | .committed a => isTrue ⟨a, rfl⟩
  | .running _ _ | .rolledBack _ | .crashed => isFalse fun ⟨_, same⟩ => nomatch same

def Tx.held {σ : Sig} {α : Type} (E : Engine σ) : Tx σ α → List σ.Lock
  | .running _ x => x.held E
  | _ => []

/-- The committed state, the transactions, the jobs added so far with the
request that added each, which of them a worker has taken, and the earlier
committed states (ghost), newest first. -/
structure Config (σ : Sig) (ι α : Type) where
  db : σ.St
  txs : ι → Tx σ α
  jobs : List (ι × σ.Job) := []
  taken : List Nat := []
  past : List σ.St := []

/-- The numerals that name two or three requests. -/
instance neZero_two : @NeZero Nat Zero.ofOfNat0 2 := ⟨by decide⟩
instance neZero_three : @NeZero Nat Zero.ofOfNat0 3 := ⟨by decide⟩

/-- Who moves next: a request runs its next statement (`advance`) or finds the
queue down, loses its connection, or a worker takes a job. -/
inductive Action (ι : Type) where
  | advance (t : ι)
  | queueFails (t : ι)
  | crash (t : ι)
  | take (n : Nat)
  deriving DecidableEq

/-- The request that moves. -/
def Action.request {ι : Type} : Action ι → Option ι
  | .advance t | .queueFails t | .crash t => some t
  | .take _ => none

namespace Config
variable {σ : Sig} {ι α : Type} [DecidableEq ι] [Fintype ι] [DecidableEq σ.Lock]

/-- No other open transaction holds a lock of `x`. -/
def Free (E : Engine σ) (c : Config σ ι α) (t : ι) (x : Session σ) : Prop :=
  ∀ u, u ≠ t → ∀ l ∈ x.held E, l ∉ (c.txs u).held E

instance (E : Engine σ) (c : Config σ ι α) (t : ι) (x : Session σ) : Decidable (c.Free E t x) :=
  inferInstanceAs (Decidable (∀ u, u ≠ t → ∀ l ∈ x.held E, l ∉ (c.txs u).held E))

def set (c : Config σ ι α) (t : ι) (x : Tx σ α) : Config σ ι α :=
  { c with txs := Function.update c.txs t x }

/-- The end of a request: COMMIT when the handler returned, ROLLBACK when it
threw. COMMIT of a broken transaction writes nothing. -/
def finish (E : Engine σ) (c : Config σ ι α) (t : ι) (x : Session σ) :
    Except σ.Err α → Config σ ι α
  | .ok a =>
    if x.broken then c.set t (.rolledBack (.ok a))
    else { c.set t (.committed a) with db := x.view E c.db, past := c.db :: c.past }
  | .error e => c.set t (.rolledBack (.error e))

def step (E : Engine σ) (c : Config σ ι α) : Action ι → Option (Config σ ι α)
  | .advance t =>
    match c.txs t with
    | .running (.ret a) x => some (c.finish E t x (.ok a))
    | .running (.fail e) x => some (c.finish E t x (.error e))
    | .running (.sql s k) x =>
      let r := x.exec E c.db s
      if c.Free E t r.1 then some (c.set t (.running (k r.2) r.1)) else none
    | .running (.ctl m k) x =>
      let r := x.control E m
      some (c.set t (.running (k r.2) r.1))
    | .running (.send j k) x =>
      some { c.set t (.running (k (.ok ())) x) with jobs := c.jobs ++ [(t, j)] }
    | _ => none
  | .queueFails t =>
    match c.txs t with
    | .running (.send _ k) x => some (c.set t (.running (k (.error E.queueDown)) x))
    | _ => none
  | .crash t =>
    match c.txs t with
    | .running _ _ => some (c.set t .crashed)
    | _ => none
  | .take n =>
    if n < c.jobs.length ∧ n ∉ c.taken then some { c with taken := n :: c.taken } else none

/-- What a step can do. -/
inductive Moves (E : Engine σ) (c : Config σ ι α) : Action ι → Config σ ι α → Prop
  | commit {t a x} (here : c.txs t = .running (.ret a) x) (sound : x.broken = false) :
    c.Moves E (.advance t)
      { c.set t (.committed a) with db := x.view E c.db, past := c.db :: c.past }
  | lose {t a x} (here : c.txs t = .running (.ret a) x) (broken : x.broken = true) :
    c.Moves E (.advance t) (c.set t (.rolledBack (.ok a)))
  | throw {t e x} (here : c.txs t = .running (.fail e) x) :
    c.Moves E (.advance t) (c.set t (.rolledBack (.error e)))
  | sql {t s k x} (here : c.txs t = .running (.sql s k) x) (free : c.Free E t (x.exec E c.db s).1) :
    c.Moves E (.advance t) (c.set t (.running (k (x.exec E c.db s).2) (x.exec E c.db s).1))
  | control {t m k x} (here : c.txs t = .running (.ctl m k) x) :
    c.Moves E (.advance t) (c.set t (.running (k (x.control E m).2) (x.control E m).1))
  | send {t j k x} (here : c.txs t = .running (.send j k) x) :
    c.Moves E (.advance t)
      { c.set t (.running (k (.ok ())) x) with jobs := c.jobs ++ [(t, j)] }
  | queueFails {t j k x} (here : c.txs t = .running (.send j k) x) :
    c.Moves E (.queueFails t) (c.set t (.running (k (.error E.queueDown)) x))
  | crash {t p x} (here : c.txs t = .running p x) : c.Moves E (.crash t) (c.set t .crashed)
  | take {n} (added : n < c.jobs.length) (fresh : n ∉ c.taken) :
    c.Moves E (.take n) { c with taken := n :: c.taken }

theorem step_moves {E : Engine σ} {c c' : Config σ ι α} {a : Action ι}
    (h : c.step E a = some c') : c.Moves E a c' := by
  cases a with
  | advance t =>
    cases here : c.txs t with
    | running p x =>
      cases p with
      | ret a =>
        simp only [step, here, finish, Option.some.injEq] at h
        subst h
        cases sound : x.broken with
        | true => exact .lose here sound
        | false => exact .commit here sound
      | fail e =>
        simp only [step, here, finish, Option.some.injEq] at h
        exact h ▸ .throw here
      | sql s k =>
        simp only [step, here] at h
        split at h
        · cases h
          exact .sql here ‹_›
        · cases h
      | ctl m k =>
        simp only [step, here, Option.some.injEq] at h
        exact h ▸ .control here
      | send j k =>
        simp only [step, here, Option.some.injEq] at h
        exact h ▸ .send here
    | committed a | rolledBack r | crashed => simp [step, here] at h
  | queueFails t =>
    cases here : c.txs t with
    | running p x =>
      cases p with
      | send j k =>
        simp only [step, here, Option.some.injEq] at h
        exact h ▸ .queueFails here
      | ret a | fail e | sql s k | ctl m k => simp [step, here] at h
    | committed a | rolledBack r | crashed => simp [step, here] at h
  | crash t =>
    cases here : c.txs t with
    | running p x =>
      simp only [step, here, Option.some.injEq] at h
      exact h ▸ .crash here
    | committed a | rolledBack r | crashed => simp [step, here] at h
  | take n =>
    simp only [step] at h
    split at h
    · rename_i free
      cases h
      exact .take free.1 free.2
    · cases h

/-- A schedule, run to its end. -/
def run (E : Engine σ) (c : Config σ ι α) : List (Action ι) → Option (Config σ ι α)
  | [] => some c
  | a :: as => (c.step E a).bind fun c' => c'.run E as

/-- Every action of the schedule meets `ok` in the state it is taken in. -/
def Along (E : Engine σ) (ok : Config σ ι α → Action ι → Prop) (c : Config σ ι α) :
    List (Action ι) → Prop
  | [] => True
  | a :: as => ok c a ∧ ∀ c', c.step E a = some c' → c'.Along E ok as

instance decidableAlong (E : Engine σ) (ok : Config σ ι α → Action ι → Prop)
    [∀ c a, Decidable (ok c a)] : ∀ (as : List (Action ι)) (c : Config σ ι α),
      Decidable (c.Along E ok as)
  | [], _ => isTrue trivial
  | a :: as, c =>
    match h : c.step E a with
    | none => decidable_of_iff (ok c a) (by simp [Along, h])
    | some d =>
      have := decidableAlong E ok as d
      decidable_of_iff (ok c a ∧ d.Along E ok as) (by simp [Along, h])

/-- The statement that an action runs, and in which session. -/
def executes (c : Config σ ι α) : Action ι → Option (σ.Stmt × Session σ)
  | .advance t =>
    match c.txs t with
    | .running (.sql s _) x => some (s, x)
    | _ => none
  | _ => none

/-- The session that an action ends with COMMIT. -/
def commits (c : Config σ ι α) : Action ι → Option (Session σ)
  | .advance t =>
    match c.txs t with
    | .running (.ret _) x => some x
    | _ => none
  | _ => none

/-- The requests `p`, about to start on the committed state `db`. -/
def start (db : σ.St) (p : ι → Prog σ α) : Config σ ι α where
  db := db
  txs t := .running (p t) {}

/-- **Invariant rule.** What one permitted action preserves, a run of permitted
actions preserves. -/
theorem run_invariant (E : Engine σ) {ok : Config σ ι α → Action ι → Prop}
    {I : Config σ ι α → Prop}
    (keep : ∀ c a c', I c → ok c a → c.step E a = some c' → I c') :
    ∀ (as : List (Action ι)) (c c' : Config σ ι α), I c → c.Along E ok as →
      c.run E as = some c' → I c' := by
  intro as
  induction as with
  | nil => intro c c' hi _ hr; cases hr; exact hi
  | cons a as ih =>
    intro c c' hi hok hr
    simp only [run, Option.bind_eq_some_iff] at hr
    obtain ⟨d, hd, hr⟩ := hr
    exact ih d c' (keep c a d hi hok.1 hd) (hok.2 d hd) hr

theorem Along.mono {E : Engine σ} {ok ok' : Config σ ι α → Action ι → Prop}
    (weaker : ∀ c a, ok c a → ok' c a) :
    ∀ {as : List (Action ι)} {c : Config σ ι α}, c.Along E ok as → c.Along E ok' as := by
  intro as
  induction as with
  | nil => exact fun _ => trivial
  | cons a as ih => exact fun h => ⟨weaker _ a h.1, fun d hd => ih (h.2 d hd)⟩

theorem along_true (E : Engine σ) (as : List (Action ι)) (c : Config σ ι α) :
    c.Along E (fun _ _ => True) as := by
  induction as generalizing c with
  | nil => trivial
  | cons a as ih => exact ⟨trivial, fun d _ => ih d⟩

end Config
end Dormitory.Txn
