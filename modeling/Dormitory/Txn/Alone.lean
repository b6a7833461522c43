import Dormitory.Txn.ReadCommitted

/-!
# One transaction at a time

Seen from inside, a request of an interleaved run meets a sequence of committed
states: its `n`-th operation runs against `env.db n`, whatever the others did in
between. `Prog.runIn` runs a request against such a sequence, and `Prog.serve` is
the special case of calls that are executed one after another.
-/

namespace Dormitory.Txn

/-- What a request meets: the committed state at each of its operations, and
whether the queue takes its jobs. -/
structure Env (σ : Sig) where
  db : Nat → σ.St
  queueUp : Nat → Bool := fun _ => true

/-- How a request's handler ended, after `clock` operations. -/
structure Ending (σ : Sig) (α : Type) where
  answer : Except σ.Err α
  session : Session σ
  clock : Nat

section
variable {σ : Sig} {α β : Type}

namespace Prog

/-- Runs a program from its `n`-th operation on. -/
def runIn (E : Engine σ) (env : Env σ) : Prog σ α → Nat → Session σ → Ending σ α
  | ret a, n, x => ⟨.ok a, x, n⟩
  | fail e, n, x => ⟨.error e, x, n⟩
  | sql s k, n, x =>
    (k (x.exec E (env.db n) s).2).runIn E env (n + 1) (x.exec E (env.db n) s).1
  | ctl c k, n, x => (k (x.control E c).2).runIn E env n (x.control E c).1
  | send _ k, n, x =>
    (k (if env.queueUp n then .ok () else .error E.queueDown)).runIn E env (n + 1) x

variable (E : Engine σ) (env : Env σ) (n : Nat) (x : Session σ)

@[simp] theorem runIn_ret (a : α) : (ret a : Prog σ α).runIn E env n x = ⟨.ok a, x, n⟩ := rfl

@[simp] theorem runIn_fail (e : σ.Err) :
    (fail e : Prog σ α).runIn E env n x = ⟨.error e, x, n⟩ := rfl

theorem runIn_sql (s : σ.Stmt) (k : Except σ.Err (σ.Ans s) → Prog σ α) :
    (sql s k).runIn E env n x =
      (k (x.exec E (env.db n) s).2).runIn E env (n + 1) (x.exec E (env.db n) s).1 := rfl

theorem runIn_send (j : σ.Job) (k : Except σ.Err Unit → Prog σ α) :
    (send j k).runIn E env n x =
      (k (if env.queueUp n then .ok () else .error E.queueDown)).runIn E env (n + 1) x := rfl

/-- A sequence runs its second part where the first one ended. -/
theorem runIn_bind (p : Prog σ α) (f : α → Prog σ β) :
    (p >>= f).runIn E env n x =
      match (p.runIn E env n x).answer with
      | .ok a => (f a).runIn E env (p.runIn E env n x).clock (p.runIn E env n x).session
      | .error e => ⟨.error e, (p.runIn E env n x).session, (p.runIn E env n x).clock⟩ := by
  induction p generalizing n x with
  | ret a => rfl
  | fail e => rfl
  | sql s k ih => exact ih _ _ _
  | ctl c k ih => exact ih _ _ _
  | send j k ih => exact ih _ _ _

theorem runIn_attempt (p : Prog σ α) (h : σ.Err → Prog σ α) :
    (p.attempt h).runIn E env n x =
      match (p.runIn E env n x).answer with
      | .ok _ => p.runIn E env n x
      | .error e => (h e).runIn E env (p.runIn E env n x).clock (p.runIn E env n x).session := by
  induction p generalizing n x with
  | ret a => rfl
  | fail e => rfl
  | sql s k ih => exact ih _ _ _
  | ctl c k ih => exact ih _ _ _
  | send j k ih => exact ih _ _ _

/-- Whatever the program meets, a value it returns satisfies `P`. -/
def Returns (P : α → Prop) (p : Prog σ α) : Prop :=
  ∀ env n x a, (p.runIn E env n x).answer = .ok a → P a

theorem Returns.ret {P : α → Prop} {a : α} (holds : P a) :
    (Prog.ret a : Prog σ α).Returns E P := by
  intro env n x a' answer
  cases answer
  exact holds

theorem Returns.fail {P : α → Prop} (e : σ.Err) : (Prog.fail e : Prog σ α).Returns E P := by
  intro env n x a answer
  cases answer

theorem Returns.bind {P : β → Prop} {p : Prog σ α} {f : α → Prog σ β}
    (rest : ∀ a, (f a).Returns E P) : (p >>= f).Returns E P := by
  intro env n x b answer
  rw [runIn_bind] at answer
  cases first : (p.runIn E env n x).answer with
  | ok a =>
    rw [first] at answer
    exact rest a _ _ _ b answer
  | error e =>
    rw [first] at answer
    cases answer

section query
variable {s : σ.Stmt} {f : σ.Ans s → Prog σ β} {ws : List σ.Write}
  {sv : List (String × List σ.Write)} {tr : List (σ.Stmt × σ.St)}

/-- An awaited statement that goes through. -/
theorem runIn_query {ws' : List σ.Write} {a : σ.Ans s}
    (ran : E.exec s (ws.foldl E.apply (env.db n)) = .ok (ws', a)) :
    (query s >>= f).runIn E env n ⟨ws, sv, false, tr⟩ = (f a).runIn E env (n + 1)
      ⟨ws ++ ws', sv, false, tr ++ [(s, ws.foldl E.apply (env.db n))]⟩ := by
  have here : (⟨ws, sv, false, tr⟩ : Session σ).exec E (env.db n) s =
      (⟨ws ++ ws', sv, false, tr ++ [(s, ws.foldl E.apply (env.db n))]⟩, .ok a) :=
    Session.exec_ok rfl ran
  change ((uncaught _ >>= f) : Prog σ β).runIn E env (n + 1) _ = _
  rw [here]
  rfl

theorem runIn_query_error {e : σ.Err}
    (ran : E.exec s (ws.foldl E.apply (env.db n)) = .error e) :
    (query s >>= f).runIn E env n ⟨ws, sv, false, tr⟩ = ⟨.error e, ⟨ws, sv, true, tr⟩, n + 1⟩ := by
  have here : (⟨ws, sv, false, tr⟩ : Session σ).exec E (env.db n) s =
      (⟨ws, sv, true, tr⟩, .error e) := Session.exec_error rfl ran
  change ((uncaught _ >>= f) : Prog σ β).runIn E env (n + 1) _ = _
  rw [here]
  rfl

end query
end Prog

namespace Ending

/-- The writes that COMMIT makes permanent. -/
def written (e : Ending σ α) : List σ.Write :=
  match e.answer with
  | .ok _ => if e.session.broken then [] else e.session.writes
  | .error _ => []

def commit (E : Engine σ) (db : σ.St) (e : Ending σ α) : σ.St := e.written.foldl E.apply db

/-- The value the client gets, if it gets one. -/
def response (e : Ending σ α) : Option α :=
  match e.answer with
  | .ok a => some a
  | .error _ => none

end Ending

/-- A call with nothing else going on. -/
def Prog.serve (E : Engine σ) (queueUp : Nat → Bool) (db : σ.St) (p : Prog σ α) : Ending σ α :=
  p.runIn E ⟨fun _ => db, queueUp⟩ 0 {}

/-! ## What every statement keeps -/

/-- `I` holds of what the session sees and of all it can roll back to. -/
structure Session.Holds (E : Engine σ) (db : σ.St) (I : σ.St → Prop) (x : Session σ) : Prop where
  view : I (x.view E db)
  saved : ∀ p ∈ x.saves, I (p.2.foldl E.apply db)

section keeps
variable {E : Engine σ} {db : σ.St} {I : σ.St → Prop} {x : Session σ}

theorem Session.Holds.exec {s : σ.Stmt} (h : x.Holds E db I)
    (keep : ∀ st ws a, I st → E.exec s st = .ok (ws, a) → I (ws.foldl E.apply st)) :
    (x.exec E db s).1.Holds E db I := by
  cases broken : x.broken with
  | true =>
    rw [Session.exec_broken broken]
    exact h
  | false =>
    cases ran : E.exec s (x.view E db) with
    | error e =>
      rw [Session.exec_error broken ran]
      exact ⟨h.view, h.saved⟩
    | ok r =>
      rw [Session.exec_ok broken ran]
      refine ⟨?_, h.saved⟩
      simpa only [Session.view, List.foldl_append] using keep _ r.1 r.2 h.view ran

theorem Session.Holds.control (h : x.Holds E db I) (c : Ctl) :
    (x.control E c).1.Holds E db I := by
  have kept : ∀ {drop : String × List σ.Write → Bool} {p}, p ∈ x.saves.dropWhile drop →
      p ∈ x.saves := fun hp => (List.dropWhile_sublist _).subset hp
  cases c with
  | savepoint name =>
    simp only [Session.control]
    split
    · exact h
    · refine ⟨h.view, fun p hp => ?_⟩
      rcases List.mem_cons.mp hp with rfl | old
      · exact h.view
      · exact h.saved p old
  | release name =>
    simp only [Session.control]
    split
    · exact h
    split
    · exact ⟨h.view, h.saved⟩
    · rename_i found
      exact ⟨h.view, fun p hp =>
        h.saved p (kept (by rw [found]; exact List.mem_cons_of_mem _ hp))⟩
  | rollbackTo name =>
    simp only [Session.control]
    split
    · exact ⟨h.view, h.saved⟩
    · rename_i top rest found
      have saved : ∀ p ∈ top :: rest, I (p.2.foldl E.apply db) :=
        fun p hp => h.saved p (kept (by rw [found]; exact hp))
      exact ⟨saved top (by simp), saved⟩

theorem Prog.runIn_holds (queueUp : Nat → Bool) (p : Prog σ α) (n : Nat)
    (keep : ∀ s st ws a, I st → E.exec s st = .ok (ws, a) → I (ws.foldl E.apply st))
    (h : x.Holds E db I) : (p.runIn E ⟨fun _ => db, queueUp⟩ n x).session.Holds E db I := by
  induction p generalizing n x with
  | ret a => exact h
  | fail e => exact h
  | sql s k ih => exact ih _ _ (h.exec (keep s))
  | ctl c k ih => exact ih _ _ (h.control c)
  | send j k ih => exact ih _ _ h

/-- **A served call keeps what each statement keeps.** -/
theorem Prog.serve_keeps (queueUp : Nat → Bool) (p : Prog σ α)
    (keep : ∀ s st ws a, I st → E.exec s st = .ok (ws, a) → I (ws.foldl E.apply st))
    (start : I db) : I ((p.serve E queueUp db).commit E db) := by
  have ended : (p.serve E queueUp db).session.Holds E db I :=
    p.runIn_holds queueUp 0 keep ⟨start, by simp⟩
  unfold Ending.commit Ending.written
  split
  · split
    · exact start
    · exact ended.view
  · exact start

end keeps

end
end Dormitory.Txn
