import Dormitory.Txn.Script

/-!
# A request and the jobs it sends

What a script that runs with nothing else going on leaves behind: its answer, the
committed state, and the jobs that it handed to the queue. The queue may fail at
any of them. The rules take a transaction apart, one operation at a time.
-/

namespace Dormitory.Txn

section
variable {σ : Sig} {α : Type}

/-- The jobs that a program hands to the queue, and whether it takes them. -/
def Prog.sent (E : Engine σ) (env : Env σ) :
    Prog σ α → Nat → Session σ → List (σ.Job × Bool)
  | .ret _, _, _ => []
  | .fail _, _, _ => []
  | .sql s k, n, x =>
    (k (x.exec E (env.db n) s).2).sent E env (n + 1) (x.exec E (env.db n) s).1
  | .ctl c k, n, x => (k (x.control E c).2).sent E env n (x.control E c).1
  | .send j k, n, x => (j, env.queueUp n) ::
    (k (if env.queueUp n then .ok () else .error E.queueDown)).sent E env (n + 1) x

/-- The script, with nothing else going on and a queue that may fail at any job,
ends with `r` in `db'` and has sent the jobs. -/
inductive Script.Performs (E : Engine σ) :
    Script σ α → σ.St → Except σ.Err α → σ.St → List (σ.Job × Bool) → Prop
  | done {r db} : Performs E (.done r) db r db []
  | commit {p s db r db' sent} (queueUp : Nat → Bool)
      (ran : (p.serve E queueUp db).answer = .ok s)
      (rest : Performs E s ((p.serve E queueUp db).commit E db) r db' sent) :
      Performs E (.tx p) db r db' (p.sent E ⟨fun _ => db, queueUp⟩ 0 {} ++ sent)
  | throw {p e db} (queueUp : Nat → Bool) (ran : (p.serve E queueUp db).answer = .error e) :
      Performs E (.tx p) db (.error e) db (p.sent E ⟨fun _ => db, queueUp⟩ 0 {})

/-- What is left of a script in the midst of a transaction. -/
def Prog.Resumes (E : Engine σ) (queueUp : Nat → Bool) (db : σ.St) (n : Nat) (x : Session σ)
    (p : Prog σ (Script σ α)) (r : Except σ.Err α) (db' : σ.St)
    (sent : List (σ.Job × Bool)) : Prop :=
  match (p.runIn E ⟨fun _ => db, queueUp⟩ n x).answer with
  | .ok s => ∃ later, sent = p.sent E ⟨fun _ => db, queueUp⟩ n x ++ later ∧
    s.Performs E ((p.runIn E ⟨fun _ => db, queueUp⟩ n x).commit E db) r db' later
  | .error e => r = .error e ∧ db' = db ∧ sent = p.sent E ⟨fun _ => db, queueUp⟩ n x

section performs
variable {E : Engine σ} {queueUp : Nat → Bool} {db db' : σ.St} {n : Nat} {x : Session σ}
  {r : Except σ.Err α} {sent : List (σ.Job × Bool)}

theorem Script.performs_done {r' : Except σ.Err α} :
    (Script.done r').Performs E db r db' sent ↔ r = r' ∧ db' = db ∧ sent = [] := by
  constructor
  · intro performed
    cases performed
    exact ⟨rfl, rfl, rfl⟩
  · rintro ⟨rfl, rfl, rfl⟩
    exact .done

theorem Script.performs_tx {p : Prog σ (Script σ α)} :
    (Script.tx p).Performs E db r db' sent ↔
      ∃ queueUp, p.Resumes E queueUp db 0 {} r db' sent := by
  constructor
  · intro performed
    cases performed with
    | commit queueUp ran rest =>
      refine ⟨queueUp, ?_⟩
      change (p.runIn E ⟨fun _ => db, queueUp⟩ 0 {}).answer = _ at ran
      rw [Prog.Resumes, ran]
      exact ⟨_, rfl, rest⟩
    | throw queueUp ran =>
      refine ⟨queueUp, ?_⟩
      change (p.runIn E ⟨fun _ => db, queueUp⟩ 0 {}).answer = _ at ran
      rw [Prog.Resumes, ran]
      exact ⟨rfl, rfl, rfl⟩
  · rintro ⟨queueUp, resumes⟩
    cases ran : (p.serve E queueUp db).answer with
    | ok s =>
      have ran' : (p.runIn E ⟨fun _ => db, queueUp⟩ 0 {}).answer = _ := ran
      rw [Prog.Resumes, ran'] at resumes
      obtain ⟨later, rfl, rest⟩ := resumes
      exact .commit queueUp ran rest
    | error e =>
      have ran' : (p.runIn E ⟨fun _ => db, queueUp⟩ 0 {}).answer = _ := ran
      rw [Prog.Resumes, ran'] at resumes
      obtain ⟨rfl, rfl, rfl⟩ := resumes
      exact .throw queueUp ran

namespace Prog

theorem resumes_ret {s : Script σ α} (sound : x.broken = false) :
    (Prog.ret s).Resumes E queueUp db n x r db' sent ↔ s.Performs E (x.view E db) r db' sent := by
  have committed : (⟨.ok s, x, n⟩ : Ending σ (Script σ α)).commit E db = x.view E db := by
    simp [Ending.commit, Ending.written, sound, Session.view]
  rw [← committed]
  constructor
  · rintro ⟨later, rfl, rest⟩
    exact rest
  · exact fun rest => ⟨sent, rfl, rest⟩

theorem resumes_fail {e : σ.Err} : (Prog.fail e : Prog σ (Script σ α)).Resumes E queueUp db n x r
    db' sent ↔ r = .error e ∧ db' = db ∧ sent = [] := Iff.rfl

theorem resumes_sql {s : σ.Stmt} {k : Except σ.Err (σ.Ans s) → Prog σ (Script σ α)} :
    (Prog.sql s k).Resumes E queueUp db n x r db' sent ↔
      (k (x.exec E db s).2).Resumes E queueUp db (n + 1) (x.exec E db s).1 r db' sent := Iff.rfl

/-- A statement that goes through. -/
theorem resumes_ok {s : σ.Stmt} {k : Except σ.Err (σ.Ans s) → Prog σ (Script σ α)}
    {ws : List σ.Write} {a : σ.Ans s} (sound : x.broken = false)
    (ran : E.exec s (x.view E db) = .ok (ws, a)) :
    (Prog.sql s k).Resumes E queueUp db n x r db' sent ↔
      (k (.ok a)).Resumes E queueUp db (n + 1)
        { x with writes := x.writes ++ ws, trace := x.trace ++ [(s, x.view E db)] } r db' sent := by
  rw [resumes_sql, Session.exec_ok sound ran]

/-- A statement that fails. -/
theorem resumes_error {s : σ.Stmt} {k : Except σ.Err (σ.Ans s) → Prog σ (Script σ α)}
    {e : σ.Err} (sound : x.broken = false) (ran : E.exec s (x.view E db) = .error e) :
    (Prog.sql s k).Resumes E queueUp db n x r db' sent ↔
      (k (.error e)).Resumes E queueUp db (n + 1) { x with broken := true } r db' sent := by
  rw [resumes_sql, Session.exec_error sound ran]

theorem resumes_send {j : σ.Job} {k : Except σ.Err Unit → Prog σ (Script σ α)} :
    (Prog.send j k).Resumes E queueUp db n x r db' sent ↔
      ∃ later, sent = (j, queueUp n) :: later ∧
        (k (if queueUp n then .ok () else .error E.queueDown)).Resumes E queueUp db (n + 1) x r db'
          later := by
  unfold Resumes
  rw [runIn_send]
  simp only [Prog.sent]
  cases ((k (if queueUp n then .ok () else .error E.queueDown)).runIn E ⟨fun _ => db, queueUp⟩
    (n + 1) x).answer with
  | ok s =>
    constructor
    · rintro ⟨later, rfl, rest⟩
      exact ⟨_, rfl, later, rfl, rest⟩
    · rintro ⟨_, rfl, later, rfl, rest⟩
      exact ⟨later, rfl, rest⟩
  | error e =>
    constructor
    · rintro ⟨rfl, rfl, rfl⟩
      exact ⟨_, rfl, rfl, rfl, rfl⟩
    · rintro ⟨_, rfl, rfl, rfl, rfl⟩
      exact ⟨rfl, rfl, rfl⟩

end Prog
end performs

end
end Dormitory.Txn
