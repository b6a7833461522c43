import Dormitory.Txn.Alone
import Dormitory.Txn.Rely

/-!
# Requests of several transactions

A `Script` runs transactions one after the other, and what a later one does may
depend on what an earlier one returned. Between two of them the request holds
no lock, and an exception that escapes one of them ends the script.
-/

namespace Dormitory.Txn

inductive Script (σ : Sig) (α : Type) where
  | done (r : Except σ.Err α)
  | tx (p : Prog σ (Script σ α))

section
variable {σ : Sig} {ι α : Type}

/-! ## Interleaved -/

/-- A step of a transaction, or the start of a script's next one. -/
inductive Move (ι : Type) where
  | act (a : Action ι)
  | next (t : ι)
  deriving DecidableEq

/-- What a request that is between two transactions does next. -/
def Tx.script? : Tx σ (Script σ α) → Option (Script σ α)
  | .committed s | .rolledBack (.ok s) => some s
  | _ => none

/-- The answer of a script that is over. -/
def Script.answer? : Script σ α → Option (Except σ.Err α)
  | .done r => some r
  | .tx _ => none

/-- What the caller of a finished request was told. -/
def Tx.answer? : Tx σ (Script σ α) → Option (Except σ.Err α)
  | .committed (.done r) | .rolledBack (.ok (.done r)) => some r
  | .rolledBack (.error e) => some (.error e)
  | _ => none

namespace Config
variable [DecidableEq ι] [Fintype ι] [DecidableEq σ.Lock]

/-- The scripts `s`, about to start on the committed state `db`. -/
def startScripts (db : σ.St) (s : ι → Script σ α) : Config σ ι (Script σ α) where
  db := db
  txs t := .committed (s t)

def move (E : Engine σ) (c : Config σ ι (Script σ α)) : Move ι → Option (Config σ ι (Script σ α))
  | .act a => c.step E a
  | .next t =>
    match (c.txs t).script? with
    | some (.tx p) => some (c.set t (.running p {}))
    | _ => none

def moves (E : Engine σ) (c : Config σ ι (Script σ α)) : List (Move ι) →
    Option (Config σ ι (Script σ α))
  | [] => some c
  | m :: ms => (c.move E m).bind fun c' => c'.moves E ms

end Config

namespace Config

/-- The answers so far. -/
def told (c : Config σ ι (Script σ α)) (t : ι) : Option (Except σ.Err α) := (c.txs t).answer?

theorem told_set [DecidableEq ι] (c : Config σ ι (Script σ α)) (t : ι) (tx : Tx σ (Script σ α)) :
    (c.set t tx).told = Function.update c.told t tx.answer? := by
  funext u
  by_cases same : u = t
  · subst same
    simp [told, set]
  · simp [told, set, Function.update_of_ne same]

theorem answer_committed (s : Script σ α) :
    (Tx.committed s : Tx σ (Script σ α)).answer? = s.answer? := by
  cases s <;> rfl

/-- Between two transactions nothing has been told. -/
theorem answer_script {tx : Tx σ (Script σ α)} {p : Prog σ (Script σ α)}
    (here : tx.script? = some (.tx p)) : tx.answer? = none := by
  cases tx with
  | running q x => cases here
  | crashed => cases here
  | committed s =>
    cases here
    rfl
  | rolledBack r =>
    cases r with
    | error e => cases here
    | ok s =>
      cases here
      rfl

end Config

/-- The terms of scripts: a transaction that commits leaves `Next` of the script
it returns, and one that is lost leaves it as well. -/
def scriptTerms (E : Engine σ) (G : σ.St → List σ.Write → Prop)
    (Next : ι → Script σ α → σ.St → Prop) : Terms σ ι (Script σ α) where
  kind := G
  ends t r x _ db := ∀ s, r = .ok s →
    if x.broken then Next t s db else G db x.writes ∧ Next t s (x.view E db)

/-- Terms that say as much of a transaction's end, and let every step happen. -/
structure Terms.Leaves [DecidableEq ι] (E : Engine σ) (T : Terms σ ι (Script σ α))
    (Next : ι → Script σ α → σ.St → Prop) : Prop where
  ends : ∀ t s x js db, T.ends t (.ok s) x js db →
    if x.broken then Next t s db else T.kind db x.writes ∧ Next t s (x.view E db)
  free : ∀ (c : Config σ ι (Script σ α)) a, c.Permits E T a

theorem scriptTerms_leaves [DecidableEq ι] (E : Engine σ) (G : σ.St → List σ.Write → Prop)
    (Next : ι → Script σ α → σ.St → Prop) : (scriptTerms E G Next).Leaves E Next where
  ends _ s _ _ _ ends := ends s rfl
  free _ _ := ⟨fun _ _ _ => trivial, fun _ _ _ _ _ => trivial⟩

/-- The same, where what is known of a script may be about the jobs so far. -/
structure Terms.Hands [DecidableEq ι] (E : Engine σ) (T : Terms σ ι (Script σ α))
    (Next : ι → Script σ α → List σ.Job → σ.St → Prop) : Prop where
  ends : ∀ t s x js db, T.ends t (.ok s) x js db →
    if x.broken then Next t s js db else T.kind db x.writes ∧ Next t s js (x.view E db)
  free : ∀ (c : Config σ ι (Script σ α)) a, c.Permits E T a

theorem Terms.Leaves.hands [DecidableEq ι] {E : Engine σ} {T : Terms σ ι (Script σ α)}
    {Next : ι → Script σ α → σ.St → Prop} (leaves : T.Leaves E Next) :
    T.Hands E fun t s _ db => Next t s db :=
  ⟨leaves.ends, leaves.free⟩

namespace Paid
variable [DecidableEq ι] {E : Engine σ} {T : Terms σ ι (Script σ α)}
  {Next : ι → Script σ α → List σ.Job → σ.St → Prop} {first : σ.St}
  {c : Config σ ι (Script σ α)} (hands : T.Hands E Next)
  (stable : ∀ t s js db ws, Next t s js db → T.kind db ws → Next t s js (ws.foldl E.apply db))
include hands stable

/-- What is known of a request between two transactions. -/
theorem knows (h : Paid E T first c) {t : ι} {s : Script σ α}
    (here : (c.txs t).script? = some s) : Next t s (c.jobsOf t) c.db := by
  have keep : ∀ {js : List σ.Job} {db db' : σ.St}, Interferes E T.kind [] db db' →
      Next t s js db → Next t s js db' :=
    fun others => others.preserves fun db ws known kind _ => stable t s _ db ws known kind
  have pays := h.pays t
  cases tx : c.txs t with
  | running p x => simp [tx, Tx.script?] at here
  | crashed => simp [tx, Tx.script?] at here
  | committed s' =>
    obtain rfl : s' = s := by simpa [tx, Tx.script?] using here
    rw [tx] at pays
    obtain ⟨x, db, ends, sound, since⟩ := pays
    have ends := hands.ends t s' x _ db ends
    rw [sound] at ends
    exact keep since ends.2
  | rolledBack r =>
    rw [tx] at pays here
    cases r with
    | error e => cases here
    | ok s' =>
      obtain rfl : s' = s := by simpa [Tx.script?] using here
      obtain ⟨x, db, ends, lost, since⟩ := pays
      have ends := hands.ends t s' x _ db ends
      rw [lost rfl] at ends
      exact keep since ends

/-- The start of a script's next transaction. -/
theorem next (h : Paid E T first c)
    (pays : ∀ t p js db, Next t (.tx p) js db → p.Pays E T t {} js db) {t : ι}
    {p : Prog σ (Script σ α)} (here : (c.txs t).script? = some (.tx p)) :
    Paid E T first (c.set t (.running p {})) := by
  refine h.stay t (.running p {}) rfl rfl rfl rfl ?_ ?_
  · intro u _ l hl
    simp [Tx.held, Session.held] at hl
  · exact ⟨Session.nested_nil, pays t p _ c.db (h.knows hands stable here)⟩

variable [Fintype ι] [DecidableEq σ.Lock]

/-- One move of a run of scripts. -/
theorem move_scripts (pays : ∀ t p js db, Next t (.tx p) js db → p.Pays E T t {} js db)
    (h : Paid E T first c) {m : Move ι} {c' : Config σ ι (Script σ α)}
    (moved : c.move E m = some c') : Paid E T first c' := by
  have guarantee : ∀ (t : ι) (a : Script σ α) (x : Session σ) (js : List σ.Job) (db : σ.St),
      T.ends t (.ok a) x js db → x.broken = false → T.kind db x.writes := by
    intro t a x js db ends sound
    have ends := hands.ends t a x js db ends
    rw [sound] at ends
    exact ends.1
  cases m with
  | act a => exact h.step guarantee (hands.free c a) moved
  | next t =>
    cases here : (c.txs t).script? with
    | none => simp [Config.move, here] at moved
    | some s =>
      cases s with
      | done r => simp [Config.move, here] at moved
      | tx p =>
        obtain rfl : c.set t (.running p {}) = c' := by simpa [Config.move, here] using moved
        exact h.next hands stable pays here

omit hands stable [DecidableEq ι] [Fintype ι] [DecidableEq σ.Lock] in
theorem start_scripts [DecidableEq ι] {s : ι → Script σ α} {db : σ.St}
    (begun : ∀ t, T.ends t (.ok (s t)) {} [] db) :
    Paid E T db (Config.startScripts db s) := by
  refine ⟨fun t u _ l hl => (by cases hl), fun t => ⟨{}, db, begun t, rfl, .refl⟩,
    fun d hd => ?_, .singleton _⟩
  cases List.mem_singleton.1 hd
  exact .refl

/-- **Rely-guarantee rule for scripts.** If what is known of a script stays
known under commits of the kind, and each of its transactions commits nothing
else and keeps it known, then so does every interleaved run. -/
theorem run_scripts (pays : ∀ t p js db, Next t (.tx p) js db → p.Pays E T t {} js db)
    {s : ι → Script σ α} {db : σ.St} (begun : ∀ t, T.ends t (.ok (s t)) {} [] db)
    (ms : List (Move ι)) {c : Config σ ι (Script σ α)}
    (run : (Config.startScripts db s).moves E ms = some c) : Paid E T db c := by
  suffices keep : ∀ (ms : List (Move ι)) (d : Config σ ι (Script σ α)),
      Paid E T db d → d.moves E ms = some c → Paid E T db c from keep ms _ (start_scripts begun) run
  intro ms
  induction ms with
  | nil =>
    intro d paid run
    cases run
    exact paid
  | cons m ms ih =>
    intro d paid run
    obtain ⟨d', moved, run⟩ := Option.bind_eq_some_iff.1 run
    exact ih d' (paid.move_scripts hands stable pays moved) run

/-- **Rule for what the callers were told.** A property of the committed state and
of the answers so far holds throughout a run if it does so at the start and each
end of a transaction keeps it, committed or lost. -/
theorem run_told (pays : ∀ t p js db, Next t (.tx p) js db → p.Pays E T t {} js db)
    {s : ι → Script σ α} {db : σ.St} (begun : ∀ t, T.ends t (.ok (s t)) {} [] db)
    {J : σ.St → (ι → Option (Except σ.Err α)) → Prop} (start : J db fun t => (s t).answer?)
    (commit : ∀ t s x js db told, T.ends t (.ok s) x js db → x.broken = false → told t = none →
      J db told → J (x.view E db) (Function.update told t s.answer?))
    (lost : ∀ t r x js db told, T.ends t r x js db → (r.isOk → x.broken = true) →
      told t = none → J db told →
      J db (Function.update told t (Tx.rolledBack r : Tx σ (Script σ α)).answer?))
    (ms : List (Move ι)) {c : Config σ ι (Script σ α)}
    (run : (Config.startScripts db s).moves E ms = some c) : J c.db c.told := by
  suffices keep : ∀ (ms : List (Move ι)) (d : Config σ ι (Script σ α)), Paid E T db d →
      J d.db d.told → d.moves E ms = some c → J c.db c.told by
    refine keep ms _ (start_scripts begun) ?_ run
    have same : (Config.startScripts db s).told = fun t => (s t).answer? :=
      funext fun t => Config.answer_committed (s t)
    rw [same]
    exact start
  intro ms
  induction ms with
  | nil =>
    intro d _ holds run
    cases run
    exact holds
  | cons m ms ih =>
    intro d paid holds run
    obtain ⟨d', moved, run⟩ := Option.bind_eq_some_iff.1 run
    refine ih d' (paid.move_scripts hands stable pays moved) ?_ run
    -- A request that is still on its way has been told nothing.
    have quiet : ∀ {t tx}, (d.txs t).answer? = none → tx.answer? = none →
        J d.db (d.set t tx).told := by
      intro t tx before after
      rw [Config.told_set, after, ← before]
      change J d.db (Function.update d.told t (d.told t))
      rwa [Function.update_eq_self]
    cases m with
    | next t =>
      cases here : (d.txs t).script? with
      | none => simp [Config.move, here] at moved
      | some s' =>
        cases s' with
        | done r => simp [Config.move, here] at moved
        | tx p =>
          obtain rfl : d.set t (.running p {}) = d' := by simpa [Config.move, here] using moved
          exact quiet (Config.answer_script here) rfl
    | act a =>
      cases Config.step_moves moved with
      | @commit t a x here sound =>
        have told := commit t a x _ d.db d.told ((paid.running here).2 d.db .refl).2 sound
          (by rw [Config.told, here]; rfl) holds
        change J (x.view E d.db) (d.set t (.committed a)).told
        rw [Config.told_set, Config.answer_committed]
        exact told
      | @lose t a x here broken =>
        rw [Config.told_set]
        exact lost t (.ok a) x _ d.db d.told ((paid.running here).2 d.db .refl).2 (fun _ => broken)
          (by rw [Config.told, here]; rfl) holds
      | @throw t e x here =>
        rw [Config.told_set]
        exact lost t (.error e) x _ d.db d.told ((paid.running here).2 d.db .refl).2
          (fun ok => by cases ok) (by rw [Config.told, here]; rfl) holds
      | @sql t s k x here | @control t m k x here | @send t j k x here
      | @queueFails t j k x here | @crash t p x here => exact quiet (by rw [here]; rfl) rfl
      | take => exact holds

end Paid

/-! ## One at a time -/

/-- The script, served with nothing else going on, ends with `r` in `db'`. -/
inductive Script.Serves (E : Engine σ) (queueUp : Nat → Bool) :
    Script σ α → σ.St → Except σ.Err α → σ.St → Prop
  | done {r db} : Serves E queueUp (.done r) db r db
  | commit {p s db r db'} (ran : (p.serve E queueUp db).answer = .ok s)
      (rest : Serves E queueUp s ((p.serve E queueUp db).commit E db) r db') :
      Serves E queueUp (.tx p) db r db'
  | throw {p e db} (ran : (p.serve E queueUp db).answer = .error e) :
      Serves E queueUp (.tx p) db (.error e) db

/-- A served script keeps what each statement keeps. -/
theorem Script.Serves.keeps {E : Engine σ} {queueUp : Nat → Bool} {s : Script σ α}
    {db d : σ.St} {r : Except σ.Err α} {I : σ.St → Prop} (h : s.Serves E queueUp db r d)
    (keep : ∀ s st ws a, I st → E.exec s st = .ok (ws, a) → I (ws.foldl E.apply st))
    (start : I db) : I d := by
  induction h with
  | done => exact start
  | commit _ _ ih => exact ih (Prog.serve_keeps queueUp _ keep start)
  | throw => exact start

/-- The answer of one transaction, the script's last. -/
theorem Script.Serves.returns {E : Engine σ} {queueUp : Nat → Bool}
    {p : Prog σ (Script σ α)} {db d : σ.St} {r : Except σ.Err α} {P : Except σ.Err α → Prop}
    (h : (Script.tx p).Serves E queueUp db r d)
    (returns : p.Returns E fun s => ∃ r, s = .done r ∧ P r) (error : ∀ e, P (.error e)) :
    P r := by
  cases h with
  | commit ran rest =>
    obtain ⟨r', rfl, holds⟩ := returns _ _ _ _ ran
    cases rest
    exact holds
  | throw => exact error _

/-- In the midst of a transaction that is served alone, the rest of the script
can only end as `Q` says. -/
def Prog.Leads (E : Engine σ) (queueUp : Nat → Bool) (Q : Except σ.Err α → σ.St → Prop)
    (db : σ.St) (n : Nat) (x : Session σ) (p : Prog σ (Script σ α)) : Prop :=
  match (p.runIn E ⟨fun _ => db, queueUp⟩ n x).answer with
  | .ok s => ∀ r d,
    s.Serves E queueUp ((p.runIn E ⟨fun _ => db, queueUp⟩ n x).commit E db) r d → Q r d
  | .error e => Q (.error e) db

section leads
variable {E : Engine σ} {queueUp : Nat → Bool} {Q : Except σ.Err α → σ.St → Prop} {db : σ.St}
  {n : Nat} {x : Session σ}

theorem Script.Serves.leads {p : Prog σ (Script σ α)} {r : Except σ.Err α} {d : σ.St}
    (h : (Script.tx p).Serves E queueUp db r d) (leads : p.Leads E queueUp Q db 0 {}) : Q r d := by
  cases h with
  | commit ran rest =>
    have ran : (p.runIn E ⟨fun _ => db, queueUp⟩ 0 {}).answer = _ := ran
    rw [Prog.Leads, ran] at leads
    exact leads _ _ rest
  | throw ran =>
    have ran : (p.runIn E ⟨fun _ => db, queueUp⟩ 0 {}).answer = _ := ran
    rw [Prog.Leads, ran] at leads
    exact leads

theorem Prog.leads_fail {e : σ.Err} (ends : Q (.error e) db) :
    (Prog.fail e).Leads E queueUp Q db n x := ends

theorem Prog.leads_ret {s : Script σ α} (sound : x.broken = false)
    (rest : ∀ r d, s.Serves E queueUp (x.view E db) r d → Q r d) :
    (Prog.ret s).Leads E queueUp Q db n x := by
  intro r d served
  refine rest r d ?_
  simpa [Ending.commit, Ending.written, sound, Session.view] using served

theorem Prog.leads_done {r : Except σ.Err α} (sound : x.broken = false)
    (ends : Q r (x.view E db)) : (Prog.ret (.done r)).Leads E queueUp Q db n x := by
  refine leads_ret sound fun r' d served => ?_
  cases served
  exact ends

/-- A statement and what its failure leads to. -/
theorem Prog.leads_sql {s : σ.Stmt} {k : Except σ.Err (σ.Ans s) → Prog σ (Script σ α)}
    (sound : x.broken = false)
    (ok : ∀ ws a, E.exec s (x.view E db) = .ok (ws, a) →
      (k (.ok a)).Leads E queueUp Q db (n + 1)
        { x with writes := x.writes ++ ws, trace := x.trace ++ [(s, x.view E db)] })
    (error : ∀ e, E.exec s (x.view E db) = .error e →
      (k (.error e)).Leads E queueUp Q db (n + 1) { x with broken := true }) :
    (Prog.sql s k).Leads E queueUp Q db n x := by
  unfold Leads
  rw [runIn_sql]
  cases ran : E.exec s (x.view E db) with
  | ok p =>
    simp only [Session.exec_ok sound ran]
    exact ok p.1 p.2 ran
  | error e =>
    simp only [Session.exec_error sound ran]
    exact error e ran

/-- An awaited statement whose failure nothing catches. -/
theorem Prog.leads_query {s : σ.Stmt} {f : σ.Ans s → Prog σ (Script σ α)}
    (sound : x.broken = false)
    (ok : ∀ ws a, E.exec s (x.view E db) = .ok (ws, a) →
      (f a).Leads E queueUp Q db (n + 1)
        { x with writes := x.writes ++ ws, trace := x.trace ++ [(s, x.view E db)] })
    (error : ∀ e, E.exec s (x.view E db) = .error e → Q (.error e) db) :
    (Prog.query s >>= f).Leads E queueUp Q db n x :=
  leads_sql sound ok fun e ran => leads_fail (error e ran)

/-- A statement after one that failed. -/
theorem Prog.leads_broken {s : σ.Stmt} {f : σ.Ans s → Prog σ (Script σ α)}
    (broken : x.broken = true) (ends : Q (.error E.aborted) db) :
    (Prog.query s >>= f).Leads E queueUp Q db n x := by
  change (Prog.sql s fun r => Prog.uncaught r >>= f).Leads E queueUp Q db n x
  unfold Leads
  rw [runIn_sql]
  simp only [Session.exec_broken broken]
  exact ends

end leads

/-- Runs a script of at most `n` transactions. -/
def Script.serve (E : Engine σ) (queueUp : Nat → Bool) :
    Nat → Script σ α → σ.St → Option (Except σ.Err α × σ.St)
  | _, .done r, db => some (r, db)
  | 0, .tx _, _ => none
  | n + 1, .tx p, db =>
    let e := p.serve E queueUp db
    match e.answer with
    | .ok s => s.serve E queueUp n (e.commit E db)
    | .error err => some (.error err, db)

theorem Script.serve_serves {E : Engine σ} {queueUp : Nat → Bool} {n : Nat} {s : Script σ α}
    {db db' : σ.St} {r : Except σ.Err α} (h : s.serve E queueUp n db = some (r, db')) :
    s.Serves E queueUp db r db' := by
  induction n generalizing s db with
  | zero =>
    cases s with
    | done r' =>
      cases h
      exact .done
    | tx p => cases h
  | succ n ih =>
    cases s with
    | done r' =>
      cases h
      exact .done
    | tx p =>
      simp only [Script.serve] at h
      cases ran : (p.serve E queueUp db).answer with
      | ok s' =>
        rw [ran] at h
        exact .commit ran (ih h)
      | error e =>
        rw [ran] at h
        cases h
        exact .throw ran

/-- The script ends after `n` transactions at most. -/
def Script.EndsIn (E : Engine σ) (n : Nat) (s : Script σ α) : Prop :=
  ∀ queueUp db, ∃ r d, s.serve E queueUp n db = some (r, d)

namespace Script.EndsIn
variable {E : Engine σ} {n : Nat}

theorem done (r : Except σ.Err α) : (Script.done r : Script σ α).EndsIn E n := by
  intro queueUp db
  cases n with
  | zero => exact ⟨r, db, rfl⟩
  | succ n => exact ⟨r, db, rfl⟩

theorem tx {p : Prog σ (Script σ α)} (rest : p.Returns E (Script.EndsIn E n)) :
    (Script.tx p).EndsIn E (n + 1) := by
  intro queueUp db
  cases ran : (p.serve E queueUp db).answer with
  | error e => exact ⟨.error e, db, by simp only [Script.serve, ran]⟩
  | ok s =>
    obtain ⟨r, d, ends⟩ := rest _ _ _ s ran queueUp ((p.serve E queueUp db).commit E db)
    exact ⟨r, d, by simp only [Script.serve, ran, ends]⟩

end Script.EndsIn

end
end Dormitory.Txn
