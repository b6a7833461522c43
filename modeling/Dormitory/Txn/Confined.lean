import Dormitory.Txn.Script

/-!
# Programs confined to a part of the state

A program whose statements all lie in one part of the database answers as if the
rest of it did not exist, and leaves the rest as it is. The part is a function
that cuts it out; which statements lie in it may depend on what the program has
read.
-/

namespace Dormitory.Txn
variable {σ : Sig} {α β : Type}

/-- The statements that the program runs, whatever the states that keep `I` answer
them, are `ok`, and the value it returns meets `R`. -/
def Prog.Asks (E : Engine σ) (I : σ.St → Prop) (ok : σ.Stmt → Prop) (R : α → Prop) :
    Prog σ α → Prop
  | ret a => R a
  | fail _ => True
  | sql s k => ok s ∧
      (∀ st ws a, I st → E.exec s st = .ok (ws, a) → (k (.ok a)).Asks E I ok R) ∧
      ∀ e, (k (.error e)).Asks E I ok R
  | ctl _ k => ∀ r, (k r).Asks E I ok R
  | send _ k => ∀ r, (k r).Asks E I ok R

namespace Prog.Asks
variable {E : Engine σ} {I : σ.St → Prop} {ok : σ.Stmt → Prop} {R : α → Prop} {Q : β → Prop}

theorem bind {p : Prog σ α} {f : α → Prog σ β} (first : p.Asks E I ok R)
    (rest : ∀ a, R a → (f a).Asks E I ok Q) : (p >>= f).Asks E I ok Q := by
  induction p with
  | ret a => exact rest a first
  | fail e => trivial
  | sql s k ih =>
    obtain ⟨asks, answered, failed⟩ := first
    exact ⟨asks, fun st ws a holds ran => ih _ (answered st ws a holds ran),
      fun e => ih _ (failed e)⟩
  | ctl c k ih => exact fun r => ih r (first r)
  | send j k ih => exact fun r => ih r (first r)

theorem attempt {p : Prog σ α} {h : σ.Err → Prog σ α} (body : p.Asks E I ok R)
    (handler : ∀ e, (h e).Asks E I ok R) : (p.attempt h).Asks E I ok R := by
  induction p with
  | ret a => exact body
  | fail e => exact handler e
  | sql s k ih =>
    obtain ⟨asks, answered, failed⟩ := body
    exact ⟨asks, fun st ws a holds ran => ih _ (answered st ws a holds ran),
      fun e => ih _ (failed e)⟩
  | ctl c k ih => exact fun r => ih r (body r)
  | send j k ih => exact fun r => ih r (body r)

theorem imp {R' : α → Prop} {p : Prog σ α} (h : p.Asks E I ok R) (weaker : ∀ a, R a → R' a) :
    p.Asks E I ok R' := by
  rw [← Prog.bind_pure p]
  exact h.bind weaker

/-- Fewer states are met, and more statements are allowed. -/
theorem weaken {J : σ.St → Prop} {ok' : σ.Stmt → Prop} {p : Prog σ α} (h : p.Asks E I ok R)
    (sub : ∀ st, J st → I st) (wider : ∀ s, ok s → ok' s) : p.Asks E J ok' R := by
  induction p with
  | ret a => exact h
  | fail e => trivial
  | sql s k ih =>
    obtain ⟨asks, answered, failed⟩ := h
    exact ⟨wider s asks, fun st ws a holds ran => ih _ (answered st ws a (sub st holds) ran),
      fun e => ih _ (failed e)⟩
  | ctl c k ih => exact fun r => ih r (h r)
  | send j k ih => exact fun r => ih r (h r)

/-- An awaited statement, and what is known of its answer. -/
theorem query {s : σ.Stmt} {R : σ.Ans s → Prop} (asks : ok s)
    (answers : ∀ st ws a, I st → E.exec s st = .ok (ws, a) → R a) :
    (Prog.query s).Asks E I ok R :=
  ⟨asks, answers, fun _ => trivial⟩

/-- An awaited statement whose answer does not matter. -/
theorem query' {s : σ.Stmt} (asks : ok s) : (Prog.query s).Asks E I ok fun _ => True :=
  query asks fun _ _ _ _ _ => trivial

theorem control (c : Ctl) : (Prog.control c : Prog σ Unit).Asks E I ok fun _ => True := by
  intro r
  cases r <;> trivial

theorem throw (e : σ.Err) : (Prog.throw e : Prog σ α).Asks E I ok R := trivial

end Prog.Asks

/-! ## A part of the state -/

/-- What the statements `ok` write is `own`, and such writes keep `I`. -/
structure Confined (E : Engine σ) (I : σ.St → Prop) (ok : σ.Stmt → Prop) (own : σ.Write → Prop) :
    Prop where
  writes : ∀ {s st ws a}, ok s → I st → E.exec s st = .ok (ws, a) → ∀ w ∈ ws, own w
  keeps : ∀ {st w}, I st → own w → I (E.apply st w)

/-- The part that `part` cuts out of the state decides what the statements `ok`
answer, and `own` writes go into it. -/
structure Inside (E : Engine σ) (I : σ.St → Prop) (ok : σ.Stmt → Prop) (own : σ.Write → Prop)
    (part : σ.St → σ.St) : Prop where
  reads : ∀ {s st}, ok s → I st → E.exec s (part st) = E.exec s st
  stores : ∀ {st w}, I st → own w → part (E.apply st w) = E.apply (part st) w

/-- `own` writes leave the part alone. -/
def Outside (E : Engine σ) (I : σ.St → Prop) (own : σ.Write → Prop) (part : σ.St → σ.St) : Prop :=
  ∀ st w, I st → own w → part (E.apply st w) = part st

/-- All that the session has written or can roll back to is `own`. -/
structure Session.Owned (own : σ.Write → Prop) (x : Session σ) : Prop where
  writes : ∀ w ∈ x.writes, own w
  saves : ∀ p ∈ x.saves, ∀ w ∈ p.2, own w

/-- The session with what it saw cut down to the part. -/
def Session.within (part : σ.St → σ.St) (x : Session σ) : Session σ :=
  { x with trace := x.trace.map fun p => (p.1, part p.2) }

section
variable {E : Engine σ} {I : σ.St → Prop} {ok : σ.Stmt → Prop} {own : σ.Write → Prop}
  {part : σ.St → σ.St} {db : σ.St} {x : Session σ}

theorem Session.owned_nil : ({} : Session σ).Owned own :=
  ⟨fun _ hw => (nomatch hw), fun _ hp => (nomatch hp)⟩

theorem Confined.keeps_all (confined : Confined E I ok own) {ws : List σ.Write} {st : σ.St}
    (holds : I st) (all : ∀ w ∈ ws, own w) : I (ws.foldl E.apply st) := by
  induction ws generalizing st with
  | nil => exact holds
  | cons w ws ih =>
    obtain ⟨first, rest⟩ := List.forall_mem_cons.mp all
    exact ih (confined.keeps holds first) rest

theorem Inside.stores_all (inside : Inside E I ok own part) (confined : Confined E I ok own)
    {ws : List σ.Write} {st : σ.St} (holds : I st) (all : ∀ w ∈ ws, own w) :
    part (ws.foldl E.apply st) = ws.foldl E.apply (part st) := by
  induction ws generalizing st with
  | nil => rfl
  | cons w ws ih =>
    obtain ⟨first, rest⟩ := List.forall_mem_cons.mp all
    rw [List.foldl_cons, List.foldl_cons, ih (confined.keeps holds first) rest,
      inside.stores holds first]

theorem Outside.stores_all (outside : Outside E I own part) (confined : Confined E I ok own)
    {ws : List σ.Write} {st : σ.St} (holds : I st) (all : ∀ w ∈ ws, own w) :
    part (ws.foldl E.apply st) = part st := by
  induction ws generalizing st with
  | nil => rfl
  | cons w ws ih =>
    obtain ⟨first, rest⟩ := List.forall_mem_cons.mp all
    rw [List.foldl_cons, ih (confined.keeps holds first) rest, outside st w holds first]

namespace Session.Owned

theorem view (owned : x.Owned own) (confined : Confined E I ok own) (holds : I db) :
    I (x.view E db) := confined.keeps_all holds owned.writes

theorem exec (owned : x.Owned own) (confined : Confined E I ok own) (holds : I db) {s : σ.Stmt}
    (asks : ok s) : (x.exec E db s).1.Owned own := by
  cases broken : x.broken with
  | true =>
    rw [Session.exec_broken broken]
    exact owned
  | false =>
    cases ran : E.exec s (x.view E db) with
    | error e =>
      rw [Session.exec_error broken ran]
      exact ⟨owned.writes, owned.saves⟩
    | ok r =>
      rw [Session.exec_ok broken ran]
      refine ⟨fun w hw => ?_, owned.saves⟩
      rcases List.mem_append.mp hw with old | new
      · exact owned.writes w old
      · exact confined.writes asks (owned.view confined holds) ran w new

theorem control (owned : x.Owned own) (c : Ctl) : (x.control E c).1.Owned own := by
  have kept : ∀ {drop : String × List σ.Write → Bool} {p}, p ∈ x.saves.dropWhile drop →
      p ∈ x.saves := fun hp => (List.dropWhile_sublist _).subset hp
  cases c with
  | savepoint name =>
    simp only [Session.control]
    split
    · exact owned
    · refine ⟨owned.writes, fun p hp => ?_⟩
      rcases List.mem_cons.mp hp with rfl | old
      · exact owned.writes
      · exact owned.saves p old
  | release name =>
    simp only [Session.control]
    split
    · exact owned
    split
    · exact ⟨owned.writes, owned.saves⟩
    · rename_i found
      exact ⟨owned.writes, fun p hp =>
        owned.saves p (kept (by rw [found]; exact List.mem_cons_of_mem _ hp))⟩
  | rollbackTo name =>
    simp only [Session.control]
    split
    · exact ⟨owned.writes, owned.saves⟩
    · rename_i top rest found
      have saved : ∀ p ∈ top :: rest, ∀ w ∈ p.2, own w :=
        fun p hp => owned.saves p (kept (by rw [found]; exact hp))
      exact ⟨saved top List.mem_cons_self, saved⟩

variable (owned : x.Owned own) (confined : Confined E I ok own) (inside : Inside E I ok own part)
  (holds : I db)

include owned confined inside holds

/-- The session sees the part of what it would see in the whole. -/
theorem view_within : (x.within part).view E (part db) = part (x.view E db) :=
  (inside.stores_all confined holds owned.writes).symm

/-- A statement goes the same way in the part. -/
theorem exec_within {s : σ.Stmt} (asks : ok s) :
    (x.within part).exec E (part db) s =
      ((x.exec E db s).1.within part, (x.exec E db s).2) := by
  have seen := owned.view_within confined inside holds
  cases broken : x.broken with
  | true =>
    rw [Session.exec_broken broken]
    exact Session.exec_broken (x := x.within part) broken
  | false =>
    have same : E.exec s ((x.within part).view E (part db)) = E.exec s (x.view E db) := by
      rw [seen]
      exact inside.reads asks (owned.view confined holds)
    cases ran : E.exec s (x.view E db) with
    | error e =>
      rw [Session.exec_error broken ran]
      exact Session.exec_error (x := x.within part) broken (same.trans ran)
    | ok r =>
      rw [Session.exec_ok broken ran,
        Session.exec_ok (x := x.within part) broken (same.trans ran), seen]
      simp only [Session.within, List.map_append, List.map_cons, List.map_nil]

omit owned confined inside holds in
variable (part) in
theorem control_within (x : Session σ) (c : Ctl) :
    (x.within part).control E c = ((x.control E c).1.within part, (x.control E c).2) := by
  cases c with
  | savepoint name => cases broken : x.broken <;> simp [Session.control, Session.within, broken]
  | release name =>
    cases broken : x.broken with
    | true => simp [Session.control, Session.within, broken]
    | false =>
      cases found : x.saves.dropWhile (fun p => p.1 ≠ name) <;>
        simp only [Session.control, Session.within, broken, found, Bool.false_eq_true, if_false]
  | rollbackTo name =>
    cases found : x.saves.dropWhile (fun p => p.1 ≠ name) <;>
      simp only [Session.control, Session.within, found]

end Session.Owned

/-! ## A call alone -/

namespace Prog
variable {R : α → Prop} (confined : Confined E I ok own) (holds : I db) (queueUp : Nat → Bool)
include confined holds

theorem runIn_owned {p : Prog σ α} (asks : p.Asks E I ok R) (n : Nat) (owned : x.Owned own) :
    (p.runIn E ⟨fun _ => db, queueUp⟩ n x).session.Owned own ∧
      ∀ a, (p.runIn E ⟨fun _ => db, queueUp⟩ n x).answer = .ok a → R a := by
  induction p generalizing n x with
  | ret a =>
    refine ⟨owned, fun a' answer => ?_⟩
    cases answer
    exact asks
  | fail e => exact ⟨owned, fun a answer => nomatch answer⟩
  | sql s k ih =>
    obtain ⟨asked, answered, failed⟩ := asks
    have next : (x.exec E db s).1.Owned own := owned.exec confined holds asked
    refine ih _ ?_ _ next
    cases broken : x.broken with
    | true =>
      rw [Session.exec_broken broken]
      exact failed _
    | false =>
      cases ran : E.exec s (x.view E db) with
      | error e =>
        rw [Session.exec_error broken ran]
        exact failed e
      | ok r =>
        rw [Session.exec_ok broken ran]
        exact answered _ r.1 r.2 (owned.view confined holds) ran
  | ctl c k ih => exact ih _ (asks _) _ (owned.control c)
  | send j k ih => exact ih _ (asks _) _ owned

variable {p : Prog σ α} (asks : p.Asks E I ok R)
include asks

/-- All that a confined call commits is `own`. -/
theorem serve_owned : ∀ w ∈ (p.serve E queueUp db).written, own w := by
  intro w hw
  have owned := (runIn_owned confined holds queueUp asks 0 Session.owned_nil).1
  unfold Ending.written at hw
  split at hw
  · split at hw
    · cases hw
    · exact owned.writes w hw
  · cases hw

/-- A confined call keeps what its writes keep. -/
theorem serve_confined : I ((p.serve E queueUp db).commit E db) :=
  confined.keeps_all holds (serve_owned confined holds queueUp asks)

/-- **A call leaves every part alone that its writes leave alone.** -/
theorem serve_outside (outside : Outside E I own part) :
    part ((p.serve E queueUp db).commit E db) = part db :=
  outside.stores_all confined holds (serve_owned confined holds queueUp asks)

variable (inside : Inside E I ok own part)
include inside

theorem runIn_within (n : Nat) (owned : x.Owned own) :
    p.runIn E ⟨fun _ => part db, queueUp⟩ n (x.within part) =
      ⟨(p.runIn E ⟨fun _ => db, queueUp⟩ n x).answer,
        (p.runIn E ⟨fun _ => db, queueUp⟩ n x).session.within part,
        (p.runIn E ⟨fun _ => db, queueUp⟩ n x).clock⟩ := by
  induction p generalizing n x with
  | ret a => rfl
  | fail e => rfl
  | sql s k ih =>
    obtain ⟨asked, answered, failed⟩ := asks
    rw [runIn_sql, runIn_sql]
    dsimp only
    rw [owned.exec_within confined inside holds asked]
    have next : (x.exec E db s).1.Owned own := owned.exec confined holds asked
    refine ih _ ?_ _ next
    cases broken : x.broken with
    | true =>
      rw [Session.exec_broken broken]
      exact failed _
    | false =>
      cases ran : E.exec s (x.view E db) with
      | error e =>
        rw [Session.exec_error broken ran]
        exact failed e
      | ok r =>
        rw [Session.exec_ok broken ran]
        exact answered _ r.1 r.2 (owned.view confined holds) ran
  | ctl c k ih =>
    have same := Session.Owned.control_within (E := E) part x c
    change (k _).runIn E _ n _ = _
    rw [same]
    exact ih _ (asks _) _ (owned.control c)
  | send j k ih => exact ih _ (asks _) _ owned

/-- **A confined call does in its part what it does in the whole**: it answers the
same, and what it leaves is the part of what it leaves in the whole. -/
theorem serve_within :
    (p.serve E queueUp (part db)).answer = (p.serve E queueUp db).answer ∧
      (p.serve E queueUp (part db)).commit E (part db) =
        part ((p.serve E queueUp db).commit E db) := by
  have same : p.serve E queueUp (part db) = ⟨(p.serve E queueUp db).answer,
      (p.serve E queueUp db).session.within part, (p.serve E queueUp db).clock⟩ :=
    runIn_within confined holds queueUp asks inside 0 Session.owned_nil
  refine ⟨by rw [same], ?_⟩
  have stored := inside.stores_all confined holds (serve_owned confined holds queueUp asks)
  rw [same]
  exact stored.symm

end Prog

/-! ## Parts of a family -/

/-- In the state `st`, a call stays in its part `c` of a family of parts. -/
structure Local {St κ ρ : Type} (I : St → Prop) (part : κ → St → St) (c : κ) (answer : St → ρ)
    (commit : St → St) (st : St) : Prop where
  answer : answer (part c st) = answer st
  inside : commit (part c st) = part c (commit st)
  keeps : I (commit st)
  outside : ∀ d, c ≠ d → part d (commit st) = part d st

theorem Prog.serve_local {κ ρ : Type} {part : κ → σ.St → σ.St} {c : κ} {R : α → Prop}
    {p : Prog σ α} (confined : Confined E I ok own) (inside : Inside E I ok own (part c))
    (outside : ∀ d, c ≠ d → Outside E I own (part d)) (holds : I db) (queueUp : Nat → Bool)
    (asks : p.Asks E I ok R) (make : Except σ.Err α → ρ) :
    Local I part c (fun st => make (p.serve E queueUp st).answer)
      (fun st => (p.serve E queueUp st).commit E st) db := by
  obtain ⟨answer, left⟩ := serve_within confined holds queueUp asks inside
  exact ⟨congrArg make answer, left, serve_confined confined holds queueUp asks,
    fun d apart => serve_outside confined holds queueUp asks (outside d apart)⟩

/-! ## What the statements keep -/

section keeps
variable {R : α → Prop} (queueUp : Nat → Bool)
  (keep : ∀ s st ws a, ok s → I st → E.exec s st = .ok (ws, a) → I (ws.foldl E.apply st))
include keep

theorem Prog.Asks.runIn_holds {p : Prog σ α} (asks : p.Asks E I ok R) (n : Nat)
    (h : x.Holds E db I) :
    (p.runIn E ⟨fun _ => db, queueUp⟩ n x).session.Holds E db I ∧
      ∀ a, (p.runIn E ⟨fun _ => db, queueUp⟩ n x).answer = .ok a → R a := by
  induction p generalizing n x with
  | ret a =>
    refine ⟨h, fun a' answer => ?_⟩
    cases answer
    exact asks
  | fail e => exact ⟨h, fun a answer => nomatch answer⟩
  | sql s k ih =>
    obtain ⟨asked, answered, failed⟩ := asks
    have next : (x.exec E db s).1.Holds E db I := h.exec fun st ws a => keep s st ws a asked
    refine ih _ ?_ _ next
    cases broken : x.broken with
    | true =>
      rw [Session.exec_broken broken]
      exact failed _
    | false =>
      cases ran : E.exec s (x.view E db) with
      | error e =>
        rw [Session.exec_error broken ran]
        exact failed e
      | ok r =>
        rw [Session.exec_ok broken ran]
        exact answered _ r.1 r.2 h.view ran
  | ctl c k ih => exact ih _ (asks _) _ (h.control c)
  | send j k ih => exact ih _ (asks _) _ h

/-- **A call keeps what each of its statements keeps.** -/
theorem Prog.Asks.serve_keeps {p : Prog σ α} (asks : p.Asks E I ok R) (start : I db) :
    I ((p.serve E queueUp db).commit E db) := by
  have ended := (asks.runIn_holds queueUp keep 0 (x := {}) ⟨start, List.forall_mem_nil _⟩).1
  unfold Ending.commit Ending.written
  split
  · split
    · exact start
    · exact ended.view
  · exact start

end keeps

/-! ## A script alone -/

namespace Script

/-- The first `n` transactions of the script are confined. -/
def Asks (E : Engine σ) (I : σ.St → Prop) (ok : σ.Stmt → Prop) : Nat → Script σ α → Prop
  | _, .done _ => True
  | 0, .tx _ => True
  | n + 1, .tx p => p.Asks E I ok (Asks E I ok n)

theorem Asks.done {n : Nat} (r : Except σ.Err α) : (Script.done r).Asks E I ok n := by
  cases n <;> trivial

variable (confined : Confined E I ok own) (queueUp : Nat → Bool) {s : Script σ α} {n : Nat}
  {r : Except σ.Err α} {db' : σ.St}
include confined

/-- What a confined script's last transaction leaves, and what it leaves alone. -/
theorem serve_confined (asks : s.Asks E I ok n) (holds : I db)
    (served : s.serve E queueUp n db = some (r, db')) :
    I db' ∧ ∀ part, Outside E I own part → part db' = part db := by
  induction n generalizing s db with
  | zero =>
    cases s with
    | done r' =>
      cases served
      exact ⟨holds, fun _ _ => rfl⟩
    | tx p => cases served
  | succ n ih =>
    cases s with
    | done r' =>
      cases served
      exact ⟨holds, fun _ _ => rfl⟩
    | tx p =>
      simp only [Script.serve] at served
      cases ran : (p.serve E queueUp db).answer with
      | error e =>
        rw [ran] at served
        cases served
        exact ⟨holds, fun _ _ => rfl⟩
      | ok s' =>
        rw [ran] at served
        have next := (Prog.runIn_owned confined holds queueUp asks 0 Session.owned_nil).2 s' ran
        obtain ⟨kept, alone⟩ := ih next (Prog.serve_confined confined holds queueUp asks) served
        exact ⟨kept, fun part outside =>
          (alone part outside).trans (Prog.serve_outside confined holds queueUp asks outside)⟩

omit confined in
/-- **A script keeps what each of its statements keeps.** -/
theorem Asks.serve_keeps
    (keep : ∀ s st ws a, ok s → I st → E.exec s st = .ok (ws, a) → I (ws.foldl E.apply st))
    (asks : s.Asks E I ok n) (start : I db) (served : s.serve E queueUp n db = some (r, db')) :
    I db' := by
  induction n generalizing s db with
  | zero =>
    cases s with
    | done r' =>
      cases served
      exact start
    | tx p => cases served
  | succ n ih =>
    cases s with
    | done r' =>
      cases served
      exact start
    | tx p =>
      have asks : p.Asks E I ok (Script.Asks E I ok n) := asks
      simp only [Script.serve] at served
      cases ran : (p.serve E queueUp db).answer with
      | error e =>
        rw [ran] at served
        cases served
        exact start
      | ok s' =>
        rw [ran] at served
        have next := (asks.runIn_holds queueUp keep 0 (x := {}) ⟨start, List.forall_mem_nil _⟩).2 s'
          ran
        exact ih next (asks.serve_keeps queueUp keep start) served

/-- **A confined script does in its part what it does in the whole.** -/
theorem serve_within (inside : Inside E I ok own part) (asks : s.Asks E I ok n) (holds : I db) :
    s.serve E queueUp n (part db) =
      (s.serve E queueUp n db).map fun end' => (end'.1, part end'.2) := by
  induction n generalizing s db with
  | zero => cases s <;> rfl
  | succ n ih =>
    cases s with
    | done r' => rfl
    | tx p =>
      obtain ⟨answer, left⟩ := Prog.serve_within confined holds queueUp asks inside
      simp only [Script.serve, answer, left]
      cases ran : (p.serve E queueUp db).answer with
      | error e => rfl
      | ok s' =>
        have next := (Prog.runIn_owned confined holds queueUp asks 0 Session.owned_nil).2 s' ran
        exact ih next (Prog.serve_confined confined holds queueUp asks)

omit confined in
/-- A transaction that is only a lookup hands over what it finds. -/
theorem serve_lookup {q : σ.Stmt} {g : σ.Ans q → Script σ α} {a : σ.Ans q}
    (found : E.exec q db = .ok ([], a)) :
    (Script.tx (Prog.query q >>= fun a => pure (g a))).serve E queueUp (n + 1) db =
      (g a).serve E queueUp n db := by
  have ran : (Prog.query q >>= fun a => (pure (g a) : Prog σ (Script σ α))).serve E queueUp db =
      ⟨.ok (g a), ⟨[], [], false, [(q, db)]⟩, 1⟩ :=
    Prog.runIn_query (σ := σ) E ⟨fun _ => db, queueUp⟩ 0 found
  simp only [Script.serve, ran]
  rfl

end Script
end
end Dormitory.Txn
