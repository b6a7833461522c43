import Dormitory.Txn.Alone

/-!
# One call after another

What a call served alone answers and leaves, statement by statement. The states
that a sequence of calls passes through, for any transition function, and how a
fact about one call carries over to the whole sequence.
-/

namespace Dormitory.Txn

/-- Served on `db` with the writes `ws` already made, the program answers `r` and
leaves `db'`. -/
def Prog.Serves {σ : Sig} {α : Type} (E : Engine σ) (db : σ.St) (ws : List σ.Write)
    (p : Prog σ α) (r : Except σ.Err α) (db' : σ.St) : Prop :=
  ∀ queueUp n tr, (p.runIn E ⟨fun _ => db, queueUp⟩ n ⟨ws, [], false, tr⟩).answer = r ∧
    (p.runIn E ⟨fun _ => db, queueUp⟩ n ⟨ws, [], false, tr⟩).commit E db = db'

namespace Prog.Serves
variable {σ : Sig} {α β : Type} {E : Engine σ} {db db' : σ.St} {ws : List σ.Write}

theorem ret (a : α) : (Prog.ret a).Serves E db ws (.ok a) (ws.foldl E.apply db) :=
  fun _ _ _ => ⟨rfl, rfl⟩

theorem fail (e : σ.Err) : (Prog.fail e : Prog σ α).Serves E db ws (.error e) db :=
  fun _ _ _ => ⟨rfl, rfl⟩

section query
variable {s : σ.Stmt}

/-- The rule for a statement that goes through. -/
theorem query {f : σ.Ans s → Prog σ β} {ws' : List σ.Write} {a : σ.Ans s} {r : Except σ.Err β}
    (ran : E.exec s (ws.foldl E.apply db) = .ok (ws', a))
    (rest : (f a).Serves E db (ws ++ ws') r db') :
    (Prog.query s >>= f).Serves E db ws r db' := by
  intro queueUp n tr
  rw [Prog.runIn_query E ⟨fun _ => db, queueUp⟩ n ran]
  exact rest queueUp (n + 1) _

theorem query_error {f : σ.Ans s → Prog σ β} {e : σ.Err}
    (ran : E.exec s (ws.foldl E.apply db) = .error e) :
    (Prog.query s >>= f).Serves E db ws (.error e) db := by
  intro queueUp n tr
  rw [Prog.runIn_query_error E ⟨fun _ => db, queueUp⟩ n ran]
  exact ⟨rfl, rfl⟩

theorem last {ws' : List σ.Write} {a : σ.Ans s}
    (ran : E.exec s (ws.foldl E.apply db) = .ok (ws', a)) :
    (Prog.query s).Serves E db ws (.ok a) ((ws ++ ws').foldl E.apply db) := by
  rw [← Prog.bind_pure (Prog.query s)]
  exact query ran (ret a)

theorem last_error {e : σ.Err} (ran : E.exec s (ws.foldl E.apply db) = .error e) :
    (Prog.query s).Serves E db ws (.error e) db := by
  rw [← Prog.bind_pure (Prog.query s)]
  exact query_error ran

end query

/-- The rule for `try … catch` around a part that returns. -/
theorem attempt {p : Prog σ α} {h : σ.Err → Prog σ α} {a : α}
    (body : p.Serves E db ws (.ok a) db') : (p.attempt h).Serves E db ws (.ok a) db' := by
  intro queueUp n tr
  obtain ⟨answer, left⟩ := body queueUp n tr
  rw [Prog.runIn_attempt, answer]
  exact ⟨answer, left⟩

/-- The rule for `try … catch` that throws in its turn. -/
theorem attempt_error {p : Prog σ α} {h : σ.Err → Prog σ α} {e : σ.Err}
    (body : p.Serves E db ws (.error e) db') (throws : ∀ e, ∃ e', h e = Prog.fail e') :
    ∃ e', (p.attempt h).Serves E db ws (.error e') db := by
  obtain ⟨e', rethrows⟩ := throws e
  refine ⟨e', fun queueUp n tr => ?_⟩
  obtain ⟨answer, -⟩ := body queueUp n tr
  rw [Prog.runIn_attempt, answer]
  simp only [rethrows, runIn_fail]
  exact ⟨trivial, rfl⟩

/-- From the start of the call. -/
theorem serve {p : Prog σ α} {r : Except σ.Err α} (h : p.Serves E db [] r db')
    (queueUp : Nat → Bool) :
    (p.serve E queueUp db).answer = r ∧ (p.serve E queueUp db).commit E db = db' :=
  h queueUp 0 []

end Prog.Serves

/-- A check without writes: it lets the call go on exactly when `P` holds, and
throws otherwise. -/
structure Prog.Guards {σ : Sig} (E : Engine σ) (db : σ.St) (ws : List σ.Write) (g : Prog σ Unit)
    (P : Prop) : Prop where
  pass : P → ∀ {β : Type} {f : Unit → Prog σ β} {r : Except σ.Err β} {db' : σ.St},
    (f ()).Serves E db ws r db' → (g >>= f).Serves E db ws r db'
  stop : ¬P → ∃ e, ∀ {β : Type} {f : Unit → Prog σ β}, (g >>= f).Serves E db ws (.error e) db

/-- The rule for a check of one statement's answer. -/
theorem Prog.Guards.query {σ : Sig} {E : Engine σ} {db : σ.St} {ws : List σ.Write} {s : σ.Stmt}
    {g : σ.Ans s → Prog σ Unit} {a : σ.Ans s} {P : Prop}
    (ran : E.exec s (ws.foldl E.apply db) = .ok ([], a)) (passes : P → g a = pure ())
    (throws : ¬P → ∃ e, g a = Prog.fail e) : (Prog.query s >>= g).Guards E db ws P := by
  constructor
  · intro holds β f r db' rest
    rw [Prog.bind_assoc]
    refine Prog.Serves.query ran ?_
    rw [passes holds, List.append_nil]
    exact rest
  · intro fails
    obtain ⟨e, thrown⟩ := throws fails
    refine ⟨e, fun {β f} => ?_⟩
    rw [Prog.bind_assoc]
    refine Prog.Serves.query ran ?_
    rw [thrown]
    exact .fail e

/-- Served on `db` with the writes `ws` already made, the program leaves a state
that `Q` holds of. -/
def Prog.Leaves {σ : Sig} {α : Type} (E : Engine σ) (db : σ.St) (ws : List σ.Write)
    (p : Prog σ α) (Q : σ.St → Prop) : Prop :=
  ∃ r db', p.Serves E db ws r db' ∧ Q db'

namespace Prog.Leaves
variable {σ : Sig} {α β : Type} {E : Engine σ} {db : σ.St} {ws : List σ.Write} {Q : σ.St → Prop}

theorem ret (a : α) (ends : Q (ws.foldl E.apply db)) : (Prog.ret a).Leaves E db ws Q :=
  ⟨_, _, .ret a, ends⟩

theorem fail (e : σ.Err) (undone : Q db) : (Prog.fail e : Prog σ α).Leaves E db ws Q :=
  ⟨_, _, .fail e, undone⟩

/-- The rule for a statement. -/
theorem query {s : σ.Stmt} {f : σ.Ans s → Prog σ β} (undone : Q db)
    (rest : ∀ ws' a, E.exec s (ws.foldl E.apply db) = .ok (ws', a) →
      (f a).Leaves E db (ws ++ ws') Q) : (Prog.query s >>= f).Leaves E db ws Q := by
  cases ran : E.exec s (ws.foldl E.apply db) with
  | error e => exact ⟨_, _, .query_error ran, undone⟩
  | ok out =>
    obtain ⟨ws', a⟩ := out
    obtain ⟨r, db', served, ends⟩ := rest ws' a ran
    exact ⟨r, db', .query ran served, ends⟩

theorem last {s : σ.Stmt} (undone : Q db)
    (ends : ∀ ws' a, E.exec s (ws.foldl E.apply db) = .ok (ws', a) →
      Q ((ws ++ ws').foldl E.apply db)) : (Prog.query s).Leaves E db ws Q := by
  rw [← Prog.bind_pure (Prog.query s)]
  exact query undone fun ws' a ran => ret a (ends ws' a ran)

/-- The rule for `try … catch` that throws in its turn. -/
theorem attempt {p : Prog σ α} {h : σ.Err → Prog σ α} (undone : Q db)
    (body : p.Leaves E db ws Q) (throws : ∀ e, ∃ e', h e = Prog.fail e') :
    (p.attempt h).Leaves E db ws Q := by
  obtain ⟨r, db', served, ends⟩ := body
  cases r with
  | ok a => exact ⟨_, _, .attempt served, ends⟩
  | error e =>
    obtain ⟨e', thrown⟩ := Prog.Serves.attempt_error served throws
    exact ⟨_, _, thrown, undone⟩

/-- The rule for a check. -/
theorem guard {g : Prog σ Unit} {f : Unit → Prog σ β} {P : Prop} (guards : g.Guards E db ws P)
    (undone : Q db) (rest : P → (f ()).Leaves E db ws Q) : (g >>= f).Leaves E db ws Q := by
  by_cases holds : P
  · obtain ⟨r, db', served, ends⟩ := rest holds
    exact ⟨r, db', guards.pass holds served, ends⟩
  · obtain ⟨e, thrown⟩ := guards.stop holds
    exact ⟨_, _, thrown, undone⟩

/-- From the start of the call. -/
theorem serve {p : Prog σ α} (h : p.Leaves E db [] Q) (queueUp : Nat → Bool) :
    Q ((p.serve E queueUp db).commit E db) := by
  obtain ⟨r, db', served, ends⟩ := h
  rw [(served.serve queueUp).2]
  exact ends

end Prog.Leaves

/-- Served on `db` with the writes `ws` already made, the program throws, or
answers and leaves what `Q` holds of. -/
def Prog.Answers {σ : Sig} {α : Type} (E : Engine σ) (db : σ.St) (ws : List σ.Write)
    (p : Prog σ α) (Q : α → σ.St → Prop) : Prop :=
  ∃ r db', p.Serves E db ws r db' ∧ ∀ a, r = .ok a → Q a db'

namespace Prog.Answers
variable {σ : Sig} {α β : Type} {E : Engine σ} {db : σ.St} {ws : List σ.Write}
  {Q : α → σ.St → Prop}

theorem ret {a : α} (holds : Q a (ws.foldl E.apply db)) : (Prog.ret a).Answers E db ws Q := by
  refine ⟨_, _, .ret a, fun a' same => ?_⟩
  cases same
  exact holds

theorem fail (e : σ.Err) : (Prog.fail e : Prog σ α).Answers E db ws Q :=
  ⟨_, _, .fail e, fun _ same => nomatch same⟩

/-- The rule for a statement. -/
theorem query {s : σ.Stmt} {f : σ.Ans s → Prog σ α}
    (rest : ∀ ws' a, E.exec s (ws.foldl E.apply db) = .ok (ws', a) →
      (f a).Answers E db (ws ++ ws') Q) : (Prog.query s >>= f).Answers E db ws Q := by
  cases ran : E.exec s (ws.foldl E.apply db) with
  | error e => exact ⟨_, _, .query_error ran, fun _ same => nomatch same⟩
  | ok out =>
    obtain ⟨ws', a⟩ := out
    obtain ⟨r, db', served, answers⟩ := rest ws' a ran
    exact ⟨r, db', .query ran served, answers⟩

theorem last {s : σ.Stmt} {Q : σ.Ans s → σ.St → Prop}
    (ends : ∀ ws' a, E.exec s (ws.foldl E.apply db) = .ok (ws', a) →
      Q a ((ws ++ ws').foldl E.apply db)) : (Prog.query s).Answers E db ws Q := by
  rw [← Prog.bind_pure (Prog.query s)]
  exact query fun ws' a ran => ret (ends ws' a ran)

/-- The rule for `try … catch` that throws in its turn. -/
theorem attempt {p : Prog σ α} {h : σ.Err → Prog σ α} (body : p.Answers E db ws Q)
    (throws : ∀ e, ∃ e', h e = Prog.fail e') : (p.attempt h).Answers E db ws Q := by
  obtain ⟨r, db', served, answers⟩ := body
  cases r with
  | ok a => exact ⟨_, _, .attempt served, answers⟩
  | error e =>
    obtain ⟨e', thrown⟩ := Prog.Serves.attempt_error served throws
    exact ⟨_, _, thrown, fun _ same => nomatch same⟩

theorem imp {p : Prog σ α} {R : α → σ.St → Prop} (h : p.Answers E db ws Q)
    (weaker : ∀ a db', Q a db' → R a db') : p.Answers E db ws R := by
  obtain ⟨r, db', served, answers⟩ := h
  exact ⟨r, db', served, fun a same => weaker a db' (answers a same)⟩

/-- From the start of the call. -/
theorem serve {p : Prog σ α} (h : p.Answers E db [] Q) {queueUp : Nat → Bool} {a : α}
    (answered : (p.serve E queueUp db).answer = .ok a) :
    Q a ((p.serve E queueUp db).commit E db) := by
  obtain ⟨r, db', served, answers⟩ := h
  rw [(served.serve queueUp).2]
  exact answers a ((served.serve queueUp).1.symm.trans answered)

end Prog.Answers

/-- A part of a call that writes nothing: it throws, or hands the rest an answer
that `P` holds of. -/
structure Prog.Reads {σ : Sig} {α : Type} (E : Engine σ) (db : σ.St) (ws : List σ.Write)
    (p : Prog σ α) (P : α → Prop) : Prop where
  before : ∀ {β : Type} {f : α → Prog σ β} {Q : σ.St → Prop}, Q db →
    (∀ a, P a → (f a).Leaves E db ws Q) → (p >>= f).Leaves E db ws Q

namespace Prog.Reads
variable {σ : Sig} {α β : Type} {E : Engine σ} {db : σ.St} {ws : List σ.Write} {P : α → Prop}

theorem ret {a : α} (holds : P a) : (Prog.ret a).Reads E db ws P :=
  ⟨fun _ rest => rest a holds⟩

theorem fail (e : σ.Err) : (Prog.fail e : Prog σ α).Reads E db ws P :=
  ⟨fun undone _ => .fail e undone⟩

theorem query {s : σ.Stmt} {P : σ.Ans s → Prop}
    (reads : ∀ ws' a, E.exec s (ws.foldl E.apply db) = .ok (ws', a) → ws' = [] ∧ P a) :
    (Prog.query s).Reads E db ws P := by
  refine ⟨fun undone rest => .query undone fun ws' a ran => ?_⟩
  obtain ⟨rfl, holds⟩ := reads ws' a ran
  rw [List.append_nil]
  exact rest a holds

theorem bind {p : Prog σ α} {g : α → Prog σ β} {R : β → Prop} (first : p.Reads E db ws P)
    (then' : ∀ a, P a → (g a).Reads E db ws R) : (p >>= g).Reads E db ws R := by
  refine ⟨fun undone rest => ?_⟩
  rw [Prog.bind_assoc]
  exact first.before undone fun a holds => (then' a holds).before undone rest

/-- A check reads, and what it checks holds afterwards. -/
theorem guard {g : Prog σ Unit} {holds : Prop} (guards : g.Guards E db ws holds) :
    g.Reads E db ws fun _ => holds :=
  ⟨fun undone rest => .guard guards undone (rest ())⟩

end Prog.Reads

section
variable {St Call : Type} (next : St → Call → St)

/-- The states, from the first to the last. -/
def states : St → List Call → List St
  | s, [] => [s]
  | s, a :: as => s :: states (next s a) as

/-- Every call of the sequence meets `P` in the state it is made in. -/
def Throughout (P : St → Call → Prop) : St → List Call → Prop
  | _, [] => True
  | s, a :: as => P s a ∧ Throughout P (next s a) as

theorem last_mem_states (s : St) (as : List Call) : as.foldl next s ∈ states next s as := by
  induction as generalizing s with
  | nil => exact List.mem_singleton.mpr rfl
  | cons a as ih => exact List.mem_cons_of_mem _ (ih (next s a))

theorem throughout_true (s : St) (as : List Call) : Throughout next (fun _ _ => True) s as := by
  induction as generalizing s with
  | nil => trivial
  | cons a as ih => exact ⟨trivial, ih (next s a)⟩

instance throughoutDecidable (P : St → Call → Prop) [∀ s a, Decidable (P s a)] :
    ∀ s as, Decidable (Throughout next P s as)
  | _, [] => isTrue trivial
  | s, a :: as =>
    have := throughoutDecidable P (next s a) as
    inferInstanceAs (Decidable (_ ∧ _))

variable {next} {I Q : St → Prop} {P M : St → Call → Prop} {s : St} {as : List Call}

theorem throughout_imp {Q : St → Call → Prop} (weaker : ∀ s a, P s a → Q s a)
    (each : Throughout next P s as) : Throughout next Q s as := by
  induction as generalizing s with
  | nil => trivial
  | cons a as ih => exact ⟨weaker s a each.1, ih each.2⟩

theorem throughout_append {as' : List Call} : Throughout next P s (as ++ as') ↔
    Throughout next P s as ∧ Throughout next P (as.foldl next s) as' := by
  induction as generalizing s with
  | nil => simp [Throughout]
  | cons a as ih => exact (and_congr_right fun _ => ih).trans and_assoc.symm

/-- Calls that mean the same in every state that keeps `I` mean the same
throughout. -/
theorem throughout_congr {Q : St → Call → Prop} (keep : ∀ s a, I s → P s a → I (next s a))
    (same : ∀ s a, I s → P s a → (Q s a ↔ M s a)) (start : I s)
    (each : Throughout next P s as) : Throughout next Q s as ↔ Throughout next M s as := by
  induction as generalizing s with
  | nil => exact Iff.rfl
  | cons a as ih =>
    obtain ⟨first, rest⟩ := each
    exact and_congr (same s a start first) (ih (keep s a start first) rest)

/-- What every call keeps holds in every state. -/
theorem states_keep (keep : ∀ s a, I s → I (next s a)) (start : I s) :
    ∀ s' ∈ states next s as, I s' := by
  induction as generalizing s with
  | nil =>
    intro s' hs'
    rw [List.mem_singleton.mp hs']
    exact start
  | cons a as ih =>
    intro s' hs'
    cases hs' with
    | head => exact start
    | tail _ later => exact ih (keep s a start) s' later

/-- What every call's state is to the one before it, every state is to all the
earlier ones. -/
theorem states_pairwise {R : St → St → Prop} (trans : ∀ {a b c}, R a b → R b c → R a c)
    (step : ∀ s a, R s (next s a)) : (states next s as).Pairwise R := by
  induction as generalizing s with
  | nil => exact List.pairwise_singleton R s
  | cons a as ih =>
    refine List.Pairwise.cons (fun s' later => ?_) ih
    exact states_keep (I := R s) (fun _ b reached => trans reached (step _ b)) (step s a) s' later

/-- `Q` holds in every state exactly when every call meets `M`, if a call keeps
`Q` exactly when it meets `M`. -/
theorem states_iff (keep : ∀ s a, I s → P s a → I (next s a))
    (exact' : ∀ s a, I s → Q s → P s a → (Q (next s a) ↔ M s a)) (start : I s) (holds : Q s)
    (each : Throughout next P s as) :
    (∀ s' ∈ states next s as, Q s') ↔ Throughout next M s as := by
  induction as generalizing s with
  | nil =>
    constructor
    · exact fun _ => trivial
    · intro _ s' hs'
      rw [List.mem_singleton.mp hs']
      exact holds
  | cons a as ih =>
    obtain ⟨first, rest⟩ := each
    have step := exact' s a start holds first
    have later := fun holds' => ih (keep s a start first) holds' rest
    constructor
    · intro all
      have holds' : Q (next s a) := by
        refine all _ (List.mem_cons_of_mem _ ?_)
        cases as <;> exact List.mem_cons_self
      exact ⟨step.mp holds', (later holds').mp fun s' hs' => all s' (List.mem_cons_of_mem _ hs')⟩
    · rintro ⟨meets, meets'⟩ s' hs'
      rcases List.mem_cons.mp hs' with rfl | hs'
      · exact holds
      · exact (later (step.mpr meets)).mpr meets' s' hs'

end
end Dormitory.Txn
