import Dormitory.Txn.Jobs

/-!
# Rely and guarantee

The rule for requests that use savepoints. Each request is checked alone,
against every committed state the others can produce meanwhile: they commit
writes of the kind `G`, and none that needs a lock it holds. If every request
in turn commits writes of that kind only, what was checked holds in every
interleaved run (`run_governed`).
-/

namespace Dormitory.Txn

section
variable {σ : Sig} {ι α β : Type}

/-- The committed state after commits of the kind `G` that leave `held` alone. -/
inductive Interferes (E : Engine σ) (G : σ.St → List σ.Write → Prop) (held : List σ.Lock)
    (db : σ.St) : σ.St → Prop
  | refl : Interferes E G held db db
  | commit {db' : σ.St} (ws : List σ.Write) (before : Interferes E G held db db') (kind : G db' ws)
      (apart : ∀ l ∈ ws.flatMap E.locks, l ∉ held) : Interferes E G held db (ws.foldl E.apply db')

namespace Interferes
variable {E : Engine σ} {G : σ.St → List σ.Write → Prop} {held held' : List σ.Lock} {a b c : σ.St}

theorem trans (h : Interferes E G held a b) (h' : Interferes E G held b c) :
    Interferes E G held a c := by
  induction h' with
  | refl => exact h
  | commit ws _ kind apart ih => exact .commit ws ih kind apart

/-- What one commit preserves, interference preserves. -/
theorem preserves {I : σ.St → Prop}
    (keep : ∀ db ws, I db → G db ws → (∀ l ∈ ws.flatMap E.locks, l ∉ held) →
    I (ws.foldl E.apply db))
    (h : Interferes E G held a b) (ha : I a) : I b := by
  induction h with
  | refl => exact ha
  | commit ws _ kind apart ih => exact keep _ ws ih kind apart

end Interferes

/-- The program ends in `Q`, whatever commits between its operations. -/
def Prog.Holds (E : Engine σ) (G : σ.St → List σ.Write → Prop)
    (Q : Except σ.Err α → Session σ → σ.St → Prop) : Prog σ α → Session σ → σ.St → Prop
  | ret a, x, db => ∀ db', Interferes E G (x.held E) db db' → Q (.ok a) x db'
  | fail e, x, db => ∀ db', Interferes E G (x.held E) db db' → Q (.error e) x db'
  | sql s k, x, db => ∀ db', Interferes E G (x.held E) db db' →
      (k (x.exec E db' s).2).Holds E G Q (x.exec E db' s).1 db'
  | ctl c k, x, db => ∀ db', Interferes E G (x.held E) db db' →
      (k (x.control E c).2).Holds E G Q (x.control E c).1 db'
  | send _ k, x, db => ∀ db', Interferes E G (x.held E) db db' →
      (k (.ok ())).Holds E G Q x db' ∧ (k (.error E.queueDown)).Holds E G Q x db'

namespace Prog
variable {E : Engine σ} {G : σ.St → List σ.Write → Prop}
  {Q : Except σ.Err α → Session σ → σ.St → Prop} {x : Session σ} {db db' : σ.St}

/-- The rule for a statement outside of savepoints, where a throw owes nothing. -/
theorem Holds.query {s : σ.Stmt} {f : σ.Ans s → Prog σ α} {ws : List σ.Write}
    {tr : List (σ.Stmt × σ.St)} (throws : ∀ e x db, Q (.error e) x db)
    (next : ∀ db' ws' a, Interferes E G (ws.flatMap E.locks) db db' →
      E.exec s (ws.foldl E.apply db') = .ok (ws', a) →
      (f a).Holds E G Q ⟨ws ++ ws', [], false, tr ++ [(s, ws.foldl E.apply db')]⟩ db') :
    (Prog.query s >>= f).Holds E G Q ⟨ws, [], false, tr⟩ db := by
  intro db' others
  cases ran : E.exec s (ws.foldl E.apply db') with
  | error e =>
    have fails : (⟨ws, [], false, tr⟩ : Session σ).exec E db' s =
        (⟨ws, [], true, tr⟩, .error e) := Session.exec_error rfl ran
    rw [fails]
    exact fun db'' _ => throws _ _ _
  | ok r =>
    have goes : (⟨ws, [], false, tr⟩ : Session σ).exec E db' s =
        (⟨ws ++ r.1, [], false, tr ++ [(s, ws.foldl E.apply db')]⟩, .ok r.2) :=
      Session.exec_ok rfl ran
    rw [goes]
    exact next db' r.1 r.2 others ran

end Prog

/-! ## Locks and savepoints -/

namespace Session

/-- An older savepoint has no write that a newer one lacks. -/
def Nested (x : Session σ) : Prop :=
  (x.writes :: x.saves.map Prod.snd).Pairwise fun new old => old ⊆ new

theorem nested_nil : ({} : Session σ).Nested := by simp [Nested]

theorem Nested.exec (E : Engine σ) (db : σ.St) (s : σ.Stmt) {x : Session σ} (h : x.Nested) :
    (x.exec E db s).1.Nested := by
  unfold Session.exec
  split
  · exact h
  · split
    · exact h
    · obtain ⟨below, rest⟩ := List.pairwise_cons.1 h
      refine List.pairwise_cons.2 ⟨fun old hold => ?_, rest⟩
      exact fun w hw => List.subset_append_left _ _ (below old hold hw)

theorem dropWhile_sub {x : Session σ} (h : x.Nested) {n : String} {p : String × List σ.Write}
    {rest : List (String × List σ.Write)}
    (found : x.saves.dropWhile (fun p => p.1 ≠ n) = p :: rest) :
    p.2 ⊆ x.writes ∧ (p.2 :: rest.map Prod.snd).Pairwise fun new old => old ⊆ new := by
  obtain ⟨below, chain⟩ := List.pairwise_cons.1 h
  have suffix : (p :: rest).Sublist x.saves := found ▸ List.dropWhile_sublist _
  exact ⟨below _ (List.mem_map_of_mem (suffix.subset (by simp))),
    chain.sublist (suffix.map Prod.snd)⟩

theorem control_nested (E : Engine σ) (c : Ctl) {x : Session σ} (h : x.Nested) :
    (x.control E c).1.Nested ∧ (x.control E c).1.writes ⊆ x.writes := by
  cases c with
  | savepoint n =>
    simp only [control]
    split
    · exact ⟨h, fun _ hw => hw⟩
    · refine ⟨?_, fun _ hw => hw⟩
      obtain ⟨below, chain⟩ := List.pairwise_cons.1 h
      refine List.pairwise_cons.2 ⟨fun old hold => ?_, h⟩
      rcases List.mem_cons.1 hold with rfl | hold
      · exact fun _ hw => hw
      · exact below old hold
  | release n =>
    simp only [control]
    split
    · exact ⟨h, fun _ hw => hw⟩
    · split
      · exact ⟨h, fun _ hw => hw⟩
      · rename_i p rest found
        obtain ⟨sub, chain⟩ := dropWhile_sub h found
        refine ⟨List.pairwise_cons.2 ⟨fun old hold => ?_, (List.pairwise_cons.1 chain).2⟩,
          fun _ hw => hw⟩
        exact fun w hw => sub ((List.pairwise_cons.1 chain).1 old hold hw)
  | rollbackTo n =>
    simp only [control]
    split
    · exact ⟨h, fun _ hw => hw⟩
    · rename_i p rest found
      obtain ⟨sub, chain⟩ := dropWhile_sub h found
      refine ⟨List.pairwise_cons.2 ⟨fun old hold => ?_, chain⟩, sub⟩
      rcases List.mem_cons.1 hold with rfl | hold
      · exact fun _ hw => hw
      · exact (List.pairwise_cons.1 chain).1 old hold

theorem held_subset (E : Engine σ) {x y : Session σ} (h : y.writes ⊆ x.writes) :
    y.held E ⊆ x.held E := by
  intro l hl
  obtain ⟨w, hw, hl⟩ := List.mem_flatMap.1 hl
  exact List.mem_flatMap.2 ⟨w, h hw, hl⟩

end Session

/-! ## Runs under terms -/

/-- The terms of a run: what its requests commit, which statements the schedule
lets run on what they see, which requests it lets crash, and what each request
owes between its operations and at its end, the jobs it has added included. -/
structure Terms (σ : Sig) (ι α : Type) where
  kind : σ.St → List σ.Write → Prop
  may : σ.Stmt → σ.St → Prop := fun _ _ => True
  crash : Session σ → List σ.Job → Prop := fun _ _ => True
  holds : ι → Session σ → List σ.Job → σ.St → Prop := fun _ _ _ _ => True
  ends : ι → Except σ.Err α → Session σ → List σ.Job → σ.St → Prop

/-- The program pays what `t` owes, whatever commits between its operations. -/
def Prog.Pays (E : Engine σ) (T : Terms σ ι α) (t : ι) :
    Prog σ α → Session σ → List σ.Job → σ.St → Prop
  | ret a, x, js, db => ∀ db', Interferes E T.kind (x.held E) db db' →
      T.holds t x js db' ∧ T.ends t (.ok a) x js db'
  | fail e, x, js, db => ∀ db', Interferes E T.kind (x.held E) db db' →
      T.holds t x js db' ∧ T.ends t (.error e) x js db'
  | sql s k, x, js, db => ∀ db', Interferes E T.kind (x.held E) db db' →
      T.holds t x js db' ∧ (T.may s (x.view E db') →
        (k (x.exec E db' s).2).Pays E T t (x.exec E db' s).1 js db')
  | ctl c k, x, js, db => ∀ db', Interferes E T.kind (x.held E) db db' →
      T.holds t x js db' ∧ (k (x.control E c).2).Pays E T t (x.control E c).1 js db'
  | send j k, x, js, db => ∀ db', Interferes E T.kind (x.held E) db db' →
      T.holds t x js db' ∧ (k (.ok ())).Pays E T t x (js ++ [j]) db' ∧
        (k (.error E.queueDown)).Pays E T t x js db'

namespace Prog
variable {E : Engine σ} {T : Terms σ ι α} {t : ι} {x : Session σ} {js : List σ.Job} {db db' : σ.St}

theorem Pays.later {p : Prog σ α} (h : p.Pays E T t x js db)
    (others : Interferes E T.kind (x.held E) db db') : p.Pays E T t x js db' := by
  cases p with
  | ret a | fail e | sql s k | ctl c k | send j k =>
    intro db'' more
    exact h db'' (others.trans more)

/-- The rule for a statement of an intact transaction. -/
theorem Pays.sql {s : σ.Stmt} {k : Except σ.Err (σ.Ans s) → Prog σ α} (sound : x.broken = false)
    (holds : ∀ db', Interferes E T.kind (x.held E) db db' → T.holds t x js db')
    (ok : ∀ db' ws a, Interferes E T.kind (x.held E) db db' →
      E.exec s (x.view E db') = .ok (ws, a) → (k (.ok a)).Pays E T t
        { x with writes := x.writes ++ ws, trace := x.trace ++ [(s, x.view E db')] } js db')
    (error : ∀ db' e, Interferes E T.kind (x.held E) db db' → E.exec s (x.view E db') = .error e →
      (k (.error e)).Pays E T t { x with broken := true } js db') :
    (Prog.sql s k).Pays E T t x js db := by
  intro db' others
  refine ⟨holds db' others, fun _ => ?_⟩
  cases ran : E.exec s (x.view E db') with
  | error e =>
    rw [Session.exec_error sound ran]
    exact error db' e others ran
  | ok r =>
    rw [Session.exec_ok sound ran]
    exact ok db' r.1 r.2 others ran

theorem Pays.holds {p : Prog σ α} (h : p.Pays E T t x js db) : T.holds t x js db := by
  cases p with
  | ret a | fail e | sql s k | ctl c k | send j k => exact (h db .refl).1

end Prog

/-- Where a request stands that owes what `T` says and has added `js`. -/
def Tx.Pays (E : Engine σ) (T : Terms σ ι α) (t : ι) (js : List σ.Job) (now : σ.St) :
    Tx σ α → Prop
  | .running p x => x.Nested ∧ p.Pays E T t x js now
  | .committed a => ∃ x db, T.ends t (.ok a) x js db ∧ x.broken = false ∧
      Interferes E T.kind [] (x.view E db) now
  | .rolledBack r => ∃ x db, T.ends t r x js db ∧ (r.isOk → x.broken = true) ∧
      Interferes E T.kind [] db now
  | .crashed => ∃ x db, T.holds t x js db ∧ T.crash x js ∧ Interferes E T.kind [] db now

theorem Tx.Pays.later {E : Engine σ} {T : Terms σ ι α} {t : ι} {js : List σ.Job} {db db' : σ.St}
    {tx : Tx σ α} (h : tx.Pays E T t js db) (others : Interferes E T.kind (tx.held E) db db') :
    tx.Pays E T t js db' := by
  cases tx with
  | running p x => exact ⟨h.1, h.2.later others⟩
  | committed a =>
    obtain ⟨x, d, ends, sound, since⟩ := h
    exact ⟨x, d, ends, sound, since.trans others⟩
  | rolledBack r =>
    obtain ⟨x, d, ends, lost, since⟩ := h
    exact ⟨x, d, ends, lost, since.trans others⟩
  | crashed =>
    obtain ⟨x, d, holds, may, since⟩ := h
    exact ⟨x, d, holds, may, since.trans others⟩

/-- The schedule keeps to the terms. -/
def Config.Permits [DecidableEq ι] (E : Engine σ) (T : Terms σ ι α) (c : Config σ ι α)
    (a : Action ι) : Prop :=
  (∀ s x, c.executes a = some (s, x) → T.may s (x.view E c.db)) ∧
    ∀ t p x, a = .crash t → c.txs t = .running p x → T.crash x (c.jobsOf t)

/-- One commit of the kind. -/
def Commits (E : Engine σ) (G : σ.St → List σ.Write → Prop) (late early : σ.St) : Prop :=
  ∃ ws, G early ws ∧ late = ws.foldl E.apply early

/-- Every request pays, with locks of its own, and the committed states follow
from one another by commits of the kind. -/
structure Paid [DecidableEq ι] (E : Engine σ) (T : Terms σ ι α) (first : σ.St)
    (c : Config σ ι α) : Prop where
  apart : ∀ t u, t ≠ u → ∀ l ∈ (c.txs t).held E, l ∉ (c.txs u).held E
  pays : ∀ t, (c.txs t).Pays E T t (c.jobsOf t) c.db
  reached : ∀ d ∈ c.db :: c.past, Interferes E T.kind [] first d
  chained : (c.db :: c.past).IsChain (Commits E T.kind)

namespace Paid
variable [DecidableEq ι] {E : Engine σ} {T : Terms σ ι α} {first : σ.St} {c c' : Config σ ι α}

theorem start {p : ι → Prog σ α} (pays : ∀ t, (p t).Pays E T t {} [] first) :
    Paid E T first (Config.start first p) where
  apart t u _ l hl := by simp [Config.start, Tx.held, Session.held] at hl
  pays t := ⟨Session.nested_nil, pays t⟩
  reached d hd := by
    cases List.mem_singleton.1 hd
    exact .refl
  chained := .singleton _

/-- A session keeps its locks to itself whatever its program does next. -/
theorem own (h : Paid E T first c) {t : ι} {p : Prog σ α} {x : Session σ}
    (here : c.txs t = .running p x) :
    ∀ u, u ≠ t → ∀ l ∈ x.held E, l ∉ (c.txs u).held E := by
  intro u other l hl
  refine h.apart t u (Ne.symm other) l ?_
  rw [here]
  exact hl

theorem running (h : Paid E T first c) {t : ι} {p : Prog σ α} {x : Session σ}
    (here : c.txs t = .running p x) : x.Nested ∧ p.Pays E T t x (c.jobsOf t) c.db := by
  have pays := h.pays t
  rw [here] at pays
  exact pays

/-- `t` moved to `tx` and added `js`, and nothing was committed. -/
theorem move (h : Paid E T first c) (t : ι) (tx : Tx σ α) (js : List σ.Job) (hdb : c'.db = c.db)
    (hpast : c'.past = c.past) (htx : c'.txs = Function.update c.txs t tx)
    (jobs : c'.jobs = c.jobs ++ js.map fun j => (t, j))
    (apart : ∀ u, u ≠ t → ∀ l ∈ tx.held E, l ∉ (c.txs u).held E)
    (pays : tx.Pays E T t (c.jobsOf t ++ js) c.db) : Paid E T first c' where
  apart u v huv l hl hl' := by
    rw [htx] at hl hl'
    by_cases hu : u = t
    · subst hu
      rw [Function.update_self] at hl
      rw [Function.update_of_ne huv.symm] at hl'
      exact apart v huv.symm l hl hl'
    · rw [Function.update_of_ne hu] at hl
      by_cases hv : v = t
      · subst hv
        rw [Function.update_self] at hl'
        exact apart u hu l hl' hl
      · rw [Function.update_of_ne hv] at hl'
        exact h.apart u v huv l hl hl'
  pays u := by
    rw [htx, hdb, Config.jobsOf_append jobs u]
    by_cases same : u = t
    · subst same
      rw [Function.update_self, if_pos rfl]
      exact pays
    · rw [Function.update_of_ne same, if_neg same]
      exact h.pays u
  reached d hd := by
    rw [hdb, hpast] at hd
    exact h.reached d hd
  chained := by
    rw [hdb, hpast]
    exact h.chained

/-- `t` moved to `tx` and added no job. -/
theorem stay (h : Paid E T first c) (t : ι) (tx : Tx σ α) (hdb : c'.db = c.db)
    (hpast : c'.past = c.past) (htx : c'.txs = Function.update c.txs t tx)
    (jobs : c'.jobs = c.jobs) (apart : ∀ u, u ≠ t → ∀ l ∈ tx.held E, l ∉ (c.txs u).held E)
    (pays : tx.Pays E T t (c.jobsOf t) c.db) : Paid E T first c' := by
  refine h.move t tx [] hdb hpast htx ?_ apart ?_
  · rw [jobs, List.map_nil, List.append_nil]
  · rw [List.append_nil]
    exact pays

/-- `t` committed the writes of `x`. -/
theorem commit (h : Paid E T first c) {t : ι} {a : α} {x : Session σ}
    (here : c.txs t = .running (.ret a) x) (sound : x.broken = false)
    (kind : T.kind c.db x.writes) :
    Paid E T first { c.set t (.committed a) with db := x.view E c.db, past := c.db :: c.past } := by
  have after : ∀ {held : List σ.Lock}, (∀ l ∈ x.held E, l ∉ held) →
      Interferes E T.kind held c.db (x.view E c.db) := fun apart =>
        .commit x.writes .refl kind apart
  have now : Interferes E T.kind [] c.db (x.view E c.db) := after fun _ _ => List.not_mem_nil
  have less : ∀ u, ∀ l ∈ ((Function.update c.txs t (.committed a)) u).held E,
      l ∈ (c.txs u).held E := by
    intro u l hl
    by_cases same : u = t
    · subst same
      rw [Function.update_self] at hl
      cases hl
    · rwa [Function.update_of_ne same] at hl
  refine ⟨fun u v huv l hl hl' => h.apart u v huv l (less u l hl) (less v l hl'), fun u => ?_,
    fun d hd => ?_, ?_⟩
  · change ((Function.update c.txs t (.committed a)) u).Pays E T u (c.jobsOf u) _
    by_cases same : u = t
    · subst same
      rw [Function.update_self]
      exact ⟨x, c.db, ((h.running here).2 c.db .refl).2, sound, .refl⟩
    · rw [Function.update_of_ne same]
      exact (h.pays u).later (after fun l hl => h.own here u same l hl)
  · rcases List.mem_cons.1 hd with rfl | hd
    · exact (h.reached c.db List.mem_cons_self).trans now
    · exact h.reached d hd
  · exact List.isChain_cons_cons.2 ⟨⟨x.writes, kind, rfl⟩, h.chained⟩

/-- Every committed state leads to every later one. -/
theorem ordered (h : Paid E T first c) :
    (c.db :: c.past).Pairwise fun late early => Interferes E T.kind [] early late := by
  have chained : (c.db :: c.past).IsChain fun late early => Interferes E T.kind [] early late := by
    refine h.chained.imp ?_
    rintro late early ⟨ws, kind, rfl⟩
    exact .commit ws .refl kind fun _ _ => List.not_mem_nil
  have : IsTrans σ.St fun late early => Interferes E T.kind [] early late :=
    ⟨fun _ _ _ h h' => h'.trans h⟩
  exact List.isChain_iff_pairwise.1 chained

theorem since (h : Paid E T first c) {d : σ.St} (hd : d ∈ c.db :: c.past) :
    Interferes E T.kind [] d c.db := by
  rcases List.mem_cons.1 hd with rfl | hd
  · exact .refl
  · exact (List.pairwise_cons.1 h.ordered).1 d hd

variable [Fintype ι] [DecidableEq σ.Lock]

theorem step (h : Paid E T first c)
    (guarantee : ∀ t a x js db, T.ends t (.ok a) x js db → x.broken = false → T.kind db x.writes)
    {a : Action ι} (permits : c.Permits E T a) (hs : c.step E a = some c') : Paid E T first c' := by
  cases Config.step_moves hs with
  | @commit t r x here sound =>
    exact h.commit here sound (guarantee t r x _ c.db ((h.running here).2 c.db .refl).2 sound)
  | @lose t r x here broken =>
    refine h.stay t (.rolledBack (.ok r)) rfl rfl rfl rfl (fun _ _ _ hl => by cases hl) ?_
    exact ⟨x, c.db, ((h.running here).2 c.db .refl).2, fun _ => broken, .refl⟩
  | @throw t e x here =>
    refine h.stay t (.rolledBack (.error e)) rfl rfl rfl rfl (fun _ _ _ hl => by cases hl) ?_
    exact ⟨x, c.db, ((h.running here).2 c.db .refl).2, (fun ok => by cases ok), .refl⟩
  | @sql t s k x here free =>
    refine h.stay t _ rfl rfl rfl rfl (fun u hu l hl => free u hu l hl) ?_
    obtain ⟨nested, pays⟩ := h.running here
    exact ⟨nested.exec E c.db s, (pays c.db .refl).2
      (permits.1 s x (by simp [Config.executes, here]))⟩
  | @control t m k x here =>
    obtain ⟨nested, pays⟩ := h.running here
    obtain ⟨nested', sub⟩ := Session.control_nested E m nested
    refine h.stay t _ rfl rfl rfl rfl
      (fun u hu l hl => h.own here u hu l (Session.held_subset E sub hl)) ?_
    exact ⟨nested', (pays c.db .refl).2⟩
  | @send t j k x here =>
    obtain ⟨nested, pays⟩ := h.running here
    exact h.move t (.running (k (.ok ())) x) [j] rfl rfl rfl rfl (h.own here)
      ⟨nested, (pays c.db .refl).2.1⟩
  | @queueFails t j k x here =>
    obtain ⟨nested, pays⟩ := h.running here
    exact h.stay t (.running (k (.error E.queueDown)) x) rfl rfl rfl rfl (h.own here)
      ⟨nested, (pays c.db .refl).2.2⟩
  | @crash t p x here =>
    refine h.stay t .crashed rfl rfl rfl rfl (fun _ _ _ hl => by cases hl) ?_
    exact ⟨x, c.db, (h.running here).2.holds, permits.2 t p x rfl here, .refl⟩
  | take => exact ⟨h.apart, h.pays, h.reached, h.chained⟩

/-- **Rely-guarantee rule.** Requests that pay what they owe against commits of
the kind, and commit nothing else, have paid it in every run that keeps to the
terms. -/
theorem run_paid {p : ι → Prog σ α} {db : σ.St} (pays : ∀ t, (p t).Pays E T t {} [] db)
    (guarantee : ∀ t a x js db, T.ends t (.ok a) x js db → x.broken = false → T.kind db x.writes)
    (as : List (Action ι)) {c : Config σ ι α} (h : (Config.start db p).run E as = some c)
    (permitted : (Config.start db p).Along E (Config.Permits E T) as) : Paid E T db c := by
  have keep : ∀ (c : Config σ ι α) a c', Paid E T db c → c.Permits E T a →
      c.step E a = some c' → Paid E T db c' := fun _ _ _ hp permits hs =>
        hp.step guarantee permits hs
  exact Config.run_invariant E keep as _ c (start pays) permitted h

end Paid

/-! ## Requests checked without terms -/

/-- Every open request is where its own check puts it, with locks of its own,
and every committed state is one that the requests could produce. -/
structure Governed (E : Engine σ) (G : σ.St → List σ.Write → Prop)
    (Q : ι → Except σ.Err α → Session σ → σ.St → Prop) (first : σ.St) (c : Config σ ι α) :
    Prop where
  apart : ∀ t u, t ≠ u → ∀ l ∈ (c.txs t).held E, l ∉ (c.txs u).held E
  nested : ∀ t p x, c.txs t = .running p x → x.Nested
  running : ∀ t p x, c.txs t = .running p x → p.Holds E G (Q t) x c.db
  committed : ∀ t a, c.txs t = .committed a → ∃ x db, Q t (.ok a) x db ∧ x.broken = false ∧
    Interferes E G [] (x.view E db) c.db
  reached : ∀ d ∈ c.db :: c.past, Interferes E G [] first d ∧ Interferes E G [] d c.db

namespace Governed
variable {E : Engine σ} {G : σ.St → List σ.Write → Prop}
  {Q : ι → Except σ.Err α → Session σ → σ.St → Prop}

/-- The terms that only say how a request ends. -/
def terms (G : σ.St → List σ.Write → Prop) (Q : ι → Except σ.Err α → Session σ → σ.St → Prop) :
    Terms σ ι α where
  kind := G
  ends t r x _ db := Q t r x db

theorem pays_iff {t : ι} : ∀ {p : Prog σ α} {x : Session σ} {js : List σ.Job} {db : σ.St},
    p.Pays E (terms G Q) t x js db ↔ p.Holds E G (Q t) x db := by
  intro p
  induction p with
  | ret a | fail e =>
    intro x js db
    exact forall₂_congr fun _ _ => iff_of_eq (true_and _)
  | sql s k ih =>
    intro x js db
    refine forall₂_congr fun db' _ => (iff_of_eq (true_and _)).trans ?_
    exact (forall_prop_of_true trivial).trans (ih _)
  | ctl m k ih =>
    intro x js db
    exact forall₂_congr fun db' _ => (iff_of_eq (true_and _)).trans (ih _)
  | send j k ih =>
    intro x js db
    exact forall₂_congr fun db' _ => (iff_of_eq (true_and _)).trans (and_congr (ih _) (ih _))

variable [DecidableEq ι] [Fintype ι] [DecidableEq σ.Lock]

/-- **Rely-guarantee rule, without terms.** Requests that each hold their check
against commits of the kind `G`, and commit nothing else, are governed by it. -/
theorem run_governed {p : ι → Prog σ α} {db : σ.St}
    (holds : ∀ t, (p t).Holds E G (Q t) {} db)
    (guarantee : ∀ t a x db, Q t (.ok a) x db → x.broken = false → G db x.writes)
    (as : List (Action ι)) {c : Config σ ι α} (h : (Config.start db p).run E as = some c) :
    Governed E G Q db c := by
  have anything : ∀ (c : Config σ ι α) a, c.Permits E (terms G Q) a :=
    fun _ _ => ⟨fun _ _ _ => trivial, fun _ _ _ _ _ => trivial⟩
  have permitted : (Config.start db p).Along E (Config.Permits E (terms G Q)) as :=
    (Config.along_true E as _).mono fun c a _ => anything c a
  have paid : Paid E (terms G Q) db c := Paid.run_paid (fun t => pays_iff.2 (holds t))
    (fun t a x _ db => guarantee t a x db) as h permitted
  refine ⟨paid.apart, ?_, ?_, ?_, ?_⟩
  · intro t p x here
    exact (paid.running here).1
  · intro t p x here
    exact pays_iff.1 (paid.running here).2
  · intro t a here
    have pays := paid.pays t
    rw [here] at pays
    exact pays
  · exact fun d hd => ⟨paid.reached d hd, paid.since hd⟩

/-- A COMMIT meets `ok` in the state it is made in. -/
def CommitsUnder (ok : ι → Session σ → σ.St → Prop) (c : Config σ ι α) (a : Action ι) : Prop :=
  ∀ t ∈ a.request, ∀ x ∈ c.commits a, ok t x c.db

instance (ok : ι → Session σ → σ.St → Prop) [∀ t x db, Decidable (ok t x db)]
    (c : Config σ ι α) (a : Action ι) : Decidable (CommitsUnder ok c a) :=
  inferInstanceAs (Decidable (∀ t ∈ a.request, ∀ x ∈ c.commits a, ok t x c.db))

/-- **Conditional record.** If every COMMIT meets `ok` and then keeps `I`, leads to
a state that is `R` to the one before it, and makes `P` true, then `I` holds in
every committed state, each is `R` to all the earlier ones, and each committed
request made its `P` true in one of them. -/
theorem run_recorded {I : σ.St → Prop} {R : σ.St → σ.St → Prop} {P : ι → σ.St → Prop}
    {ok : ι → Session σ → σ.St → Prop} {p : ι → Prog σ α} {db : σ.St}
    (holds : ∀ t, (p t).Holds E G (Q t) {} db)
    (guarantee : ∀ t a x db, Q t (.ok a) x db → x.broken = false → G db x.writes)
    (trans : ∀ {a b c}, R a b → R b c → R a c)
    (keep : ∀ t a x db, Q t (.ok a) x db → x.broken = false → ok t x db → I db →
      I (x.view E db) ∧ R db (x.view E db) ∧ P t (x.view E db))
    (start : I db) (as : List (Action ι)) {c : Config σ ι α}
    (h : (Config.start db p).run E as = some c)
    (under : (Config.start db p).Along E (CommitsUnder ok) as) :
    (∀ d ∈ c.db :: c.past, I d) ∧
      (c.db :: c.past).Pairwise (fun late early => R early late) ∧
      ∀ t a, c.txs t = .committed a → ∃ d ∈ c.db :: c.past, P t d := by
  let Recorded (c : Config σ ι α) : Prop := (∀ d ∈ c.db :: c.past, I d) ∧
    (c.db :: c.past).Pairwise (fun late early => R early late) ∧
    ∀ t a, c.txs t = .committed a → ∃ d ∈ c.db :: c.past, P t d
  -- A step that commits nothing moves one request to a state that is not `committed`.
  have move : ∀ {c : Config σ ι α} {t : ι} {tx : Tx σ α}, Recorded c →
      (∀ a, tx ≠ .committed a) → Recorded (c.set t tx) := by
    intro c t tx ⟨all, ordered, made⟩ open'
    refine ⟨all, ordered, fun u a here => made u a ?_⟩
    by_cases same : u = t
    · subst same
      exact absurd (by simpa [Config.set] using here) (open' a)
    · simpa [Config.set, Function.update_of_ne same] using here
  have step : ∀ (c : Config σ ι α) a c', Paid E (terms G Q) db c ∧ Recorded c →
      CommitsUnder ok c a → c.step E a = some c' → Paid E (terms G Q) db c' ∧ Recorded c' := by
    intro c a c' ⟨paid, recorded⟩ under hs
    refine ⟨paid.step (fun t a x _ db => guarantee t a x db)
      ⟨fun _ _ _ => trivial, fun _ _ _ _ _ => trivial⟩ hs, ?_⟩
    cases Config.step_moves hs with
    | @commit t r x here sound =>
      obtain ⟨all, ordered, made⟩ := recorded
      have ends : Q t (.ok r) x c.db := pays_iff.1 (paid.running here).2 c.db .refl
      have meets : ok t x c.db := under t rfl x (by simp [Config.commits, here])
      obtain ⟨inv, leads, now⟩ := keep t r x c.db ends sound meets (all _ List.mem_cons_self)
      refine ⟨List.forall_mem_cons.2 ⟨inv, all⟩, List.pairwise_cons.2 ⟨fun d hd => ?_, ordered⟩,
        fun u a done => ?_⟩
      · rcases List.mem_cons.1 hd with rfl | hd
        · exact leads
        · exact trans ((List.pairwise_cons.1 ordered).1 d hd) leads
      · by_cases same : u = t
        · subst same
          exact ⟨_, List.mem_cons_self, now⟩
        · obtain ⟨d, hd, holds⟩ :=
            made u a (by simpa [Config.set, Function.update_of_ne same] using done)
          exact ⟨d, List.mem_cons_of_mem _ hd, holds⟩
    | lose | throw | sql | control | queueFails | crash => exact move recorded (by simp)
    | @send t j k x here => exact @move c t (.running (k (.ok ())) x) recorded (by simp)
    | take => exact recorded
  have first : Paid E (terms G Q) db (Config.start db p) ∧ Recorded (Config.start db p) := by
    refine ⟨Paid.start fun t => pays_iff.2 (holds t), fun d hd => ?_, List.pairwise_singleton _ _,
      fun t a done => by cases done⟩
    rw [List.mem_singleton.1 hd]
    exact start
  exact (Config.run_invariant E step as _ c first under h).2

/-- **Conditional invariant.** What every COMMIT keeps that meets `ok` holds in
every committed state, if all do. -/
theorem run_kept {I : σ.St → Prop} {ok : ι → Session σ → σ.St → Prop} {p : ι → Prog σ α}
    {db : σ.St} (holds : ∀ t, (p t).Holds E G (Q t) {} db)
    (guarantee : ∀ t a x db, Q t (.ok a) x db → x.broken = false → G db x.writes)
    (keep : ∀ t a x db, Q t (.ok a) x db → x.broken = false → ok t x db → I db →
      I (x.view E db))
    (start : I db) (as : List (Action ι)) {c : Config σ ι α}
    (h : (Config.start db p).run E as = some c)
    (under : (Config.start db p).Along E (CommitsUnder ok) as) : ∀ d ∈ c.db :: c.past, I d :=
  (run_recorded (R := fun _ _ => True) (P := fun _ _ => True) holds guarantee
    (fun _ _ => trivial)
    (fun t a x db ended sound meets kept =>
      ⟨keep t a x db ended sound meets kept, trivial, trivial⟩)
    start as h under).1

end Governed
end
end Dormitory.Txn
