import Dormitory.Txn.ReadCommitted

/-!
# Jobs and commits

A job leaves its transaction at once, the change it announces only with the
COMMIT. `Prog.Ends` checks one request: by the time it returns, its writes bear
out every job it has added. `run_announced` carries that to interleaved runs in
which no request fails once it has added a job, and no job is taken before the
request that added it is over.
-/

namespace Dormitory.Txn

section
variable {σ : Sig} {ι α β : Type}

/-- The program ends in `Q`, which is about its answer, its session and the
jobs it has added. Statements may fail only as long as it has added none. -/
def Prog.Ends (E : Engine σ) (Q : Except σ.Err α → Session σ → List σ.Job → Prop) :
    Prog σ α → Session σ → List σ.Job → Prop
  | ret a, x, js => Q (.ok a) x js
  | fail e, x, js => Q (.error e) x js
  | sql s k, x, js => ∀ db, (js ≠ [] → (x.exec E db s).2.isOk) →
      (k (x.exec E db s).2).Ends E Q (x.exec E db s).1 js
  | ctl c k, x, js => (k (x.control E c).2).Ends E Q (x.control E c).1 js
  | send j k, x, js =>
    (k (.ok ())).Ends E Q x (js ++ [j]) ∧ (k (.error E.queueDown)).Ends E Q x js

/-- A statement that succeeds. -/
theorem Session.exec_isOk {E : Engine σ} {db : σ.St} {s : σ.Stmt} {x : Session σ}
    (h : (x.exec E db s).2.isOk) : ∃ ws a, E.exec s (x.view E db) = .ok (ws, a) ∧
      x.exec E db s =
        (⟨x.writes ++ ws, x.saves, false, x.trace ++ [(s, x.view E db)]⟩, .ok a) := by
  obtain ⟨writes, saves, broken, trace⟩ := x
  unfold Session.exec at h ⊢
  cases broken with
  | true => simp [Except.isOk, Except.toBool] at h
  | false =>
    simp only [Bool.false_eq_true, if_false] at h ⊢
    split at h
    · simp [Except.isOk, Except.toBool] at h
    · rename_i ws a ran
      exact ⟨ws, a, ran, rfl⟩

namespace Prog
variable {E : Engine σ} {Q : Except σ.Err α → Session σ → List σ.Job → Prop}

/-- The rule for `>>=`. -/
theorem Ends.bind {f : α → Prog σ β} {R : Except σ.Err β → Session σ → List σ.Job → Prop}
    (ok : ∀ a x js, Q (.ok a) x js → (f a).Ends E R x js)
    (error : ∀ e x js, Q (.error e) x js → R (.error e) x js) :
    ∀ (p : Prog σ α) {x : Session σ} {js : List σ.Job}, p.Ends E Q x js →
      (p >>= f).Ends E R x js := by
  intro p
  induction p with
  | ret a => exact fun h => ok a _ _ h
  | fail e => exact fun h => error e _ _ h
  | sql s k ih => exact fun h db sound => ih _ (h db sound)
  | ctl c k ih => exact fun h => ih _ h
  | send j k ih => exact fun h => ⟨ih _ h.1, ih _ h.2⟩

end Prog

/-- A request that returns has written what its jobs say, in a transaction that
is not broken. One that throws has added no job. -/
def Owes (E : Engine σ) (P : σ.Job → σ.St → Prop) :
    Except σ.Err α → Session σ → List σ.Job → Prop
  | .ok _, x, js => js ≠ [] → x.broken = false ∧ ∀ j ∈ js, ∀ db, P j (x.view E db)
  | .error _, _, js => js = []

/-! ## Interleaved runs -/

def Tx.ended : Tx σ α → Bool
  | .running _ _ => false
  | _ => true

/-- Where a request stands that has added the jobs `js`. -/
def Tx.Stands (E : Engine σ) (P : σ.Job → σ.St → Prop) (states : List σ.St) (js : List σ.Job) :
    Tx σ α → Prop
  | .running p x => p.Ends E (Owes E P) x js
  | .committed _ => ∀ j ∈ js, ∃ d ∈ states, P j d
  | .rolledBack _ | .crashed => js = []

namespace Config
variable [DecidableEq ι]

/-- The jobs that `t` has added. -/
def jobsOf (c : Config σ ι α) (t : ι) : List σ.Job :=
  (c.jobs.filter fun j => j.1 = t).map Prod.snd

/-- The action comes in time: a request that has added a job neither crashes
nor runs a statement that fails, and a job is taken when the request that added
it is over. -/
def Timely (E : Engine σ) (c : Config σ ι α) : Action ι → Prop
  | .advance t => c.jobsOf t ≠ [] → ∀ e ∈ c.executes (.advance t), (e.2.exec E c.db e.1).2.isOk
  | .queueFails _ => True
  | .crash t => c.jobsOf t = []
  | .take n => ∀ j ∈ c.jobs[n]?, (c.txs j.1).ended

instance (E : Engine σ) (c : Config σ ι α) : ∀ a, Decidable (c.Timely E a)
  | .advance t => inferInstanceAs (Decidable (c.jobsOf t ≠ [] →
      ∀ e ∈ c.executes (.advance t), (e.2.exec E c.db e.1).2.isOk))
  | .queueFails _ => isTrue trivial
  | .crash t => inferInstanceAs (Decidable (c.jobsOf t = []))
  | .take n => inferInstanceAs (Decidable (∀ j ∈ c.jobs[n]?, (c.txs j.1).ended))

/-- Every job is borne out by its request, and every taken one by a committed
request and a committed state. -/
structure Announced (E : Engine σ) (P : ι → σ.Job → σ.St → Prop) (c : Config σ ι α) : Prop where
  stands : ∀ t, (c.txs t).Stands E (P t) (c.db :: c.past) (c.jobsOf t)
  taken : ∀ n ∈ c.taken, ∃ t j, c.jobs[n]? = some (t, j) ∧ (∃ a, c.txs t = .committed a) ∧
    ∃ d ∈ c.db :: c.past, P t j d

theorem mem_jobsOf {c : Config σ ι α} {t : ι} {j : σ.Job} : j ∈ c.jobsOf t ↔ (t, j) ∈ c.jobs := by
  simp [jobsOf]

theorem jobsOf_append {c c' : Config σ ι α} {t : ι} {js : List σ.Job}
    (jobs : c'.jobs = c.jobs ++ js.map fun j => (t, j)) (u : ι) :
    c'.jobsOf u = if u = t then c.jobsOf t ++ js else c.jobsOf u := by
  unfold jobsOf
  rw [jobs, List.filter_append, List.map_append]
  split
  · rename_i same
    subst same
    congr 1
    rw [List.filter_eq_self.2 (by simp), List.map_map]
    exact List.map_id js
  · rename_i other
    have foreign : (js.map fun j => (t, j)).filter (fun j => j.1 = u) = [] := by
      simp [List.filter_eq_nil_iff, Ne.symm other]
    rw [foreign, List.map_nil, List.append_nil]

namespace Announced
variable {E : Engine σ} {P : ι → σ.Job → σ.St → Prop} {c c' : Config σ ι α}

theorem start {db : σ.St} {p : ι → Prog σ α} (ends : ∀ t, (p t).Ends E (Owes E (P t)) {} []) :
    Announced E P (Config.start db p) := ⟨ends, fun _ hn => by cases hn⟩

theorem running (h : Announced E P c) {t : ι} {p : Prog σ α} {x : Session σ}
    (here : c.txs t = .running p x) : p.Ends E (Owes E (P t)) x (c.jobsOf t) := by
  have stands := h.stands t
  rw [here] at stands
  exact stands

/-- `t` moved to `tx` and added `js`. -/
theorem move (h : Announced E P c) {t : ι} {p : Prog σ α} {x : Session σ}
    (here : c.txs t = .running p x) (tx : Tx σ α) (js : List σ.Job)
    (htx : c'.txs = Function.update c.txs t tx)
    (jobs : c'.jobs = c.jobs ++ js.map fun j => (t, j)) (taken : c'.taken = c.taken)
    (later : ∀ d ∈ c.db :: c.past, d ∈ c'.db :: c'.past)
    (own : tx.Stands E (P t) (c'.db :: c'.past) (c.jobsOf t ++ js)) : Announced E P c' := by
  constructor
  · intro u
    rw [htx, jobsOf_append jobs u]
    by_cases same : u = t
    · subst same
      rw [Function.update_self, if_pos rfl]
      exact own
    · rw [Function.update_of_ne same, if_neg same]
      have stands := h.stands u
      cases tx' : c.txs u with
      | committed a =>
        rw [tx'] at stands
        intro j hj
        obtain ⟨d, hd, holds⟩ := stands j hj
        exact ⟨d, later d hd, holds⟩
      | running p x | rolledBack r | crashed =>
        rw [tx'] at stands
        exact stands
  · intro n hn
    rw [taken] at hn
    obtain ⟨u, j, there, ⟨a, committed⟩, d, hd, holds⟩ := h.taken n hn
    have other : u ≠ t := by
      rintro rfl
      rw [here] at committed
      cases committed
    refine ⟨u, j, ?_, ⟨a, ?_⟩, d, later d hd, holds⟩
    · rw [jobs, List.getElem?_append_left (List.getElem?_eq_some_iff.1 there).1]
      exact there
    · rw [htx, Function.update_of_ne other]
      exact committed

/-- `t` moved to `tx` and added no job. -/
theorem stay (h : Announced E P c) {t : ι} {p : Prog σ α} {x : Session σ}
    (here : c.txs t = .running p x) (tx : Tx σ α)
    (htx : c'.txs = Function.update c.txs t tx) (jobs : c'.jobs = c.jobs)
    (taken : c'.taken = c.taken) (later : ∀ d ∈ c.db :: c.past, d ∈ c'.db :: c'.past)
    (own : tx.Stands E (P t) (c'.db :: c'.past) (c.jobsOf t)) : Announced E P c' := by
  refine h.move here tx [] htx ?_ taken later ?_
  · rw [jobs, List.map_nil, List.append_nil]
  · rw [List.append_nil]
    exact own

variable [Fintype ι] [DecidableEq σ.Lock]

theorem step (h : Announced E P c) {a : Action ι} (timely : c.Timely E a)
    (hs : c.step E a = some c') : Announced E P c' := by
  cases Config.step_moves hs with
  | @commit t a x here =>
    have owes : Owes E (P t) (.ok a) x (c.jobsOf t) := h.running here
    refine h.stay here (.committed a) rfl rfl rfl (fun _ hd => List.mem_cons_of_mem _ hd) ?_
    intro j hj
    exact ⟨_, List.mem_cons_self, (owes (List.ne_nil_of_mem hj)).2 j hj c.db⟩
  | @lose t a x here broken =>
    have owes : Owes E (P t) (.ok a) x (c.jobsOf t) := h.running here
    have quiet : c.jobsOf t = [] := by
      by_contra sent
      simp [(owes sent).1] at broken
    exact h.stay here (.rolledBack (.ok a)) rfl rfl rfl (fun _ hd => hd) quiet
  | @throw t e x here =>
    exact h.stay here (.rolledBack (.error e)) rfl rfl rfl (fun _ hd => hd) (h.running here)
  | @sql t s k x here =>
    refine h.stay here _ rfl rfl rfl (fun _ hd => hd) ?_
    exact h.running here c.db fun sent => timely sent (s, x) (by simp [executes, here])
  | @control t m k x here =>
    have ends := h.running here
    exact h.stay here _ rfl rfl rfl (fun _ hd => hd) ends
  | @send t j k x here =>
    exact h.move here (.running (k (.ok ())) x) [j] rfl rfl rfl (fun _ hd => hd) (h.running here).1
  | @queueFails t j k x here =>
    exact h.stay here (.running (k (.error E.queueDown)) x) rfl rfl rfl (fun _ hd => hd)
      (h.running here).2
  | @crash t p x here => exact h.stay here .crashed rfl rfl rfl (fun _ hd => hd) timely
  | @take n added =>
    refine ⟨h.stands, fun m hm => ?_⟩
    rcases List.mem_cons.1 hm with rfl | hm
    · obtain ⟨⟨t, j⟩, there⟩ := Option.isSome_iff_exists.1
        (by simpa using added : (c.jobs[m]?).isSome)
      have ended := timely (t, j) there
      have stands := h.stands t
      have mem : j ∈ c.jobsOf t := mem_jobsOf.2 (List.mem_of_getElem? there)
      cases htx : c.txs t with
      | running p x => simp [Tx.ended, htx] at ended
      | committed a =>
        rw [htx] at stands
        exact ⟨t, j, there, ⟨a, htx⟩, stands j mem⟩
      | rolledBack r | crashed =>
        rw [htx] at stands
        rw [stands] at mem
        cases mem
    · exact h.taken m hm

/-- **Jobs follow commits.** If every request in turn writes what its jobs say,
then in every timely run a taken job is borne out by its committed request. -/
theorem run_announced {p : ι → Prog σ α} {db : σ.St} (ends : ∀ t, (p t).Ends E (Owes E (P t)) {} [])
    (as : List (Action ι)) {c : Config σ ι α} (h : (Config.start db p).run E as = some c)
    (timely : (Config.start db p).Along E (Timely E) as) : Announced E P c := by
  have keep : ∀ (c : Config σ ι α) a c', Announced E P c → c.Timely E a → c.step E a = some c' →
      Announced E P c' := fun _ _ _ ha timely hs => ha.step timely hs
  exact Config.run_invariant E keep as _ c (start ends) timely h

end Announced
end Config
end
end Dormitory.Txn
