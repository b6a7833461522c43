import Dormitory.Txn.ReadCommitted

/-!
# Abstract transactions

A `Machine` says what a kind of request does to the database, stage by stage,
without its program: at a stage, a statement on the view `v` writes `ws` and
leads to a next stage. `Follows` ties a program to a machine, `World` runs the
machines of many requests against one committed state, and `run_world` is the
refinement between the two levels: what the permitted steps of the world
preserve holds after every permitted run of the programs.

Machines say nothing about failed statements. A request that meets one, throws
or loses its connection leaves the world, because without savepoints it can no
longer commit a write (`Doomed`).
-/

namespace Dormitory.Txn

structure Machine (σ : Sig) (M : Type) where
  step : M → σ.Stmt → σ.St → List σ.Write → M → Prop
  emits : M → σ.Job → M → Prop
  done : M → Prop

/-- The program does what the machine allows at stage `m`. -/
def Prog.Follows {σ : Sig} {M α : Type} (E : Engine σ) (A : Machine σ M) : M → Prog σ α → Prop
  | m, .ret _ => A.done m
  | _, .fail _ => True
  | m, .sql s k => ∀ v ws a, E.exec s v = .ok (ws, a) →
      ∃ m', A.step m s v ws m' ∧ (k (.ok a)).Follows E A m'
  | _, .ctl _ _ => False
  | m, .send j k => ∃ m', A.emits m j m' ∧ ∀ r, (k r).Follows E A m'

/-- A request that can still commit. -/
structure Live (σ : Sig) (M : Type) where
  stage : M
  writes : List σ.Write := []
  trace : List (σ.Stmt × σ.St) := []

structure World (σ : Sig) (ι M : Type) where
  db : σ.St
  live : ι → Option (Live σ M)
  past : List σ.St := []

/-- What a step of the world was. -/
inductive Event (σ : Sig) (ι : Type) where
  | exec (t : ι) (s : σ.Stmt)
  | emit (t : ι) (j : σ.Job)
  | commit (t : ι)
  | drop (t : ι)

section
variable {σ : Sig} {ι M α : Type}

def Live.view (E : Engine σ) (db : σ.St) (l : Live σ M) : σ.St := l.writes.foldl E.apply db

def Live.held (E : Engine σ) (l : Live σ M) : List σ.Lock := l.writes.flatMap E.locks

namespace World

/-- No two live requests hold one lock. -/
def Exclusive (E : Engine σ) (w : World σ ι M) : Prop :=
  ∀ t u l r, t ≠ u → w.live t = some l → w.live u = some r → ∀ k ∈ l.held E, k ∉ r.held E

def start (db : σ.St) (m : ι → M) : World σ ι M := { db := db, live := fun t => some ⟨m t, [], []⟩ }

theorem start_exclusive (E : Engine σ) (db : σ.St) (m : ι → M) : (start db m).Exclusive E := by
  intro t u l r _ hl hr k hk
  cases hl
  simp [Live.held] at hk

variable [DecidableEq ι]

/-- `t` becomes `o`. -/
def put (w : World σ ι M) (t : ι) (o : Option (Live σ M)) : World σ ι M :=
  { w with live := Function.update w.live t o }

@[simp] theorem put_db (w : World σ ι M) (t : ι) (o : Option (Live σ M)) : (w.put t o).db = w.db :=
  rfl

@[simp] theorem put_past (w : World σ ι M) (t : ι) (o : Option (Live σ M)) :
    (w.put t o).past = w.past := rfl

@[simp] theorem put_live_self (w : World σ ι M) (t : ι) (o : Option (Live σ M)) :
    (w.put t o).live t = o := Function.update_self ..

theorem put_live_ne (w : World σ ι M) {t u : ι} (o : Option (Live σ M)) (h : u ≠ t) :
    (w.put t o).live u = w.live u := Function.update_of_ne h ..

theorem live_put (w : World σ ι M) (t u : ι) (o : Option (Live σ M)) (r : Live σ M) :
    (w.put t o).live u = some r ↔ (u = t ∧ o = some r) ∨ (u ≠ t ∧ w.live u = some r) := by
  by_cases h : u = t
  · subst h; simp
  · simp [put_live_ne w o h, h]

inductive Step (E : Engine σ) (A : Machine σ M) (w : World σ ι M) :
    Event σ ι → World σ ι M → Prop
  | exec (t : ι) (l : Live σ M) (s : σ.Stmt) (ws : List σ.Write) (m : M)
      (here : w.live t = some l) (does : A.step l.stage s (l.view E w.db) ws m)
      (free : ∀ u r, u ≠ t → w.live u = some r →
        ∀ k ∈ (l.writes ++ ws).flatMap E.locks, k ∉ r.held E) :
      Step E A w (.exec t s)
        (w.put t (some ⟨m, l.writes ++ ws, l.trace ++ [(s, l.view E w.db)]⟩))
  | emit (t : ι) (l : Live σ M) (j : σ.Job) (m : M)
      (here : w.live t = some l) (does : A.emits l.stage j m) :
      Step E A w (.emit t j)
        (w.put t (some { l with stage := m }))
  | commit (t : ι) (l : Live σ M) (here : w.live t = some l) (ready : A.done l.stage) :
      Step E A w (.commit t)
        { w.put t none with db := l.view E w.db, past := w.db :: w.past }
  | drop (t : ι) : Step E A w (.drop t) (w.put t none)

/-- The rule for what holds of each live request: its own statements and jobs
keep it, and the commits of the others do. -/
theorem Step.live {E : Engine σ} {A : Machine σ M} {w w' : World σ ι M} {e : Event σ ι}
    {P : σ.St → Live σ M → Prop} (h : Step E A w e w')
    (all : ∀ t l, w.live t = some l → P w.db l)
    (exec : ∀ t l s ws m, w.live t = some l → e = .exec t s →
      A.step l.stage s (l.view E w.db) ws m →
      P w.db ⟨m, l.writes ++ ws, l.trace ++ [(s, l.view E w.db)]⟩)
    (emit : ∀ t l j m, w.live t = some l → A.emits l.stage j m → P w.db { l with stage := m })
    (commit : ∀ t l u r, w.live t = some l → A.done l.stage → u ≠ t → w.live u = some r →
      e = .commit t → P (l.view E w.db) r) :
    ∀ t l, w'.live t = some l → P w'.db l := by
  intro u r hr
  cases h with
  | exec t l s ws m here does free =>
    rcases (live_put w t u _ r).1 hr with ⟨-, same⟩ | ⟨-, hr⟩
    · cases same
      exact exec t l s ws m here rfl does
    · exact all u r hr
  | emit t l j m here does =>
    rcases (live_put w t u _ r).1 hr with ⟨-, same⟩ | ⟨-, hr⟩
    · cases same
      exact emit t l j m here does
    · exact all u r hr
  | commit t l here ready =>
    rcases (live_put w t u none r).1 hr with ⟨-, same⟩ | ⟨hu, hr⟩
    · cases same
    · exact commit t l u r here ready hu hr rfl
  | drop t =>
    rcases (live_put w t u none r).1 hr with ⟨-, same⟩ | ⟨-, hr⟩
    · cases same
    · exact all u r hr

theorem put_exclusive {E : Engine σ} {w : World σ ι M} (hx : w.Exclusive E) (t : ι)
    (o : Option (Live σ M))
    (free : ∀ l, o = some l → ∀ u r, u ≠ t → w.live u = some r → ∀ k ∈ l.held E, k ∉ r.held E) :
    (w.put t o).Exclusive E := by
  intro a b p q hab hp hq k hk hk'
  rw [live_put] at hp hq
  rcases hp with ⟨rfl, hp⟩ | ⟨ha, hp⟩ <;> rcases hq with ⟨rfl, hq⟩ | ⟨hb, hq⟩
  · exact hab rfl
  · exact free p hp b q hb hq k hk hk'
  · exact free q hq a p ha hp k hk' hk
  · exact hx a b p q hab hp hq k hk hk'

theorem step_exclusive {E : Engine σ} {A : Machine σ M} {w w' : World σ ι M} {e : Event σ ι}
    (h : Step E A w e w') (hx : w.Exclusive E) : w'.Exclusive E := by
  cases h with
  | exec t l s ws m here does free =>
    apply put_exclusive hx
    intro p hp u r hu hr
    cases hp
    exact free u r hu hr
  | emit t l j m here does =>
    apply put_exclusive hx
    intro p hp u r hu hr
    cases hp
    exact hx t u l r (Ne.symm hu) here hr
  | commit t l here ready => exact put_exclusive hx t none (fun _ h => by cases h)
  | drop t => exact put_exclusive hx t none (fun _ h => by cases h)

end World

/-- A transaction that can no longer commit a write. -/
def Doomed : Tx σ α → Prop
  | .running _ x => x.broken = true ∧ x.saves = []
  | _ => True

/-- The request's transaction is the live one `l`. -/
def Embodies (E : Engine σ) (A : Machine σ M) (l : Live σ M) (tx : Tx σ α) : Prop :=
  ∃ p, tx = .running p ⟨l.writes, [], false, l.trace⟩ ∧ p.Follows E A l.stage

structure Refines (E : Engine σ) (A : Machine σ M) (c : Config σ ι α) (w : World σ ι M) :
    Prop where
  db : c.db = w.db
  past : c.past = w.past
  live : ∀ t l, w.live t = some l → Embodies E A l (c.txs t)
  gone : ∀ t, w.live t = none → Doomed (c.txs t)

/-- The action of the configuration that a world step stands for. -/
def Shows (c : Config σ ι α) (a : Action ι) : Event σ ι → Prop
  | .exec t s => a = .advance t ∧ ∃ k x, c.txs t = .running (.sql s k) x
  | .emit t j => (a = .advance t ∨ a = .queueFails t) ∧ ∃ k x, c.txs t = .running (.send j k) x
  | .commit t => a = .advance t ∧ ∃ r x, c.txs t = .running (.ret r) x
  | .drop t => a = .advance t ∨ a = .crash t

namespace Refines
variable {E : Engine σ} {A : Machine σ M} {c c' : Config σ ι α} {w : World σ ι M}

theorem start {db : σ.St} {p : ι → Prog σ α} {m : ι → M} (h : ∀ t, (p t).Follows E A (m t)) :
    Refines E A (Config.start db p) (World.start db m) where
  db := rfl
  past := rfl
  live t l hl := by cases hl; exact ⟨p t, rfl, h t⟩
  gone t hn := by cases hn

theorem doomed_control {x : Session σ} (m : Ctl) (h : x.broken = true ∧ x.saves = []) :
    (x.control E m).1 = x := by
  cases x with
  | mk ws ss b tr =>
    obtain ⟨rfl, rfl⟩ := h
    cases m <;> simp [Session.control]

/-- What a shown statement runs. -/
theorem shows_exec (h : Refines E A c w) {a : Action ι} {t : ι} {s : σ.Stmt}
    (shows : Shows c a (.exec t s)) {l : Live σ M} (here : w.live t = some l) :
    c.executes a = some (s, ⟨l.writes, [], false, l.trace⟩) := by
  obtain ⟨rfl, k, x, next⟩ := shows
  obtain ⟨p, running, -⟩ := h.live t l here
  rw [next] at running
  cases running
  simp [Config.executes, next]

/-- What a shown COMMIT ends. -/
theorem shows_commit (h : Refines E A c w) {a : Action ι} {t : ι} (shows : Shows c a (.commit t))
    {l : Live σ M} (here : w.live t = some l) :
    c.commits a = some ⟨l.writes, [], false, l.trace⟩ := by
  obtain ⟨rfl, r, x, next⟩ := shows
  obtain ⟨p, running, -⟩ := h.live t l here
  rw [next] at running
  cases running
  simp [Config.commits, next]

variable [DecidableEq ι]

/-- Only `t` moved: it is now `o` in the world and `tx` in the configuration. -/
theorem move (h : Refines E A c w) (t : ι) (tx : Tx σ α) (o : Option (Live σ M)) (db : σ.St)
    (past : List σ.St) (hl : ∀ l, o = some l → Embodies E A l tx) (hd : o = none → Doomed tx)
    (hdb : c'.db = db) (hpast : c'.past = past) (htx : c'.txs = Function.update c.txs t tx) :
    Refines E A c' { w.put t o with db := db, past := past } where
  db := hdb
  past := hpast
  live u r hr := by
    rw [htx]
    rcases (World.live_put w t u o r).1 hr with ⟨rfl, ho⟩ | ⟨hu, hr⟩
    · simpa using hl r ho
    · simpa [Function.update_of_ne hu] using h.live u r hr
  gone u hn := by
    rw [htx]
    change (w.put t o).live u = none at hn
    by_cases hu : u = t
    · subst hu; simpa using hd (by simpa using hn)
    · rw [World.put_live_ne w o hu] at hn
      simpa [Function.update_of_ne hu] using h.gone u hn

theorem advance (h : Refines E A c w) (t : ι) (tx : Tx σ α) (l : Live σ M)
    (hl : Embodies E A l tx) (hdb : c'.db = c.db) (hpast : c'.past = c.past)
    (htx : c'.txs = Function.update c.txs t tx) : Refines E A c' (w.put t (some l)) :=
  h.move t tx (some l) w.db w.past (fun _ he => by cases he; exact hl) (fun he => by cases he)
    (hdb.trans h.db) (hpast.trans h.past) htx

theorem leave (h : Refines E A c w) (t : ι) (tx : Tx σ α) (hd : Doomed tx) (hdb : c'.db = c.db)
    (hpast : c'.past = c.past) (htx : c'.txs = Function.update c.txs t tx) :
    Refines E A c' (w.put t none) :=
  h.move t tx none w.db w.past (fun _ he => by cases he) (fun _ => hd)
    (hdb.trans h.db) (hpast.trans h.past) htx

/-- A doomed transaction moved. -/
theorem stay (h : Refines E A c w) (t : ι) (tx : Tx σ α) (hn : w.live t = none) (hd : Doomed tx)
    (hdb : c'.db = c.db) (hpast : c'.past = c.past)
    (htx : c'.txs = Function.update c.txs t tx) : Refines E A c' w := by
  have same : w.put t none = w := by
    cases w
    simp only [World.put, World.mk.injEq, true_and, and_true]
    rw [← hn]
    exact Function.update_eq_self _ _
  exact same ▸ h.leave t tx hd hdb hpast htx

/-- A step of a doomed transaction, or of a worker, is no step of the world. -/
theorem step_gone (h : Refines E A c w) {a : Action ι}
    (hn : ∀ t, a.request = some t → w.live t = none) (moves : c.Moves E a c') :
    Refines E A c' w := by
  cases moves with
  | @commit t r x here sound =>
    have hd := here ▸ h.gone t (hn t rfl)
    rw [hd.1] at sound
    cases sound
  | @lose t r x here => exact h.stay t (.rolledBack (.ok r)) (hn t rfl) trivial rfl rfl rfl
  | @throw t e x here => exact h.stay t (.rolledBack (.error e)) (hn t rfl) trivial rfl rfl rfl
  | @sql t s k x here =>
    have hd : Doomed (.running (.sql s k) x) := here ▸ h.gone t (hn t rfl)
    refine h.stay t _ (hn t rfl) ?_ rfl rfl rfl
    simp only [Session.exec, hd.1, if_true]
    exact hd
  | @control t m k x here =>
    have hd : Doomed (.running (.ctl m k) x) := here ▸ h.gone t (hn t rfl)
    refine h.stay t _ (hn t rfl) ?_ rfl rfl rfl
    rw [doomed_control m hd]
    exact hd
  | @send t j k x here =>
    have hd : Doomed (.running (.send j k) x) := here ▸ h.gone t (hn t rfl)
    exact h.stay t (.running (k (.ok ())) x) (hn t rfl) hd rfl rfl rfl
  | @queueFails t j k x here =>
    have hd : Doomed (.running (.send j k) x) := here ▸ h.gone t (hn t rfl)
    exact h.stay t (.running (k (.error E.queueDown)) x) (hn t rfl) hd rfl rfl rfl
  | @crash t => exact h.stay t .crashed (hn t rfl) trivial rfl rfl rfl
  | take => exact ⟨h.db, h.past, h.live, h.gone⟩

variable [Fintype ι] [DecidableEq σ.Lock]

/-- **One action is one step of the world, or none.** -/
theorem step (h : Refines E A c w) {a : Action ι} (hs : c.step E a = some c') :
    Refines E A c' w ∨ ∃ e w', Shows c a e ∧ w.Step E A e w' ∧ Refines E A c' w' := by
  have moves := Config.step_moves hs
  by_cases gone : ∀ t, a.request = some t → w.live t = none
  · exact .inl (h.step_gone gone moves)
  push Not at gone
  obtain ⟨t, ht, alive⟩ := gone
  obtain ⟨l, hl⟩ := Option.ne_none_iff_exists'.1 alive
  obtain ⟨p, htx, hp⟩ := h.live t l hl
  right
  cases moves with
  | @commit _ r x here =>
    cases ht
    cases here.symm.trans htx
    refine ⟨.commit t, _, ⟨rfl, r, _, htx⟩, .commit t l hl hp, ?_⟩
    refine h.move t (.committed r) none _ _ (fun _ he => by cases he) (fun _ => trivial) ?_ ?_ rfl
    · simp only [Session.view, Live.view, h.db]
    · simp only [h.db, h.past]
  | lose here broken =>
    cases ht
    cases here.symm.trans htx
    cases broken
  | @throw _ e x here =>
    cases ht
    exact ⟨.drop t, _, .inl rfl, .drop t, h.leave t (.rolledBack (.error e)) trivial rfl rfl rfl⟩
  | @sql _ s k x here free =>
    cases ht
    cases here.symm.trans htx
    cases hx : E.exec s (l.view E w.db) with
    | error e =>
      refine ⟨.drop t, _, .inl rfl, .drop t, h.leave t _ ?_ rfl rfl rfl⟩
      simp only [Live.view] at hx
      simp [Doomed, Session.exec, Session.view, h.db, hx]
    | ok r =>
      obtain ⟨ws, b⟩ := r
      obtain ⟨m, hm, hk⟩ := hp _ _ _ hx
      simp only [Live.view] at hx
      refine ⟨.exec t s, _, ⟨rfl, k, _, htx⟩, .exec t l s ws m hl hm ?_, ?_⟩
      · intro u r hu hr b hb hb'
        refine free u hu b ?_ ?_
        · simpa [Session.exec, Session.view, h.db, hx, Session.held] using hb
        · obtain ⟨q, hq, _⟩ := h.live u r hr
          simpa [hq, Tx.held, Session.held, Live.held] using hb'
      · refine h.advance t _ _ ⟨k (.ok b), ?_, hk⟩ rfl rfl rfl
        simp [Session.exec, Session.view, Live.view, h.db, hx]
  | control here =>
    cases ht
    cases here.symm.trans htx
    exact hp.elim
  | @send _ j k x here =>
    cases ht
    cases here.symm.trans htx
    obtain ⟨m, hm, hk⟩ := hp
    exact ⟨.emit t j, _, ⟨.inl rfl, k, _, htx⟩, .emit t l j m hl hm,
      h.advance t _ { l with stage := m } ⟨_, rfl, hk _⟩ rfl rfl rfl⟩
  | @queueFails _ j k x here =>
    cases ht
    cases here.symm.trans htx
    obtain ⟨m, hm, hk⟩ := hp
    exact ⟨.emit t j, _, ⟨.inr rfl, k, _, htx⟩, .emit t l j m hl hm,
      h.advance t _ { l with stage := m } ⟨_, rfl, hk _⟩ rfl rfl rfl⟩
  | crash =>
    cases ht
    exact ⟨.drop t, _, .inr rfl, .drop t, h.leave t .crashed trivial rfl rfl rfl⟩
  | take => cases ht

end Refines

variable [DecidableEq ι] [Fintype ι] [DecidableEq σ.Lock]

/-- **Refinement rule.** If the permitted actions show only permitted steps of
the world, what those steps preserve holds of a world that the end of every
permitted run refines. -/
theorem run_world {E : Engine σ} {A : Machine σ M} (ok : Config σ ι α → Action ι → Prop)
    (ok' : World σ ι M → Event σ ι → Prop) {I : World σ ι M → Prop}
    (link : ∀ c w a e, Refines E A c w → ok c a → Shows c a e → ok' w e)
    (keep : ∀ w e w', w.Exclusive E → I w → ok' w e → w.Step E A e w' → I w') :
    ∀ (as : List (Action ι)) (c c' : Config σ ι α) (w : World σ ι M), Refines E A c w →
      w.Exclusive E → I w → c.Along E ok as → c.run E as = some c' →
      ∃ w', Refines E A c' w' ∧ w'.Exclusive E ∧ I w' := by
  intro as c c' w hr hx hi hok hrun
  suffices keep' : ∀ c a c', (∃ w, Refines E A c w ∧ w.Exclusive E ∧ I w) → ok c a →
      c.step E a = some c' → ∃ w, Refines E A c' w ∧ w.Exclusive E ∧ I w by
    exact Config.run_invariant E keep' as c c' ⟨w, hr, hx, hi⟩ hok hrun
  rintro c a c' ⟨w, hr, hx, hi⟩ hok hs
  rcases hr.step hs with stutter | ⟨e, w', shows, step, hr'⟩
  · exact ⟨w, stutter, hx, hi⟩
  · exact ⟨w', hr', World.step_exclusive step hx, keep w e w' hx hi (link c w a e hr hok shows)
      step⟩

end
end Dormitory.Txn
