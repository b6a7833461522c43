import Dormitory.Txn.Confined

/-!
# Interleaved programs, each confined to its part

Where every request is confined to a part of the state, the requests of one part
do not notice the others: cut down to the part, an interleaved run of them all is
a run of theirs alone.
-/

namespace Dormitory.Txn
variable {σ : Sig} {ι α : Type}

/-- The transaction with what it saw cut down to the part. -/
def Tx.within (part : σ.St → σ.St) : Tx σ α → Tx σ α
  | .running p x => .running p (x.within part)
  | .committed a => .committed a
  | .rolledBack r => .rolledBack r
  | .crashed => .crashed

@[simp] theorem Session.within_held (E : Engine σ) (part : σ.St → σ.St) (x : Session σ) :
    (x.within part).held E = x.held E := rfl

@[simp] theorem Tx.within_held (E : Engine σ) (part : σ.St → σ.St) (tx : Tx σ α) :
    (tx.within part).held E = tx.held E := by
  cases tx <;> rfl

theorem Tx.within_running {part : σ.St → σ.St} {tx : Tx σ α} {p : Prog σ α} {y : Session σ}
    (running : tx.within part = .running p y) : ∃ x, tx = .running p x ∧ x.within part = y := by
  cases tx with
  | running q x =>
    cases running
    exact ⟨x, rfl, rfl⟩
  | committed | rolledBack | crashed => cases running

/-- The action is one of the requests `mine`. -/
def Action.Of (mine : ι → Prop) (a : Action ι) : Prop := ∃ t ∈ a.request, mine t

instance (mine : ι → Prop) [DecidablePred mine] (a : Action ι) : Decidable (a.Of mine) :=
  inferInstanceAs (Decidable (∃ t ∈ a.request, mine t))

section
variable [DecidableEq ι] [Fintype ι] [DecidableEq σ.Lock] {E : Engine σ} {I : σ.St → Prop}
  {ok : ι → σ.Stmt → Prop} {own : ι → σ.Write → Prop} {R : ι → α → Prop}
  {part : σ.St → σ.St} {mine : ι → Prop} {c c' d : Config σ ι α} {a : Action ι}

/-- Every open request is confined, and so is what it has written. -/
structure Config.Parted (E : Engine σ) (I : σ.St → Prop) (ok : ι → σ.Stmt → Prop)
    (own : ι → σ.Write → Prop) (R : ι → α → Prop) (c : Config σ ι α) : Prop where
  db : I c.db
  txs : ∀ {t p x}, c.txs t = .running p x → p.Asks E I (ok t) (R t) ∧ x.Owned (own t)

/-- `d` is `c` cut down to the part and to the requests `mine`; the others, if
there are any, hold no locks. -/
structure Config.Cut (E : Engine σ) (part : σ.St → σ.St) (mine : ι → Prop) [DecidablePred mine]
    (c d : Config σ ι α) : Prop where
  db : d.db = part c.db
  txs : ∀ t, mine t → d.txs t = (c.txs t).within part
  rest : ∀ t, ¬mine t → (d.txs t).held E = []
  jobs : d.jobs = c.jobs.filter fun j => mine j.1

namespace Config.Parted
variable (confined : ∀ t, Confined E I (ok t) (own t))

omit [Fintype ι] [DecidableEq σ.Lock] in
/-- One request has moved. -/
theorem move (parted : c.Parted E I ok own R) {t : ι} {tx : Tx σ α}
    (txs : c'.txs = Function.update c.txs t tx) (db : I c'.db)
    (moved : ∀ {p x}, tx = .running p x → p.Asks E I (ok t) (R t) ∧ x.Owned (own t)) :
    c'.Parted E I ok own R := by
  refine ⟨db, fun {u p x} running => ?_⟩
  rw [txs] at running
  by_cases same : u = t
  · subst same
    rw [Function.update_self] at running
    exact moved running
  · rw [Function.update_of_ne same] at running
    exact parted.txs running

include confined

/-- **One action of an interleaved run.** -/
theorem step (parted : c.Parted E I ok own R) (stepped : c.step E a = some c') :
    c'.Parted E I ok own R := by
  cases Config.step_moves stepped with
  | @commit t r x here sound =>
    obtain ⟨-, owned⟩ := parted.txs here
    exact parted.move rfl (owned.view (confined t) parted.db) fun running => nomatch running
  | @lose t r x here broken => exact parted.move rfl parted.db fun running => nomatch running
  | @throw t e x here => exact parted.move rfl parted.db fun running => nomatch running
  | @sql t s k x here free =>
    obtain ⟨⟨asked, answered, failed⟩, owned⟩ := parted.txs here
    refine parted.move rfl parted.db fun running => ?_
    cases running
    refine ⟨?_, owned.exec (confined t) parted.db asked⟩
    cases broken : x.broken with
    | true =>
      rw [Session.exec_broken broken]
      exact failed _
    | false =>
      cases ran : E.exec s (x.view E c.db) with
      | error e =>
        rw [Session.exec_error broken ran]
        exact failed e
      | ok r =>
        rw [Session.exec_ok broken ran]
        exact answered _ r.1 r.2 (owned.view (confined t) parted.db) ran
  | @control t m k x here =>
    obtain ⟨asks, owned⟩ := parted.txs here
    refine parted.move rfl parted.db fun running => ?_
    cases running
    exact ⟨asks _, owned.control m⟩
  | @send t j k x here =>
    obtain ⟨asks, owned⟩ := parted.txs here
    refine parted.move rfl parted.db fun running => ?_
    cases running
    exact ⟨asks _, owned⟩
  | @queueFails t j k x here =>
    obtain ⟨asks, owned⟩ := parted.txs here
    refine parted.move rfl parted.db fun running => ?_
    cases running
    exact ⟨asks _, owned⟩
  | @crash t p x here => exact parted.move rfl parted.db fun running => nomatch running
  | take added fresh => exact ⟨parted.db, parted.txs⟩

end Config.Parted

namespace Config.Cut
variable [DecidablePred mine]

omit [Fintype ι] [DecidableEq σ.Lock] in
/-- One of the requests `mine` has moved in both. -/
theorem move (cut : c.Cut E part mine d) {t : ι} (here : mine t) {tx : Tx σ α}
    {d' : Config σ ι α} (txs : c'.txs = Function.update c.txs t tx)
    (txs' : d'.txs = Function.update d.txs t (tx.within part)) (db : d'.db = part c'.db)
    (jobs : d'.jobs = c'.jobs.filter fun j => mine j.1) : c'.Cut E part mine d' := by
  refine ⟨db, fun u hu => ?_, fun u hu => ?_, jobs⟩
  · rw [txs, txs']
    by_cases same : u = t
    · subst same
      rw [Function.update_self, Function.update_self]
    · rw [Function.update_of_ne same, Function.update_of_ne same]
      exact cut.txs u hu
  · have other : u ≠ t := fun same => hu (same ▸ here)
    rw [txs', Function.update_of_ne other]
    exact cut.rest u hu

omit [Fintype ι] [DecidableEq σ.Lock] in
/-- Another request has moved. -/
theorem stay (cut : c.Cut E part mine d) {t : ι} (other : ¬mine t) {tx : Tx σ α}
    (txs : c'.txs = Function.update c.txs t tx) (db : part c'.db = part c.db)
    (jobs : (c'.jobs.filter fun j => mine j.1) = c.jobs.filter fun j => mine j.1) :
    c'.Cut E part mine d := by
  refine ⟨cut.db.trans db.symm, fun u hu => ?_, cut.rest, cut.jobs.trans jobs.symm⟩
  have apart : u ≠ t := fun same => other (same ▸ hu)
  rw [txs, Function.update_of_ne apart]
  exact cut.txs u hu

omit [DecidableEq ι] [Fintype ι] [DecidableEq σ.Lock] in
/-- What is free in the whole is free in the part. -/
theorem free (cut : c.Cut E part mine d) {t : ι} {x : Session σ} (free : c.Free E t x) :
    d.Free E t (x.within part) := by
  intro u apart l hl taken
  by_cases here : mine u
  · rw [cut.txs u here, Tx.within_held] at taken
    exact free u apart l hl taken
  · rw [cut.rest u here] at taken
    cases taken

variable (confined : ∀ t, Confined E I (ok t) (own t))
  (inside : ∀ t, mine t → Inside E I (ok t) (own t) part)
  (outside : ∀ t, ¬mine t → Outside E I (own t) part)
  (parted : c.Parted E I ok own R) (cut : c.Cut E part mine d)
include confined parted cut

include inside in
/-- An action of one of the requests `mine`. -/
theorem step_mine (stepped : c.step E a = some c') {t : ι} (acts : a.request = some t)
    (here : mine t) : ∃ d', d.step E a = some d' ∧ c'.Cut E part mine d' := by
  have running : ∀ {p x}, c.txs t = .running p x → d.txs t = .running p (x.within part) :=
    fun at' => (cut.txs t here).trans (by rw [at']; rfl)
  cases Config.step_moves stepped with
  | @commit u r x at' sound =>
    obtain rfl : u = t := Option.some.inj acts
    obtain ⟨-, owned⟩ := parted.txs at'
    have seen : (x.within part).view E d.db = part (x.view E c.db) := by
      rw [cut.db]
      exact owned.view_within (confined u) (inside u here) parted.db
    refine ⟨{ d.set u (.committed r) with
        db := (x.within part).view E d.db, past := d.db :: d.past }, ?_, ?_⟩
    · simp only [Config.step, running at', Config.finish]
      exact congrArg some (if_neg (by simpa [Session.within] using sound))
    · exact cut.move here rfl rfl seen cut.jobs
  | @lose u r x at' broken =>
    obtain rfl : u = t := Option.some.inj acts
    refine ⟨d.set u (.rolledBack (.ok r)), ?_, cut.move here rfl rfl cut.db cut.jobs⟩
    simp only [Config.step, running at', Config.finish]
    exact congrArg some (if_pos broken)
  | @throw u e x at' =>
    obtain rfl : u = t := Option.some.inj acts
    refine ⟨d.set u (.rolledBack (.error e)), ?_, cut.move here rfl rfl cut.db cut.jobs⟩
    simp only [Config.step, running at', Config.finish]
  | @sql u s k x at' free =>
    obtain rfl : u = t := Option.some.inj acts
    obtain ⟨⟨asked, -, -⟩, owned⟩ := parted.txs at'
    have same := owned.exec_within (confined u) (inside u here) parted.db asked
    rw [← cut.db] at same
    refine ⟨d.set u (.running (k (x.exec E c.db s).2) ((x.exec E c.db s).1.within part)), ?_,
      cut.move here rfl rfl cut.db cut.jobs⟩
    simp only [Config.step, running at', same]
    exact if_pos (cut.free free)
  | @control u m k x at' =>
    obtain rfl : u = t := Option.some.inj acts
    have same := Session.Owned.control_within (E := E) part x m
    refine ⟨d.set u (.running (k (x.control E m).2) ((x.control E m).1.within part)), ?_,
      cut.move here rfl rfl cut.db cut.jobs⟩
    simp only [Config.step, running at', same]
  | @send u j k x at' =>
    obtain rfl : u = t := Option.some.inj acts
    refine ⟨{ d.set u (.running (k (.ok ())) (x.within part)) with jobs := d.jobs ++ [(u, j)] },
      ?_, cut.move here rfl rfl cut.db ?_⟩
    · simp only [Config.step, running at']
    · simp only [List.filter_append, cut.jobs]
      rw [List.filter_cons_of_pos (by simpa using here), List.filter_nil]
  | @queueFails u j k x at' =>
    obtain rfl : u = t := Option.some.inj acts
    refine ⟨d.set u (.running (k (.error E.queueDown)) (x.within part)), ?_,
      cut.move here rfl rfl cut.db cut.jobs⟩
    simp only [Config.step, running at']
  | @crash u p x at' =>
    obtain rfl : u = t := Option.some.inj acts
    refine ⟨d.set u .crashed, ?_, cut.move here rfl rfl cut.db cut.jobs⟩
    simp only [Config.step, running at']
  | take added fresh => cases acts

include outside in
/-- Any other action. -/
theorem step_other (stepped : c.step E a = some c') (other : ¬a.Of mine) :
    c'.Cut E part mine d := by
  have apart : ∀ {t}, a.request = some t → ¬mine t := fun acts here => other ⟨_, acts, here⟩
  cases Config.step_moves stepped with
  | @commit t r x at' sound =>
    obtain ⟨-, owned⟩ := parted.txs at'
    exact cut.stay (apart rfl) rfl
      (Outside.stores_all (outside t (apart rfl)) (confined t) parted.db owned.writes) rfl
  | @lose t r x at' broken => exact cut.stay (apart rfl) rfl rfl rfl
  | @throw t e x at' => exact cut.stay (apart rfl) rfl rfl rfl
  | @sql t s k x at' free => exact cut.stay (apart rfl) rfl rfl rfl
  | @control t m k x at' => exact cut.stay (apart rfl) rfl rfl rfl
  | @send t j k x at' =>
    refine cut.stay (apart rfl) rfl rfl ?_
    have hidden : ¬mine t := apart rfl
    simp [List.filter_append, hidden]
  | @queueFails t j k x at' => exact cut.stay (apart rfl) rfl rfl rfl
  | @crash t p x at' => exact cut.stay (apart rfl) rfl rfl rfl
  | take added fresh => exact ⟨cut.db, cut.txs, cut.rest, cut.jobs⟩

include inside outside in
/-- **Cut down to a part, an interleaved run is a run of the part's requests
alone.** -/
theorem run {as : List (Action ι)} (ran : c.run E as = some c') :
    ∃ d', d.run E (as.filter fun a => a.Of mine) = some d' ∧ c'.Cut E part mine d' := by
  induction as generalizing c d with
  | nil =>
    cases ran
    exact ⟨d, rfl, cut⟩
  | cons a as ih =>
    obtain ⟨c₁, stepped, ran⟩ := Option.bind_eq_some_iff.mp ran
    have parted₁ := parted.step confined stepped
    by_cases acts : a.Of mine
    · have ⟨t, ht, here⟩ := acts
      obtain ⟨d₁, stepped', cut₁⟩ := cut.step_mine confined inside parted stepped ht here
      obtain ⟨d', ran', cut'⟩ := ih parted₁ cut₁ ran
      refine ⟨d', ?_, cut'⟩
      rw [List.filter_cons_of_pos (by simpa using acts)]
      simp only [Config.run, stepped', Option.bind_some]
      exact ran'
    · obtain ⟨d', ran', cut'⟩ :=
        ih parted₁ (cut.step_other confined outside parted stepped acts) ran
      refine ⟨d', ?_, cut'⟩
      rw [List.filter_cons_of_neg (by simpa using acts)]
      exact ran'

end Config.Cut

omit [DecidableEq ι] [Fintype ι] [DecidableEq σ.Lock] in
/-- A run from the start: the same requests, of which only `mine` move, on the
part of the database. -/
theorem Config.start_cut [DecidablePred mine] (E : Engine σ) (part : σ.St → σ.St) (db : σ.St)
    (p : ι → Prog σ α) : (Config.start db p).Cut E part mine (Config.start (part db) p) :=
  ⟨rfl, fun _ _ => rfl, fun _ _ => rfl, rfl⟩

omit [DecidableEq ι] [Fintype ι] [DecidableEq σ.Lock] in
theorem Config.start_parted {db : σ.St} {p : ι → Prog σ α} (holds : I db)
    (asks : ∀ t, (p t).Asks E I (ok t) (R t)) : (Config.start db p).Parted E I ok own R := by
  refine ⟨holds, fun {t q x} running => ?_⟩
  cases running
  exact ⟨asks t, Session.owned_nil⟩

/-! ## Every part on its own -/

/-- The actions of the requests `mine`. -/
abbrev actions (mine : ι → Prop) [DecidablePred mine] (as : List (Action ι)) : List (Action ι) :=
  as.filter fun a => a.Of mine

variable [DecidablePred mine]

omit [DecidableEq ι] [Fintype ι] [DecidableEq σ.Lock] in
/-- What is free in the part is free in the whole, where the others take other locks. -/
theorem Config.Cut.free_whole (parted : c.Parted E I ok own R) (cut : c.Cut E part mine d) {t : ι}
    (apart : ∀ u, ¬mine u → ∀ w w', own t w → own u w' → ∀ l ∈ E.locks w, l ∉ E.locks w')
    {x : Session σ} (owned : x.Owned (own t)) (free : d.Free E t (x.within part)) :
    c.Free E t x := by
  intro u other l hl taken
  by_cases here : mine u
  · apply free u other l hl
    rwa [cut.txs u here, Tx.within_held]
  · cases running : c.txs u with
    | running p y =>
      rw [running] at taken
      obtain ⟨w, hw, locked⟩ := List.mem_flatMap.mp hl
      obtain ⟨w', hw', locked'⟩ := List.mem_flatMap.mp taken
      exact apart u here w w' (owned.writes w hw) ((parted.txs running).2.writes w' hw') l locked
        locked'
    | committed | rolledBack | crashed =>
      rw [running] at taken
      cases taken

/-- **Nobody waits for another part.** A request that can move in its part can move
in the whole. -/
theorem Config.Cut.step_whole (confined : ∀ t, Confined E I (ok t) (own t))
    (inside : ∀ t, mine t → Inside E I (ok t) (own t) part)
    (apart : ∀ t u, mine t → ¬mine u → ∀ w w', own t w → own u w' →
      ∀ l ∈ E.locks w, l ∉ E.locks w')
    (parted : c.Parted E I ok own R) (cut : c.Cut E part mine d) {d' : Config σ ι α}
    (stepped : d.step E a = some d') {t : ι} (acts : a.request = some t) (here : mine t) :
    (c.step E a).isSome := by
  have whole : ∀ {p y}, d.txs t = .running p y →
      ∃ x, c.txs t = .running p x ∧ x.within part = y :=
    fun running => Tx.within_running ((cut.txs t here).symm.trans running)
  cases Config.step_moves stepped with
  | @commit u r y at' =>
    obtain rfl : u = t := Option.some.inj acts
    obtain ⟨x, running, -⟩ := whole at'
    simp only [Config.step, running, Option.isSome_some]
  | @lose u r y at' =>
    obtain rfl : u = t := Option.some.inj acts
    obtain ⟨x, running, -⟩ := whole at'
    simp only [Config.step, running, Option.isSome_some]
  | @throw u e y at' =>
    obtain rfl : u = t := Option.some.inj acts
    obtain ⟨x, running, -⟩ := whole at'
    simp only [Config.step, running, Option.isSome_some]
  | @sql u s k y at' free =>
    obtain rfl : u = t := Option.some.inj acts
    obtain ⟨x, running, rfl⟩ := whole at'
    obtain ⟨⟨asked, -, -⟩, owned⟩ := parted.txs running
    have same := owned.exec_within (confined u) (inside u here) parted.db asked
    rw [← cut.db] at same
    rw [same] at free
    have free' := cut.free_whole parted (fun v other => apart u v here other)
      (owned.exec (confined u) parted.db asked) free
    simp only [Config.step, running, if_pos free', Option.isSome_some]
  | @control u m k y at' =>
    obtain rfl : u = t := Option.some.inj acts
    obtain ⟨x, running, -⟩ := whole at'
    simp only [Config.step, running, Option.isSome_some]
  | @send u j k y at' =>
    obtain rfl : u = t := Option.some.inj acts
    obtain ⟨x, running, -⟩ := whole at'
    simp only [Config.step, running, Option.isSome_some]
  | @queueFails u j k y at' =>
    obtain rfl : u = t := Option.some.inj acts
    obtain ⟨x, running, -⟩ := whole at'
    simp only [Config.step, running, Option.isSome_some]
  | @crash u p y at' =>
    obtain rfl : u = t := Option.some.inj acts
    obtain ⟨x, running, -⟩ := whole at'
    simp only [Config.step, running, Option.isSome_some]
  | take added fresh => cases acts

/-- **The requests of all parts run exactly when those of every part run alone**, and
then they leave in every part what those leave. -/
theorem Config.Cut.runs {κ : Type} [DecidableEq κ] {who : ι → κ} {part : κ → σ.St → σ.St}
    {d : κ → Config σ ι α} (confined : ∀ t, Confined E I (ok t) (own t))
    (inside : ∀ t, Inside E I (ok t) (own t) (part (who t)))
    (outside : ∀ t k, who t ≠ k → Outside E I (own t) (part k))
    (apart : ∀ t u, who t ≠ who u → ∀ w w', own t w → own u w' → ∀ l ∈ E.locks w, l ∉ E.locks w')
    (parted : c.Parted E I ok own R) (cut : ∀ k, c.Cut E (part k) (fun t => who t = k) (d k))
    {as : List (Action ι)} (requests : ∀ a ∈ as, a.request ≠ none)
    (alone : ∀ k, ∃ d', (d k).run E (actions (fun t => who t = k) as) = some d') :
    ∃ c', c.run E as = some c' := by
  induction as generalizing c d with
  | nil => exact ⟨c, rfl⟩
  | cons a as ih =>
    have inside' : ∀ k t, who t = k → Inside E I (ok t) (own t) (part k) :=
      fun k t here => here ▸ inside t
    obtain ⟨t, acts⟩ := Option.ne_none_iff_exists'.mp (requests a List.mem_cons_self)
    have mine : a.Of fun u => who u = who t := ⟨t, acts, rfl⟩
    obtain ⟨d', ran⟩ := alone (who t)
    rw [actions, List.filter_cons_of_pos (by simpa using mine)] at ran
    obtain ⟨d₁, stepped, -⟩ := Option.bind_eq_some_iff.mp ran
    obtain ⟨c₁, whole⟩ := Option.isSome_iff_exists.mp <|
      (cut (who t)).step_whole confined (inside' _)
        (fun u v here other => apart u v fun same => other (same.symm.trans here)) parted stepped
        acts rfl
    have next : ∀ k, ∃ dk, c₁.Cut E (part k) (fun t => who t = k) dk ∧
        ∃ d', dk.run E (actions (fun t => who t = k) as) = some d' := by
      intro k
      obtain ⟨d', ran⟩ := alone k
      by_cases here : who t = k
      · obtain ⟨dk, stepped', cut'⟩ := (cut k).step_mine confined (inside' k) parted whole acts here
        rw [actions, List.filter_cons_of_pos (by simpa using ⟨t, acts, here⟩)] at ran
        obtain ⟨dk', stepped'', ran⟩ := Option.bind_eq_some_iff.mp ran
        obtain rfl := Option.some.inj (stepped'.symm.trans stepped'')
        exact ⟨dk, cut', d', ran⟩
      · have other : ¬a.Of fun u => who u = k := by
          rintro ⟨u, acts', same⟩
          obtain rfl := Option.some.inj (acts.symm.trans acts')
          exact here same
        rw [actions, List.filter_cons_of_neg (by simpa using other)] at ran
        have cut' := (cut k).step_other confined (fun u => outside u k) parted whole other
        exact ⟨d k, cut', d', ran⟩
    choose d₂ cut₂ alone₂ using next
    obtain ⟨c', ran'⟩ := ih (parted.step confined whole) cut₂
      (fun a ha => requests a (List.mem_cons_of_mem _ ha)) alone₂
    exact ⟨c', Option.bind_eq_some_iff.mpr ⟨c₁, whole, ran'⟩⟩

end
end Dormitory.Txn
