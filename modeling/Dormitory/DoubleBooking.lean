import Dormitory.ContractDates
import Dormitory.Txn.Rely

/-!
# Double bookings

Contracts made and changed at the same time. The overlap check reads what is
committed before it runs, so two requests can each miss the contract of the
other; `rooms_single_booked` says what keeps the rooms booked once.
-/

namespace Dormitory

/-- The contract covers the day, its end included. -/
def ContractRow.Covers (k : ContractRow) (day : Int) : Prop :=
  k.startDate ≤ day ∧ ∀ d ∈ k.endDate, day ≤ d

namespace Leasing
open Txn ContractService

namespace Estate

/-- No two draft or active contracts of a room have a day in common. -/
def SingleBooked (e : Estate) : Prop :=
  ∀ k ∈ e.contracts.rows, ∀ k' ∈ e.contracts.rows, k.id ≠ k'.id → k.unitId = k'.unitId →
    activeLike k.status → activeLike k'.status → ∀ day, k.Covers day → ¬ k'.Covers day

/-- Contracts are made in the company of their room. -/
def OwnRooms (e : Estate) : Prop := ∀ k ∈ e.contracts.rows, UnitVisible k.companyId e k.unitId

variable {db : Estate}

theorem unit_company {c c' unitId : Id} (h : UnitVisible c db unitId)
    (h' : UnitVisible c' db unitId) : c = c' := by
  obtain ⟨u, found, rfl⟩ := h
  obtain ⟨u', found', rfl⟩ := h'
  rw [Option.mem_unique found found']

theorem OwnRooms.put (own : db.OwnRooms) {k : ContractRow}
    (room : UnitVisible k.companyId db k.unitId) :
    ({ db with contracts := db.contracts.put k } : Estate).OwnRooms := by
  intro x hx
  rcases Table.mem_put.mp hx with rfl | ⟨old, -⟩
  · exact room
  · exact own x old

theorem SingleBooked.put (single : db.SingleBooked) {k : ContractRow}
    (apart : activeLike k.status → ∀ k' ∈ db.contracts.rows, k'.id ≠ k.id → k'.unitId = k.unitId →
      activeLike k'.status → ∀ day, k.Covers day → ¬ k'.Covers day) :
    ({ db with contracts := db.contracts.put k } : Estate).SingleBooked := by
  intro x hx y hy ne room live live' day covers covers'
  rcases Table.mem_put.mp hx with rfl | ⟨oldx, nex⟩
  · rcases Table.mem_put.mp hy with rfl | ⟨oldy, ney⟩
    · exact ne rfl
    · exact apart live y oldy ney room.symm live' day covers covers'
  · rcases Table.mem_put.mp hy with rfl | ⟨oldy, -⟩
    · exact apart live' x oldx nex room live day covers' covers
    · exact single x oldx y oldy ne room live live' day covers covers'

end Estate

/-- A request on contracts. -/
inductive ContractCall where
  | create (ctx : Ctx) (newId : Id) (input : CreateContractInput)
  | update (ctx : Ctx) (id : Id) (input : UpdateContractInput)

namespace ContractCall

def ctx : ContractCall → Ctx
  | create ctx _ _ | update ctx _ _ => ctx

def prog : ContractCall → Prog leasing ContractRow
  | create ctx newId input => ContractService.create ctx newId input
  | update ctx id input => ContractService.update ctx id input

/-- The check was made for the window, and no contract that overlaps it has been
committed since. -/
def Fresh (c : Id) (w : Overlap) (x : Session leasing) (db : Estate) : Prop :=
  ∃ p ∈ x.trace, p.1 = (⟨c, .contractFindOverlap w⟩ : Statement) ∧
    ∀ k ∈ db.contracts.rows, Overlaps w k → k ∈ p.2.contracts.rows

instance (c : Id) (w : Overlap) (x : Session leasing) (db : Estate) : Decidable (Fresh c w x db) :=
  inferInstanceAs (Decidable (∃ p ∈ x.trace, p.1 = (⟨c, .contractFindOverlap w⟩ : Statement) ∧
    ∀ k ∈ db.contracts.rows, Overlaps w k → k ∈ p.2.contracts.rows))

/-- What the contract calls for, as it stands at COMMIT, was checked and is fresh. -/
def Undisturbed (x : Session leasing) (db : Estate) : ContractCall → Prop
  | create ctx _ input => Fresh ctx.companyId input.window x db
  | update ctx id input => ∀ k ∈ contract? ctx.companyId db id, Rechecks input k →
    Fresh ctx.companyId (input.window k) x db

instance (x : Session leasing) (db : Estate) :
    (call : ContractCall) → Decidable (call.Undisturbed x db)
  | .create ctx _ input => inferInstanceAs (Decidable (Fresh ctx.companyId input.window x db))
  | .update ctx id input => inferInstanceAs (Decidable (∀ k ∈ contract? ctx.companyId db id,
    Rechecks input k → Fresh ctx.companyId (input.window k) x db))

/-! ## What a request knows at its end -/

/-- What requests commit: one contract. -/
def OneContract (_ : Estate) (ws : List Row) : Prop := ∃ k, ws = [.contract k]

/-- The checks that a request made have found nothing. -/
def Checked (c : Id) (tr : List (Statement × Estate)) : Prop :=
  ∀ w s, ((⟨c, .contractFindOverlap w⟩ : Statement), s) ∈ tr → ¬ Overlapped c s w

/-- The contract that a request leaves. -/
def Leaves (ws : List Row) (db : Estate) : ContractCall → Prop
  | create ctx newId input => ∃ k, ws = [.contract k] ∧ Makes ctx newId input k ∧
    db.contracts.find? newId = none ∧ UnitVisible ctx.companyId db input.unitId
  | update ctx id input => ∃ k ∈ contract? ctx.companyId db id,
    ws = [.contract (input.patch.apply k)]

/-- Where a request may end. -/
def Outcome (call : ContractCall) : Except Failure ContractRow → Session leasing → Estate → Prop
  | .ok _, x, db => Checked call.ctx.companyId x.trace ∧ call.Leaves x.writes db
  | .error _, _, _ => True

section request
variable {S : Server} {held : List Lock} {db db' : Estate}

theorem interferes_books (others : Interferes (engine S) OneContract held db db') :
    db'.books = db.books := by
  refine others.preserves (I := fun d : Estate => d.books = db.books) ?_ rfl
  rintro d ws same ⟨k, rfl⟩ -
  exact same

theorem interferes_unit (others : Interferes (engine S) OneContract held db db') (c unitId : Id) :
    UnitVisible c db' unitId ↔ UnitVisible c db unitId := by
  rw [UnitVisible, UnitVisible, interferes_books others]

/-- A contract whose lock is held stays as it is. -/
theorem interferes_contract {id : Id} (locked : Lock.contract id ∈ held)
    (others : Interferes (engine S) OneContract held db db') :
    db'.contracts.find? id = db.contracts.find? id := by
  refine others.preserves (I := fun d : Estate => d.contracts.find? id = db.contracts.find? id)
    ?_ rfl
  rintro d ws same ⟨k, rfl⟩ apart
  have other : id ≠ k.id := by
    rintro rfl
    exact apart (.contract k.id) (by simp [engine, Row.locks]) locked
  exact (Table.find?_put_ne d.contracts other).trans same

variable {ctx : Ctx} {α : Type} {Q : Except Failure α → Session leasing → Estate → Prop}
  {tr : List (Statement × Estate)}

/-- A statement that only reads, before the request has written. -/
theorem holds_read {q : Query} {f : q.Ans → Prog leasing α} (ans : Estate → q.Ans)
    (reads : ∀ db, run S ctx.companyId db q = .ok ([], ans db))
    (next : ∀ db', Interferes (engine S) OneContract [] db db' →
      (f (ans db')).Holds (engine S) OneContract Q
        ⟨[], [], false, tr ++ [(⟨ctx.companyId, q⟩, db')]⟩ db') :
    (prisma ctx q >>= f).Holds (engine S) OneContract Q ⟨[], [], false, tr⟩ db := by
  intro db' others
  have ran : (⟨[], [], false, tr⟩ : Session leasing).exec (engine S) db' ⟨ctx.companyId, q⟩ =
      (⟨[], [], false, tr ++ [(⟨ctx.companyId, q⟩, db')]⟩, .ok (ans db')) :=
    Session.exec_ok rfl (reads db')
  rw [ran]
  exact next db' others

theorem Checked.read {c : Id} (checked : Checked c tr) {q : Query} {db : Estate}
    (passed : ∀ w, q = .contractFindOverlap w → ¬ Overlapped c db w) :
    Checked c (tr ++ [(⟨c, q⟩, db)]) := by
  intro w s mem
  rcases List.mem_append.mp mem with old | new
  · exact checked w s old
  · obtain ⟨same, rfl⟩ := Prod.mk.inj (List.mem_singleton.mp new)
    exact passed w (Statement.mk.inj same).2.symm

/-- The rule for `assertNoOverlap`. -/
theorem assertNoOverlap_holds {w : Overlap} {f : Unit → Prog leasing α}
    (checked : Checked ctx.companyId tr) (throws : ∀ e x db, Q (.error e) x db)
    (next : ∀ db' tr', Interferes (engine S) OneContract [] db db' →
      Checked ctx.companyId tr' →
      (f ()).Holds (engine S) OneContract Q ⟨[], [], false, tr'⟩ db') :
    (assertNoOverlap ctx w >>= f).Holds (engine S) OneContract Q ⟨[], [], false, tr⟩ db := by
  unfold assertNoOverlap
  rw [Prog.bind_assoc]
  refine holds_read (q := .contractFindOverlap w)
    (fun db => db.contracts.rows.find? fun k => k.companyId = ctx.companyId ∧ Overlaps w k)
    (fun _ => rfl) fun db' others => ?_
  cases found : db'.contracts.rows.find? fun k => k.companyId = ctx.companyId ∧ Overlaps w k with
  | none =>
    refine next db' _ others (checked.read fun w' same => ?_)
    cases same
    exact overlap_none_iff.mp found
  | some k => exact fun db'' _ => throws _ _ _

/-- The statement that writes, at the end of a request. -/
theorem holds_write {q : Query} {Q : Except Failure q.Ans → Session leasing → Estate → Prop}
    (throws : ∀ e x db, Q (.error e) x db)
    (ends : ∀ db' ws a, Interferes (engine S) OneContract [] db db' →
      run S ctx.companyId db' q = .ok (ws, a) →
      ∀ db'', Interferes (engine S) OneContract (ws.flatMap Row.locks) db' db'' →
        Q (.ok a) ⟨ws, [], false, tr ++ [(⟨ctx.companyId, q⟩, db')]⟩ db'') :
    (prisma ctx q).Holds (engine S) OneContract Q ⟨[], [], false, tr⟩ db := by
  rw [← Prog.bind_pure (prisma ctx q)]
  exact Prog.Holds.query throws fun db' ws a others ran db'' others' =>
    ends db' ws a others ran db'' others'

theorem create_holds (newId : Id) (input : CreateContractInput) :
    (ContractService.create ctx newId input).Holds (engine S) OneContract
      (Outcome (.create ctx newId input)) {} db := by
  unfold ContractService.create assertUnitVisible assertTenantVisible
  simp only [Prog.bind_assoc]
  refine holds_read (q := .unitFindUnique input.unitId)
    (fun db => (db.books.units.find? input.unitId).filter fun u => u.companyId = ctx.companyId)
    (fun _ => rfl) fun db₁ _ => ?_
  cases unit : (db₁.books.units.find? input.unitId).filter fun u => u.companyId = ctx.companyId with
  | none => exact fun db₂ _ => trivial
  | some u =>
  have seen : UnitVisible ctx.companyId db₁ input.unitId :=
    of_not_not fun hidden => by simp [filter_none_iff.mpr hidden] at unit
  refine holds_read (q := .tenantFindUnique input.tenantId)
    (fun db => (db.books.tenants.find? input.tenantId).filter fun t => t.companyId = ctx.companyId)
    (fun _ => rfl) fun db₂ others₂ => ?_
  cases (db₂.books.tenants.find? input.tenantId).filter fun t => t.companyId = ctx.companyId with
  | none => exact fun db₃ _ => trivial
  | some t =>
  refine assertNoOverlap_holds (fun w s mem => ?_) (fun _ _ _ => trivial)
    fun db₃ tr₃ others₃ checked => ?_
  · simp at mem
  refine holds_write (q := .contractCreate (input.data ctx newId)) (fun _ _ _ => trivial)
    fun db₄ ws a others₄ ran db₅ others₅ => ⟨checked.read (fun w same => by cases same), ?_⟩
  obtain ⟨rfl, fresh, id, company, unitId, -, startDate, endDate, status⟩ := createContract_row ran
  have locked : Lock.contract newId ∈ [Row.contract a].flatMap Row.locks := by
    simp [Row.locks, id, CreateContractInput.data]
  refine ⟨a, rfl, ⟨id, company, unitId, startDate, endDate, status⟩,
    (interferes_contract locked others₅).trans fresh, ?_⟩
  rwa [interferes_unit others₅, interferes_unit others₄, interferes_unit others₃,
    interferes_unit others₂]

theorem update_holds (id : Id) (input : UpdateContractInput) :
    (ContractService.update ctx id input).Holds (engine S) OneContract
      (Outcome (.update ctx id input)) {} db := by
  unfold ContractService.update getById
  rw [Prog.bind_assoc]
  refine holds_read (q := .contractFindUnique id) (fun db => contract? ctx.companyId db id)
    (fun _ => rfl) fun db₁ _ => ?_
  cases contract? ctx.companyId db₁ id with
  | none => exact fun db₂ _ => trivial
  | some existing =>
  have nothing : Checked ctx.companyId
      [((⟨ctx.companyId, .contractFindUnique id⟩ : Statement), db₁)] := by
    intro w s mem
    cases List.mem_singleton.mp mem
  have patch : ∀ {db tr}, Checked ctx.companyId tr →
      (prisma ctx (.contractUpdate id input.patch)).Holds (engine S) OneContract
        (Outcome (.update ctx id input)) ⟨[], [], false, tr⟩ db := by
    intro db tr checked
    refine holds_write (q := .contractUpdate id input.patch) (fun _ _ _ => trivial)
      fun db₃ ws a _ ran db₄ others₄ => ⟨checked.read (fun w same => by cases same), ?_⟩
    obtain ⟨rfl, k, found, rfl⟩ := updateContract_row ran
    have locked : Lock.contract id ∈ [Row.contract (input.patch.apply k)].flatMap Row.locks := by
      simp [Row.locks, ContractPatch.apply, contract?_id found]
    refine ⟨k, ?_, rfl⟩
    rw [contract?, interferes_contract locked others₄]
    exact found
  simp only [Prog.pure_eq, Prog.bind_ret]
  split
  · exact assertNoOverlap_holds nothing (fun _ _ _ => trivial) fun db₂ tr₂ _ checked =>
      patch checked
  · exact patch nothing

theorem prog_holds (S : Server) (db : Estate) (call : ContractCall) :
    call.prog.Holds (engine S) OneContract call.Outcome {} db := by
  cases call with
  | create ctx newId input => exact create_holds newId input
  | update ctx id input => exact update_holds id input

end request

/-! ## What a COMMIT keeps -/

section keeps
variable {db : Estate}

/-- A fresh check speaks for the committed contracts of the room. -/
theorem Fresh.free {c : Id} {w : Overlap} {x : Session leasing} (fresh : Fresh c w x db)
    (checked : Checked c x.trace) : ¬ Overlapped c db w := by
  rintro ⟨k, stored, own, overlaps⟩
  obtain ⟨⟨_, s⟩, made, rfl, since⟩ := fresh
  exact checked w s made ⟨k, since k stored overlaps, own, overlaps⟩

/-- Contracts that share a day pass for overlapping in the two-inequality test. -/
theorem overlaps_of_covers {w : Overlap} {k k' : ContractRow} {day : Int}
    (other : ∀ id ∈ w.excludeId, k'.id ≠ id) (room : k'.unitId = w.unitId)
    (live : activeLike k'.status) (start : w.newStart = k.startDate) (ends : w.newEnd = k.endDate)
    (covers : k.Covers day) (covers' : k'.Covers day) : Overlaps w k' := by
  refine ⟨other, room, by simpa [activeLike] using live, fun d hd => ?_, fun d hd => ?_⟩
  · exact covers'.1.trans (covers.2 d (ends ▸ hd))
  · rw [start]
    exact covers.1.trans (covers'.2 d hd)

end keeps
end ContractCall

namespace Estate.SingleBooked
variable {db : Estate} {ctx : Ctx} {k : ContractRow}

/-- A contract whose room is free for its time is booked beside all others. -/
theorem put_free {w : Overlap} (single : db.SingleBooked) (own : db.OwnRooms)
    (room : UnitVisible ctx.companyId db k.unitId) (free : ¬ Overlapped ctx.companyId db w)
    (unitId : k.unitId = w.unitId) (start : w.newStart = k.startDate) (ends : w.newEnd = k.endDate)
    (excludes : ∀ id ∈ w.excludeId, id = k.id) :
    ({ db with contracts := db.contracts.put k } : Estate).SingleBooked := by
  refine single.put fun _ k' stored ne room' live' day covers covers' => ?_
  have company : k'.companyId = ctx.companyId := unit_company (own k' stored) (room' ▸ room)
  refine free ⟨k', stored, company, ContractCall.overlaps_of_covers ?_ (room'.trans unitId) live'
    start ends covers covers'⟩
  exact fun id excluded same => ne (same.trans (excludes id excluded))

theorem put_created {newId : Id} {input : CreateContractInput} (single : db.SingleBooked)
    (own : db.OwnRooms) (makes : Makes ctx newId input k)
    (room : UnitVisible ctx.companyId db input.unitId)
    (free : ¬ Overlapped ctx.companyId db input.window) :
    ({ db with contracts := db.contracts.put k } : Estate).SingleBooked := by
  refine single.put_free own (makes.unitId ▸ room) free makes.unitId makes.startDate.symm
    makes.endDate.symm ?_
  simp [CreateContractInput.window]

theorem put_updated {id : Id} {input : UpdateContractInput} (single : db.SingleBooked)
    (own : db.OwnRooms) (found : contract? ctx.companyId db id = some k)
    (free : Rechecks input k → ¬ Overlapped ctx.companyId db (input.window k)) :
    ({ db with contracts := db.contracts.put (input.patch.apply k) } : Estate).SingleBooked := by
  have stored := contract?_mem found
  by_cases rechecks : Rechecks input k
  · have company : k.companyId = ctx.companyId := by
      simpa using (Option.filter_eq_some_iff.mp found).2
    refine single.put_free own (company ▸ own k stored) (free rechecks) rfl rfl rfl ?_
    rintro _ ⟨⟩
    rfl
  · -- Neither the dates nor the status of the stored contract call for a check.
    refine single.put fun live k' stored' ne room live' day covers covers' => ?_
    have same : input.endDate = none ∧ activeLike k.status := by
      have live : activeLike (input.status.getD k.status) := live
      simpa [Rechecks, live] using rechecks
    have coversOld : k.Covers day := by
      have dates : (input.patch.apply k).endDate = k.endDate := by
        simp [UpdateContractInput.patch, ContractPatch.apply, same.1]
      exact ⟨covers.1, fun d hd => covers.2 d (dates ▸ hd)⟩
    exact single k stored k' stored' (Ne.symm ne) room.symm same.2 live' day coversOld covers'

end Estate.SingleBooked

namespace ContractCall
section keeps
variable {db : Estate}

theorem Outcome.writes {call : ContractCall} {a : ContractRow} {x : Session leasing}
    (ended : call.Outcome (.ok a) x db) : OneContract db x.writes := by
  cases call with
  | create ctx newId input =>
    obtain ⟨k, wrote, -⟩ := ended.2
    exact ⟨k, wrote⟩
  | update ctx id input =>
    obtain ⟨k, -, wrote⟩ := ended.2
    exact ⟨_, wrote⟩

/-- **A COMMIT** that is undisturbed keeps every room booked once. -/
theorem Outcome.keeps {call : ContractCall} {a : ContractRow} {x : Session leasing} (S : Server)
    (ended : call.Outcome (.ok a) x db) (fresh : call.Undisturbed x db)
    (kept : db.OwnRooms ∧ db.SingleBooked) :
    (x.view (engine S) db).OwnRooms ∧ (x.view (engine S) db).SingleBooked := by
  obtain ⟨own, single⟩ := kept
  obtain ⟨checked, leaves⟩ := ended
  rw [Session.view]
  cases call with
  | create ctx newId input =>
    obtain ⟨k, wrote, makes, -, room⟩ := leaves
    rw [wrote]
    have free := Fresh.free fresh checked
    refine ⟨own.put (by rwa [makes.companyId, makes.unitId]), ?_⟩
    exact single.put_created own makes room free
  | update ctx id input =>
    obtain ⟨k, found, wrote⟩ := leaves
    rw [wrote]
    refine ⟨own.put (own k (contract?_mem found)), ?_⟩
    exact single.put_updated own found fun rechecks => Fresh.free (fresh k found rechecks) checked

end keeps
end ContractCall

/-! ## Any interleaving -/

open ContractCall in
/-- **No room is booked twice for a day** in any committed state of any
interleaving of requests that make and change contracts, if every COMMIT is
undisturbed. -/
theorem rooms_single_booked {ι : Type} [Fintype ι] [DecidableEq ι] (S : Server) (e : Estate)
    (own : e.OwnRooms) (single : e.SingleBooked) (calls : ι → ContractCall)
    (as : List (Action ι)) (c : Config leasing ι ContractRow)
    (run : (Config.start e fun t => (calls t).prog).run (engine S) as = some c)
    (undisturbed : (Config.start e fun t => (calls t).prog).Along (engine S)
      (Governed.CommitsUnder fun t x db => (calls t).Undisturbed x db) as) :
    ∀ d ∈ c.db :: c.past, d.SingleBooked := by
  have kept := Governed.run_kept (G := OneContract) (Q := fun t => (calls t).Outcome)
    (I := fun d : Estate => d.OwnRooms ∧ d.SingleBooked) (fun t => prog_holds S e (calls t))
    (fun t a x db ended _ => Outcome.writes ended)
    (fun t a x db ended _ fresh kept => Outcome.keeps S ended fresh kept) ⟨own, single⟩ as run
    undisturbed
  exact fun d hd => (kept d hd).2

namespace Demo

/-- Two contracts for the vacant room, made at the same time. -/
def signings (inputs : Fin 2 → CreateContractInput) (t : Fin 2) : ContractCall :=
  .create Dormitory.Demo.ctx (101 + t) (inputs t)

def halves (t : Fin 2) : CreateContractInput := if t = 0 then firstHalf else secondHalf

def twice (_ : Fin 2) : CreateContractInput := secondHalf

/-- Both check before either inserts. -/
def skewed : List (Action (Fin 2)) :=
  [.advance 0, .advance 0, .advance 0, .advance 1, .advance 1, .advance 1, .advance 0, .advance 0,
    .advance 1, .advance 1]

def booked (inputs : Fin 2 → CreateContractInput) : Option (Config leasing (Fin 2) ContractRow) :=
  (Config.start vacant fun t => (signings inputs t).prog).run (engine Dormitory.Demo.server) skewed

theorem vacant_single : vacant.OwnRooms ∧ vacant.SingleBooked :=
  ⟨fun _ hk => (by cases hk), fun _ hk => (by cases hk)⟩

end Demo

/-- The two halves of April, signed at the same time. -/
theorem rooms_single_booked_halves :
    ((Demo.booked Demo.halves).map fun c => c.db.contracts.rows.length) = some 2 ∧
    ∀ c, Demo.booked Demo.halves = some c → ∀ d ∈ c.db :: c.past, d.SingleBooked :=
  ⟨by decide +kernel, fun c run =>
    rooms_single_booked Dormitory.Demo.server Demo.vacant Demo.vacant_single.1
      Demo.vacant_single.2 (Demo.signings Demo.halves) Demo.skewed c run (by decide +kernel)⟩

/-- Both checks pass, and both contracts of the one room are committed. -/
theorem skewed_double_booked :
    ∃ c, Demo.booked Demo.twice = some c ∧ (∀ d ∈ c.db :: c.past, d.WellDated) ∧
      ¬ c.db.SingleBooked := by
  have made : ∃ c ∈ Demo.booked Demo.twice,
      (∀ d ∈ c.db :: c.past, ∀ k ∈ d.contracts.rows, k.endDate = none) ∧
      ∃ k ∈ c.db.contracts.rows, ∃ k' ∈ c.db.contracts.rows, k.id ≠ k'.id ∧ k.unitId = k'.unitId ∧
        activeLike k.status ∧ activeLike k'.status ∧ k.startDate = k'.startDate := by
    decide +kernel
  obtain ⟨c, run, opens, k, hk, k', hk', ne, room, live, live', start⟩ := made
  have covers : ∀ x ∈ c.db.contracts.rows, x.Covers x.startDate := fun x hx =>
    ⟨le_rfl, fun d hd => by simp [opens c.db List.mem_cons_self x hx] at hd⟩
  refine ⟨c, run, fun d hd x hx end' ends => by simp [opens d hd x hx] at ends, fun single => ?_⟩
  exact single k hk k' hk' ne room live live' _ (covers k hk) (start ▸ covers k' hk')

end Leasing
end Dormitory
