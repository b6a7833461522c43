import Dormitory.DoubleBooking

/-!
# When a contract is refused

Contracts made and changed one at a time: `assertNoOverlap` refuses exactly the
calls that would book a room twice.
-/

namespace Dormitory.Leasing
open Txn ContractService

namespace ContractCall

def commit (S : Server) (e : Estate) (call : ContractCall) : Estate :=
  (call.prog.serve (engine S) (fun _ => true) e).commit (engine S) e

/-- The call refers to visible rows, and `k` is the contract it stores if nothing
stops it. -/
def Produces (e : Estate) (k : ContractRow) : ContractCall → Prop
  | create ctx newId input =>
    UnitVisible ctx.companyId e input.unitId ∧ TenantVisible ctx.companyId e input.tenantId ∧
      e.contracts.find? newId = none ∧ Makes ctx newId input k
  | update ctx id input => ∃ old ∈ contract? ctx.companyId e id, k = input.patch.apply old

/-- `assertNoOverlap` is asked, and finds a contract. -/
def Taken (e : Estate) : ContractCall → Prop
  | create ctx _ input => Overlapped ctx.companyId e input.window
  | update ctx id input => ∃ old ∈ contract? ctx.companyId e id,
    Rechecks input old ∧ Overlapped ctx.companyId e (input.window old)

/-- The call throws `ContractOverlap`. -/
def Refused (S : Server) (e : Estate) (call : ContractCall) : Prop :=
  ∃ message, (call.prog.serve (engine S) (fun _ => true) e).answer =
    .error (.http .conflict "ContractOverlap" message)

/-! ## The check -/

section check
variable {S : Server} {ctx : Ctx} {e : Estate}

theorem assertNoOverlap_refuses {α : Type} {w : Overlap} {f : Unit → Prog leasing α}
    (taken : Overlapped ctx.companyId e w) :
    (assertNoOverlap ctx w >>= f).Serves (engine S) e [] (.error (.http .conflict "ContractOverlap"
      s!"Unit {w.unitId} already has a draft/active contract overlapping this period")) e := by
  obtain ⟨k, found⟩ := Option.ne_none_iff_exists'.mp fun none => overlap_none_iff.mp none taken
  unfold assertNoOverlap
  rw [Prog.bind_assoc]
  refine serves_read (q := .contractFindOverlap w) (a := some k) ?_ (.fail _)
  rw [run, found]

/-- The program ends otherwise than by `ContractOverlap`. -/
def Otherwise {α : Type} (S : Server) (e : Estate) (p : Prog leasing α) : Prop :=
  ∃ r e', p.Serves (engine S) e [] r e' ∧
    ∀ message, r ≠ .error (.http .conflict "ContractOverlap" message)

theorem Otherwise.pass {α : Type} {g : Prog leasing Unit} {f : Unit → Prog leasing α} {P : Prop}
    (guards : g.Guards (engine S) e [] P) (holds : P) (rest : Otherwise S e (f ())) :
    Otherwise S e (g >>= f) := by
  obtain ⟨r, e', served, otherwise⟩ := rest
  exact ⟨r, e', guards.pass holds served, otherwise⟩

/-- The statement that writes throws errors of the database only. -/
theorem write_otherwise {q : Query}
    (database : ∀ err, run S ctx.companyId e q = .error err →
      ∃ code target, err = .prisma code target) : Otherwise S e (prisma ctx q) := by
  cases ran : run S ctx.companyId e q with
  | error err =>
    obtain ⟨code, target, rfl⟩ := database err ran
    exact ⟨_, _, serves_refused ctx ran, fun message same => by cases same⟩
  | ok out => exact ⟨_, _, serves_write ctx ran, fun message same => by cases same⟩

theorem create_otherwise {newId : Id} {input : CreateContractInput}
    (unit : UnitVisible ctx.companyId e input.unitId)
    (tenant : TenantVisible ctx.companyId e input.tenantId)
    (free : ¬ Overlapped ctx.companyId e input.window) :
    Otherwise S e (ContractService.create ctx newId input) := by
  refine .pass (assertUnitVisible_guards S ctx e input.unitId) unit ?_
  refine .pass (assertTenantVisible_guards S ctx e input.tenantId) tenant ?_
  refine .pass (assertNoOverlap_guards S ctx e input.window) free ?_
  refine write_otherwise fun err ran => ?_
  change createContract S e (input.data ctx newId) = .error err at ran
  unfold createContract at ran
  split at ran
  · split at ran
    · cases ran
      exact ⟨_, _, rfl⟩
    split at ran
    · cases ran
      exact ⟨_, _, rfl⟩
    · cases ran
  · cases ran
    exact ⟨_, _, rfl⟩

section update
variable {input : UpdateContractInput} {old : ContractRow} {r : Except Failure ContractRow}
  {e' : Estate}

/-- `update` after it has read the contract. -/
theorem update_found (found : contract? ctx.companyId e old.id = some old)
    (rest : (if Rechecks input old then
        assertNoOverlap ctx (input.window old) >>= fun _ =>
          prisma ctx (.contractUpdate old.id input.patch)
      else prisma ctx (.contractUpdate old.id input.patch)).Serves (engine S) e [] r e') :
    (ContractService.update ctx old.id input).Serves (engine S) e [] r e' := by
  unfold ContractService.update getById
  rw [Prog.bind_assoc]
  refine serves_read (q := .contractFindUnique old.id) (a := some old) ?_ ?_
  · rw [run, found]
  · simp only [Prog.pure_eq, Prog.bind_ret]
    split
    · rw [if_pos (by exact ‹_›)] at rest
      exact rest
    · rw [if_neg (by exact ‹_›)] at rest
      exact rest

theorem update_checks (found : contract? ctx.companyId e old.id = some old)
    (rechecks : Rechecks input old)
    (rest : (assertNoOverlap ctx (input.window old) >>= fun _ =>
      prisma ctx (.contractUpdate old.id input.patch)).Serves (engine S) e [] r e') :
    (ContractService.update ctx old.id input).Serves (engine S) e [] r e' :=
  update_found found (by rwa [if_pos rechecks])

theorem update_skips (found : contract? ctx.companyId e old.id = some old)
    (skips : ¬ Rechecks input old)
    (rest : (prisma ctx (.contractUpdate old.id input.patch)).Serves (engine S) e [] r e') :
    (ContractService.update ctx old.id input).Serves (engine S) e [] r e' :=
  update_found found (by rwa [if_neg skips])

end update

theorem update_otherwise {input : UpdateContractInput} {old : ContractRow}
    (found : contract? ctx.companyId e old.id = some old)
    (free : Rechecks input old → ¬ Overlapped ctx.companyId e (input.window old)) :
    Otherwise S e (ContractService.update ctx old.id input) := by
  have stored : Otherwise S e (prisma ctx (.contractUpdate old.id input.patch)) := by
    refine write_otherwise fun err ran => ?_
    change updateContract ctx.companyId e old.id input.patch = .error err at ran
    simp only [updateContract, found] at ran
    split at ran
    · cases ran
      exact ⟨_, _, rfl⟩
    · cases ran
  by_cases rechecks : Rechecks input old
  · obtain ⟨r, e', served, otherwise⟩ := Otherwise.pass
      (f := fun _ => prisma ctx (.contractUpdate old.id input.patch))
      (assertNoOverlap_guards S ctx e (input.window old)) (free rechecks) stored
    exact ⟨r, e', update_checks found rechecks served, otherwise⟩
  · obtain ⟨r, e', served, otherwise⟩ := stored
    exact ⟨r, e', update_skips found rechecks served, otherwise⟩

/-- **A call throws `ContractOverlap`** exactly when its check finds a contract. -/
theorem refused_iff_taken (S : Server) {call : ContractCall} {k : ContractRow}
    (produces : call.Produces e k) : call.Refused S e ↔ call.Taken e := by
  have refuses : ∀ {message}, call.prog.Serves (engine S) e []
      (.error (.http .conflict "ContractOverlap" message)) e → call.Refused S e :=
    fun served => ⟨_, (served.serve _).1⟩
  have accepts : Otherwise S e call.prog → ¬ call.Refused S e := by
    rintro ⟨r, e', served, otherwise⟩ ⟨message, thrown⟩
    exact otherwise message ((served.serve _).1.symm.trans thrown)
  by_cases taken : call.Taken e
  · refine iff_of_true ?_ taken
    cases call with
    | create ctx newId input =>
      obtain ⟨unit, tenant, -, -⟩ := produces
      exact refuses ((assertUnitVisible_guards S ctx e input.unitId).pass unit
        ((assertTenantVisible_guards S ctx e input.tenantId).pass tenant
          (assertNoOverlap_refuses (w := input.window) taken)))
    | update ctx id input =>
      obtain ⟨old, found, rechecks, taken⟩ := taken
      obtain rfl : old.id = id := contract?_id found
      exact refuses (update_checks found rechecks (assertNoOverlap_refuses taken))
  · refine iff_of_false (accepts ?_) taken
    cases call with
    | create ctx newId input =>
      obtain ⟨unit, tenant, -, -⟩ := produces
      exact create_otherwise unit tenant taken
    | update ctx id input =>
      obtain ⟨old, found, -⟩ := produces
      obtain rfl : old.id = id := contract?_id found
      exact update_otherwise found fun rechecks overlapped =>
        taken ⟨old, found, rechecks, overlapped⟩

end check

/-! ## What would be stored -/

section stored
variable {S : Server} {ctx : Ctx} {e : Estate} {call : ContractCall} {k : ContractRow}

/-- Well-dated contracts that pass for overlapping share the later of their first
days. -/
theorem covers_of_overlaps {w : Overlap} {k' : ContractRow} (dated : k.WellDated)
    (dated' : k'.WellDated) (start : w.newStart = k.startDate) (ends : w.newEnd = k.endDate)
    (overlaps : Overlaps w k') :
    k.Covers (max k.startDate k'.startDate) ∧ k'.Covers (max k.startDate k'.startDate) := by
  obtain ⟨-, -, -, before, after⟩ := overlaps
  refine ⟨⟨le_max_left _ _, fun d hd => ?_⟩, le_max_right _ _, fun d hd => ?_⟩
  · exact max_le (dated d hd).le (before d (ends ▸ hd))
  · exact max_le (start ▸ after d hd) (dated' d hd).le

/-- **A contract that the check finds** shares a day with the new one. -/
theorem Taken.double_books (taken : call.Taken e) (produces : call.Produces e k)
    (dated : e.WellDated) (wellDated : k.WellDated) :
    ¬ ({ e with contracts := e.contracts.put k } : Estate).SingleBooked := by
  -- The window of the check is the new contract.
  have window : ∃ c w, Overlapped c e w ∧ w.unitId = k.unitId ∧ w.newStart = k.startDate ∧
      w.newEnd = k.endDate ∧ activeLike k.status ∧
      ∀ k' ∈ e.contracts.rows, Overlaps w k' → k'.id ≠ k.id := by
    cases call with
    | create ctx newId input =>
      obtain ⟨-, -, fresh, makes⟩ := produces
      refine ⟨_, _, taken, makes.unitId.symm, makes.startDate.symm, makes.endDate.symm, ?_, ?_⟩
      · rw [makes.status]
        rfl
      · intro k' stored _ same
        have new : k'.id = newId := same.trans makes.id
        have old := e.contracts.find?_of_mem stored
        rw [show key k' = newId from new, fresh] at old
        cases old
    | update ctx id input =>
      obtain ⟨old, found, rfl⟩ := produces
      obtain ⟨old', found', rechecks, taken⟩ := taken
      obtain rfl : old' = old := Option.mem_unique found' found
      exact ⟨_, _, taken, rfl, rfl, rfl, rechecks.1, fun k' _ overlaps =>
        overlaps.1 old'.id rfl⟩
  obtain ⟨c, w, ⟨k', stored, -, overlaps⟩, unitId, start, ends, live, other⟩ := window
  have ne := other k' stored overlaps
  obtain ⟨covers, covers'⟩ := covers_of_overlaps wellDated (dated k' stored) start ends overlaps
  intro single
  refine single k (Table.mem_put.mpr (.inl rfl)) k' (Table.mem_put.mpr (.inr ⟨stored, ne⟩)) ne.symm
    ?_ live (by simpa [activeLike] using overlaps.2.2.1) _ covers covers'
  exact unitId.symm.trans overlaps.2.1.symm

/-- **A contract whose check finds none, or is not made,** leaves every room booked
once. -/
theorem Produces.single_booked (produces : call.Produces e k) (free : ¬ call.Taken e)
    (own : e.OwnRooms) (single : e.SingleBooked) :
    ({ e with contracts := e.contracts.put k } : Estate).SingleBooked := by
  cases call with
  | create ctx newId input =>
    obtain ⟨unit, -, -, makes⟩ := produces
    exact single.put_created own makes unit free
  | update ctx id input =>
    obtain ⟨old, found, rfl⟩ := produces
    exact single.put_updated own found fun rechecks overlapped =>
      free ⟨old, found, rechecks, overlapped⟩

/-- A call that goes through has produced its contract. -/
theorem commit_cases (S : Server) (e : Estate) (call : ContractCall) :
    call.commit S e = e ∨ ∃ k, call.Produces e k ∧ ¬ call.Taken e ∧
      call.commit S e = { e with contracts := e.contracts.put k } := by
  cases call with
  | create ctx newId input =>
    obtain ⟨stores, refuses⟩ := create_serves S ctx e newId input
    by_cases creatable : Creatable ctx newId input e
    · obtain ⟨k, makes, served⟩ := stores creatable
      obtain ⟨unit, tenant, free, -, -, -, fresh⟩ := creatable
      exact .inr ⟨k, ⟨unit, tenant, fresh, makes⟩, free, (served.serve _).2⟩
    · obtain ⟨err, served⟩ := refuses creatable
      exact .inl (served.serve _).2
  | update ctx id input =>
    cases found : contract? ctx.companyId e id with
    | none =>
      obtain ⟨err, served⟩ := update_missing S input found
      exact .inl (served.serve _).2
    | some old =>
      obtain ⟨patches, refuses⟩ := update_serves S input found
      by_cases updatable : Updatable ctx input old e
      · refine .inr ⟨_, ⟨old, found, rfl⟩, ?_, ((patches updatable).serve _).2⟩
        rintro ⟨old', found', rechecks, overlapped⟩
        obtain rfl : old' = old := Option.mem_unique found' found
        exact updatable.1 rechecks overlapped
      · obtain ⟨err, served⟩ := refuses updatable
        exact .inl (served.serve _).2

theorem commit_keeps (S : Server) (call : ContractCall) (kept : e.OwnRooms ∧ e.SingleBooked) :
    (call.commit S e).OwnRooms ∧ (call.commit S e).SingleBooked := by
  obtain same | ⟨k, produces, free, same⟩ := call.commit_cases S e
  · rwa [same]
  · rw [same]
    refine ⟨kept.1.put ?_, produces.single_booked free kept.1 kept.2⟩
    cases call with
    | create ctx newId input =>
      obtain ⟨unit, -, -, makes⟩ := produces
      rwa [makes.companyId, makes.unitId]
    | update ctx id input =>
      obtain ⟨old, found, rfl⟩ := produces
      exact kept.1 old (contract?_mem found)

end stored
end ContractCall

/-- **The refusal of overlaps is exact.** In every well-dated state that calls
reach, a call throws `ContractOverlap` exactly when the contract that it would
store, which is well-dated too, would book its room twice for a day. -/
theorem overlap_refused_iff (S : Server) (vacant : Estate) (calls : List ContractCall) (e : Estate)
    (reached : e ∈ states (ContractCall.commit S) { vacant with contracts := default } calls)
    (dated : e.WellDated) (call : ContractCall) (k : ContractRow) (produces : call.Produces e k)
    (wellDated : k.WellDated) :
    (∃ message, (call.prog.serve (engine S) (fun _ => true) e).answer =
      .error (.http .conflict "ContractOverlap" message)) ↔
    ¬ ({ e with contracts := e.contracts.put k } : Estate).SingleBooked := by
  have start : ({ vacant with contracts := default } : Estate).OwnRooms ∧
      ({ vacant with contracts := default } : Estate).SingleBooked :=
    ⟨fun k hk => absurd hk List.not_mem_nil, fun k hk => absurd hk List.not_mem_nil⟩
  obtain ⟨own, single⟩ := states_keep (I := fun e : Estate => e.OwnRooms ∧ e.SingleBooked)
    (fun _ call kept => call.commit_keeps S kept) start e reached
  have refused : call.Refused S e ↔ call.Taken e := call.refused_iff_taken S produces
  refine refused.trans ⟨fun taken => taken.double_books produces dated wellDated, fun twice => ?_⟩
  by_contra free
  exact twice (produces.single_booked free own single)

namespace Demo

/-- The room is let for the first half of April, and then from 10 April on. -/
def firstLet : Estate := ContractCall.commit Dormitory.Demo.server
  { vacant with contracts := default } (.create Dormitory.Demo.ctx 101 firstHalf)

def tooEarly : CreateContractInput :=
  { secondHalf with startDate := Civil.days ⟨2026, 4, 10⟩ }

def tooEarlyRow : ContractRow where
  id := 102
  companyId := 1
  unitId := 201
  tenantId := 12
  rentAmount := Dormitory.Demo.baht 2000
  status := .draft
  startDate := tooEarly.startDate
  endDate := none
  depositAmount := Dormitory.Demo.baht 0
  notes := none

end Demo

/-- The refused contract and the one that is there share 10 April. -/
theorem overlap_refused_too_early :
    ((ContractCall.create Dormitory.Demo.ctx 102 Demo.tooEarly).prog.serve
      (engine Dormitory.Demo.server) (fun _ => true) Demo.firstLet).answer =
        .error (.http .conflict "ContractOverlap"
          "Unit 201 already has a draft/active contract overlapping this period") ∧
    ¬ ({ Demo.firstLet with contracts := Demo.firstLet.contracts.put Demo.tooEarlyRow } :
      Estate).SingleBooked := by
  have refused : ((ContractCall.create Dormitory.Demo.ctx 102 Demo.tooEarly).prog.serve
      (engine Dormitory.Demo.server) (fun _ => true) Demo.firstLet).answer =
        .error (.http .conflict "ContractOverlap"
          "Unit 201 already has a draft/active contract overlapping this period") := by
    decide +kernel
  have dated : Demo.firstLet.WellDated := by
    unfold Estate.WellDated ContractRow.WellDated
    decide +kernel
  refine ⟨refused, (overlap_refused_iff Dormitory.Demo.server Demo.vacant
    [.create Dormitory.Demo.ctx 101 Demo.firstHalf] Demo.firstLet (last_mem_states _ _ _) dated
    (.create Dormitory.Demo.ctx 102 Demo.tooEarly) Demo.tooEarlyRow
    ⟨by decide +kernel, by decide +kernel, by decide +kernel, ⟨rfl, rfl, rfl, rfl, rfl, rfl⟩⟩
    (fun d ends => nomatch ends)).mp ⟨_, refused⟩⟩

end Dormitory.Leasing
