import Mathlib.Tactic.IntervalCases
import Dormitory.BilledReadings

/-!
# Contract dates

The dates of `packages/shared/src/zod/contract.ts`, and which stored contracts
end after they start, over every sequence of contracts made and changed.
-/

namespace Dormitory

/-- A text that `isoDateSchema` accepts, by its three numbers. The day need not
exist in its month. -/
structure IsoDate where
  year : Nat
  month : Nat
  day : Nat
  accepted : year < 10000 ∧ (1 ≤ month ∧ month ≤ 12) ∧ 1 ≤ day ∧ day ≤ 31
  deriving DecidableEq

namespace IsoDate

/-- `<` on the texts: their numbers are padded to a fixed width. -/
def Before (a b : IsoDate) : Prop :=
  a.year < b.year ∨ a.year = b.year ∧ (a.month < b.month ∨ a.month = b.month ∧ a.day < b.day)

instance (a b : IsoDate) : Decidable (a.Before b) :=
  inferInstanceAs (Decidable (a.year < b.year ∨ a.year = b.year ∧
    (a.month < b.month ∨ a.month = b.month ∧ a.day < b.day)))

/-- `new Date(text)`: a day beyond the end of its month rolls over into the next. -/
def days (d : IsoDate) : Int := Civil.days ⟨d.year, d.month, d.day⟩

/-- The first day of a month, counted from January of year 0. -/
def monthStart (n : Nat) : Int := Civil.days ⟨(n / 12 : Nat), n % 12 + 1, 1⟩

def monthIndex (d : IsoDate) : Nat := d.year * 12 + (d.month - 1)

/-- The month has the day. -/
def Real (d : IsoDate) : Prop := d.days < monthStart (d.monthIndex + 1)

instance (d : IsoDate) : Decidable d.Real :=
  inferInstanceAs (Decidable (d.days < monthStart (d.monthIndex + 1)))

theorem monthStart_lt (n : Nat) : monthStart n < monthStart (n + 1) := by
  have div : ∀ a : Int, a.fdiv 400 = a / 400 := fun a => Int.fdiv_eq_ediv_of_nonneg a (by decide)
  obtain ⟨q, r, hr, rfl⟩ : ∃ q r, r < 12 ∧ n = 12 * q + r :=
    ⟨n / 12, n % 12, Nat.mod_lt _ (by decide), (Nat.div_add_mod n 12).symm⟩
  have now : (12 * q + r) / 12 = q ∧ (12 * q + r) % 12 = r := by omega
  have next : (12 * q + r + 1) / 12 = (if r = 11 then q + 1 else q) ∧
      (12 * q + r + 1) % 12 = if r = 11 then 0 else r + 1 := by split <;> omega
  simp only [monthStart, Civil.days, now, next, div]
  interval_cases r <;> simp
  omega

theorem days_eq (d : IsoDate) : d.days = monthStart d.monthIndex + d.day - 1 := by
  obtain ⟨-, ⟨hm, hm'⟩, -⟩ := d.accepted
  have year : d.monthIndex / 12 = d.year := by unfold monthIndex; omega
  have month : d.monthIndex % 12 + 1 = d.month := by unfold monthIndex; omega
  simp only [days, monthStart, Civil.days, year, month]
  omega

/-- Days of the calendar are ordered as their texts are. -/
theorem days_lt {a b : IsoDate} (real : a.Real) (before : a.Before b) : a.days < b.days := by
  obtain ⟨-, ⟨hm, hm'⟩, -⟩ := a.accepted
  obtain ⟨-, ⟨hn, hn'⟩, hd, -⟩ := b.accepted
  by_cases same : a.monthIndex = b.monthIndex
  · have day : a.day < b.day := by
      unfold monthIndex at same
      unfold Before at before
      omega
    rw [days_eq, days_eq, same]
    omega
  · have later : a.monthIndex + 1 ≤ b.monthIndex := by
      unfold monthIndex at same ⊢
      unfold Before at before
      omega
    have start := (strictMono_nat_of_lt_succ monthStart_lt).monotone later
    rw [days_eq b]
    unfold Real at real
    omega

end IsoDate

/-- The contract ends after its first day, or not at all. -/
def ContractRow.WellDated (k : ContractRow) : Prop := ∀ d ∈ k.endDate, k.startDate < d

namespace Leasing
open Txn

/-! ## One call -/

def UnitVisible (c : Id) (e : Estate) (unitId : Id) : Prop :=
  ∃ u ∈ e.books.units.find? unitId, u.companyId = c

def TenantVisible (c : Id) (e : Estate) (tenantId : Id) : Prop :=
  ∃ t ∈ e.books.tenants.find? tenantId, t.companyId = c

instance (c : Id) (e : Estate) (unitId : Id) : Decidable (UnitVisible c e unitId) :=
  inferInstanceAs (Decidable (∃ u ∈ e.books.units.find? unitId, u.companyId = c))

instance (c : Id) (e : Estate) (tenantId : Id) : Decidable (TenantVisible c e tenantId) :=
  inferInstanceAs (Decidable (∃ t ∈ e.books.tenants.find? tenantId, t.companyId = c))

/-- A contract that the query of `assertNoOverlap` finds. -/
def Overlapped (c : Id) (e : Estate) (w : Overlap) : Prop :=
  ∃ k ∈ e.contracts.rows, k.companyId = c ∧ Overlaps w k

instance (c : Id) (e : Estate) (w : Overlap) : Decidable (Overlapped c e w) :=
  inferInstanceAs (Decidable (∃ k ∈ e.contracts.rows, k.companyId = c ∧ Overlaps w k))

def CreateContractInput.window (input : CreateContractInput) : Overlap where
  unitId := input.unitId
  newStart := input.startDate
  newEnd := input.endDate
  excludeId := none

def CreateContractInput.data (ctx : Ctx) (newId : Id) (input : CreateContractInput) :
    ContractData where
  id := newId
  companyId := ctx.companyId
  unitId := input.unitId
  tenantId := input.tenantId
  startDate := input.startDate
  endDate := input.endDate
  rentAmount := input.rentAmount
  depositAmount := input.depositAmount
  status := .draft
  notes := input.notes

def UpdateContractInput.window (input : UpdateContractInput) (k : ContractRow) : Overlap where
  unitId := k.unitId
  newStart := k.startDate
  newEnd := input.endDate <|> k.endDate
  excludeId := some k.id

def UpdateContractInput.patch (input : UpdateContractInput) : ContractPatch where
  status := input.status
  endDate := input.endDate
  notes := input.notes

/-- The rule for a statement that reads. -/
theorem serves_read {S : Server} {ctx : Ctx} {e e' : Estate} {q : Query} {α : Type}
    {f : q.Ans → Prog leasing α} {a : q.Ans} {r : Except Failure α}
    (ran : run S ctx.companyId e q = .ok ([], a)) (rest : (f a).Serves (engine S) e [] r e') :
    (prisma ctx q >>= f).Serves (engine S) e [] r e' :=
  Prog.Serves.query (σ := leasing) (s := (⟨ctx.companyId, q⟩ : Statement)) ran rest

/-- The rules for the statement that writes, at the end of a call. -/
theorem serves_write {S : Server} (ctx : Ctx) {e : Estate} {q : Query} {ws : List Row} {a : q.Ans}
    (ran : run S ctx.companyId e q = .ok (ws, a)) :
    (prisma ctx q).Serves (engine S) e [] (.ok a) (ws.foldl Row.apply e) :=
  Prog.Serves.last (σ := leasing) (s := (⟨ctx.companyId, q⟩ : Statement)) ran

theorem serves_refused {S : Server} (ctx : Ctx) {e : Estate} {q : Query} {err : Failure}
    (ran : run S ctx.companyId e q = .error err) :
    (prisma ctx q).Serves (engine S) e [] (.error err) e :=
  Prog.Serves.last_error (σ := leasing) (s := (⟨ctx.companyId, q⟩ : Statement)) ran

theorem guards_read {S : Server} {ctx : Ctx} {e : Estate} {q : Query} (a : q.Ans)
    {g : q.Ans → Prog leasing Unit} {P : Prop} (ran : run S ctx.companyId e q = .ok ([], a))
    (passes : P → g a = pure ()) (throws : ¬P → ∃ err, g a = Prog.fail err) :
    (prisma ctx q >>= g).Guards (engine S) e [] P :=
  Prog.Guards.query (σ := leasing) (s := (⟨ctx.companyId, q⟩ : Statement)) ran passes throws

/-- A look-up that row-level security answers with nothing. -/
theorem filter_none_iff {α : Type} {o : Option α} {p : α → Prop} [DecidablePred p] :
    o.filter (fun x => decide (p x)) = none ↔ ¬ ∃ x ∈ o, p x := by
  cases o <;> simp [Option.filter]

theorem assertUnitVisible_guards (S : Server) (ctx : Ctx) (e : Estate) (unitId : Id) :
    (assertUnitVisible ctx unitId).Guards (engine S) e [] (UnitVisible ctx.companyId e unitId) := by
  refine guards_read (q := .unitFindUnique unitId)
    ((e.books.units.find? unitId).filter fun u => u.companyId = ctx.companyId) rfl
    (fun seen => ?_) fun hidden => ?_
  · obtain ⟨u, found, own⟩ := seen
    rw [found, Option.filter_some_pos (by simpa using own)]
  · rw [filter_none_iff.mpr hidden]
    exact ⟨_, rfl⟩

namespace ContractService

/-- `create` goes through: its unit and tenant are visible, no contract overlaps,
and the row fits its columns under a new key. -/
def Creatable (ctx : Ctx) (newId : Id) (input : CreateContractInput) (e : Estate) : Prop :=
  UnitVisible ctx.companyId e input.unitId ∧ TenantVisible ctx.companyId e input.tenantId ∧
    ¬ Overlapped ctx.companyId e input.window ∧
    (Numeric.store 10 2 input.rentAmount).isSome ∧ (Numeric.store 10 2 input.depositAmount).isSome ∧
    (∀ n ∈ input.notes, n.length ≤ 1024) ∧ e.contracts.find? newId = none

instance (ctx : Ctx) (newId : Id) (input : CreateContractInput) (e : Estate) :
    Decidable (Creatable ctx newId input e) :=
  inferInstanceAs (Decidable (_ ∧ _ ∧ ¬ _ ∧ _ ∧ _ ∧ (∀ n ∈ input.notes, n.length ≤ 1024) ∧ _))

/-- `update` asks for no overlap of the stored contract `k`. -/
def Rechecks (input : UpdateContractInput) (k : ContractRow) : Prop :=
  activeLike (input.status.getD k.status) ∧ (input.endDate.isSome ∨ ¬ activeLike k.status)

instance (input : UpdateContractInput) (k : ContractRow) : Decidable (Rechecks input k) :=
  inferInstanceAs (Decidable (_ ∧ (_ ∨ ¬ _)))

/-- `update` goes through for the visible contract `k`. -/
def Updatable (ctx : Ctx) (input : UpdateContractInput) (k : ContractRow) (e : Estate) : Prop :=
  (Rechecks input k → ¬ Overlapped ctx.companyId e (input.window k)) ∧
    ∀ n ∈ input.notes, n.length ≤ 1024

instance (ctx : Ctx) (input : UpdateContractInput) (k : ContractRow) (e : Estate) :
    Decidable (Updatable ctx input k e) :=
  inferInstanceAs (Decidable ((_ → ¬ _) ∧ ∀ n ∈ input.notes, n.length ≤ 1024))

section calls
variable {S : Server} {ctx : Ctx} {e : Estate}

theorem overlap_none_iff {w : Overlap} :
    (e.contracts.rows.find? fun k => k.companyId = ctx.companyId ∧ Overlaps w k) = none ↔
      ¬ Overlapped ctx.companyId e w := by
  simp [Overlapped]

theorem assertTenantVisible_guards (S : Server) (ctx : Ctx) (e : Estate) (tenantId : Id) :
    (assertTenantVisible ctx tenantId).Guards (engine S) e []
      (TenantVisible ctx.companyId e tenantId) := by
  refine guards_read (q := .tenantFindUnique tenantId)
    ((e.books.tenants.find? tenantId).filter fun t => t.companyId = ctx.companyId) rfl
    (fun seen => ?_) fun hidden => ?_
  · obtain ⟨t, found, own⟩ := seen
    rw [found, Option.filter_some_pos (by simpa using own)]
  · rw [filter_none_iff.mpr hidden]
    exact ⟨_, rfl⟩

theorem assertNoOverlap_guards (S : Server) (ctx : Ctx) (e : Estate) (w : Overlap) :
    (assertNoOverlap ctx w).Guards (engine S) e [] ¬ Overlapped ctx.companyId e w := by
  refine guards_read (q := .contractFindOverlap w)
    (e.contracts.rows.find? fun k => k.companyId = ctx.companyId ∧ Overlaps w k) rfl
    (fun free => ?_) fun taken => ?_
  · rw [overlap_none_iff.mpr free]
  · obtain ⟨k, found⟩ := Option.ne_none_iff_exists'.mp fun none => taken (overlap_none_iff.mp none)
    rw [found]
    exact ⟨_, rfl⟩

/-- The stored contract of a `create`. -/
structure Makes (ctx : Ctx) (newId : Id) (input : CreateContractInput) (k : ContractRow) :
    Prop where
  id : k.id = newId
  companyId : k.companyId = ctx.companyId
  unitId : k.unitId = input.unitId
  startDate : k.startDate = input.startDate
  endDate : k.endDate = input.endDate
  status : k.status = .draft

/-- The statement of `create` goes through when the row fits under a new key. -/
theorem createContract_run (S : Server) (d : ContractData) :
    ((Numeric.store 10 2 d.rentAmount).isSome ∧ (Numeric.store 10 2 d.depositAmount).isSome ∧
        (∀ n ∈ d.notes, n.length ≤ 1024) ∧ e.contracts.find? d.id = none →
      ∃ rent deposit, createContract S e d =
        let k : ContractRow := ⟨⟨d.id, d.companyId, d.unitId, d.tenantId, rent, d.status⟩,
          d.startDate, d.endDate, deposit, d.notes⟩
        .ok ([.contract k], k)) ∧
    (¬((Numeric.store 10 2 d.rentAmount).isSome ∧ (Numeric.store 10 2 d.depositAmount).isSome ∧
        (∀ n ∈ d.notes, n.length ≤ 1024) ∧ e.contracts.find? d.id = none) →
      ∃ err, createContract S e d = .error err) := by
  unfold createContract
  split
  · rename_i rent deposit rentFits depositFits
    split
    · rename_i long
      obtain ⟨n, stored, long⟩ := long
      refine ⟨fun fits => ?_, fun _ => ⟨_, rfl⟩⟩
      exact absurd (fits.2.2.1 n stored) (by omega)
    split
    · rename_i taken
      refine ⟨fun fits => ?_, fun _ => ⟨_, rfl⟩⟩
      simp [fits.2.2.2] at taken
    · rename_i short fresh
      refine ⟨fun _ => ⟨rent, deposit, rfl⟩, fun unfit => absurd ?_ unfit⟩
      refine ⟨by simp [rentFits], by simp [depositFits], fun n stored => ?_, by simpa using fresh⟩
      exact Nat.le_of_not_lt fun long => short ⟨n, stored, long⟩
  · rename_i tooLarge
    refine ⟨fun fits => ?_, fun _ => ⟨_, rfl⟩⟩
    obtain ⟨rent, rentFits⟩ := Option.isSome_iff_exists.mp fits.1
    obtain ⟨deposit, depositFits⟩ := Option.isSome_iff_exists.mp fits.2.1
    exact absurd depositFits (tooLarge rent deposit rentFits)

/-- **`create`** stores its contract, or throws and changes nothing. -/
theorem create_serves (S : Server) (ctx : Ctx) (e : Estate) (newId : Id)
    (input : CreateContractInput) :
    (Creatable ctx newId input e → ∃ k, Makes ctx newId input k ∧
      (create ctx newId input).Serves (engine S) e [] (.ok k)
        { e with contracts := e.contracts.put k }) ∧
    (¬ Creatable ctx newId input e →
      ∃ err, (create ctx newId input).Serves (engine S) e [] (.error err) e) := by
  have unit := assertUnitVisible_guards S ctx e input.unitId
  have tenant := assertTenantVisible_guards S ctx e input.tenantId
  have overlap := assertNoOverlap_guards S ctx e input.window
  constructor
  · rintro ⟨seen, seen', free, fits⟩
    obtain ⟨rent, deposit, ran⟩ := (createContract_run (e := e) S (input.data ctx newId)).1 fits
    have stored := serves_write ctx (q := .contractCreate (input.data ctx newId)) ran
    exact ⟨_, ⟨rfl, rfl, rfl, rfl, rfl, rfl⟩,
      unit.pass seen (tenant.pass seen' (overlap.pass free stored))⟩
  · intro refused
    by_cases seen : UnitVisible ctx.companyId e input.unitId
    · by_cases seen' : TenantVisible ctx.companyId e input.tenantId
      · by_cases free : Overlapped ctx.companyId e input.window
        · obtain ⟨err, thrown⟩ := overlap.stop (not_not.mpr free)
          exact ⟨err, unit.pass seen (tenant.pass seen' thrown)⟩
        · obtain ⟨err, ran⟩ := (createContract_run (e := e) S (input.data ctx newId)).2 fun fits =>
            refused ⟨seen, seen', free, fits⟩
          have thrown :=
            serves_refused ctx (q := .contractCreate (input.data ctx newId)) ran
          exact ⟨err, unit.pass seen (tenant.pass seen' (overlap.pass free thrown))⟩
      · obtain ⟨err, thrown⟩ := tenant.stop seen'
        exact ⟨err, unit.pass seen thrown⟩
    · obtain ⟨err, thrown⟩ := unit.stop seen
      exact ⟨err, thrown⟩

theorem update_missing (S : Server) {id : Id} (input : UpdateContractInput)
    (missing : contract? ctx.companyId e id = none) :
    ∃ err, (update ctx id input).Serves (engine S) e [] (.error err) e := by
  unfold update getById
  rw [Prog.bind_assoc]
  refine ⟨_, serves_read (q := .contractFindUnique id) (a := none) ?_ (.fail _)⟩
  rw [run, missing]

theorem contract?_mem {c id : Id} {k : ContractRow} (found : contract? c e id = some k) :
    k ∈ e.contracts.rows :=
  Table.find?_mem (Option.filter_eq_some_iff.mp found).1

theorem updateContract_run {id : Id} {k : ContractRow} (d : ContractPatch)
    (found : contract? ctx.companyId e id = some k) (short : ∀ n ∈ d.notes, n.length ≤ 1024) :
    updateContract ctx.companyId e id d = .ok ([.contract (d.apply k)], d.apply k) := by
  have fits : ¬∃ n ∈ d.notes, 1024 < n.length :=
    fun ⟨n, stored, long⟩ => absurd (short n stored) (by omega)
  simp only [updateContract, found, if_neg fits]

theorem updateContract_long {id : Id} {k : ContractRow} (d : ContractPatch)
    (found : contract? ctx.companyId e id = some k) (long : ¬∀ n ∈ d.notes, n.length ≤ 1024) :
    updateContract ctx.companyId e id d = .error .tooLong := by
  have tooLong : ∃ n ∈ d.notes, 1024 < n.length := by
    by_contra fits
    exact long fun n stored => Nat.le_of_not_lt fun more => fits ⟨n, stored, more⟩
  simp only [updateContract, found, if_pos tooLong]

theorem contract?_id {c id : Id} {k : ContractRow} (found : contract? c e id = some k) :
    k.id = id :=
  Table.find?_key (Option.filter_eq_some_iff.mp found).1

/-- **`update`** patches the contract it finds, or throws and changes nothing. -/
theorem update_serves (S : Server) {id : Id} (input : UpdateContractInput) {k : ContractRow}
    (found : contract? ctx.companyId e id = some k) :
    (Updatable ctx input k e → (update ctx id input).Serves (engine S) e []
      (.ok (input.patch.apply k)) { e with contracts := e.contracts.put (input.patch.apply k) }) ∧
    (¬ Updatable ctx input k e →
      ∃ err, (update ctx id input).Serves (engine S) e [] (.error err) e) := by
  obtain rfl : k.id = id := contract?_id found
  have overlap := assertNoOverlap_guards S ctx e (input.window k)
  have read : run S ctx.companyId e (.contractFindUnique k.id) = .ok ([], some k) := by
    rw [run, found]
  unfold update getById
  rw [Prog.bind_assoc]
  constructor
  · rintro ⟨free, short⟩
    have stored := serves_write (S := S) ctx (q := .contractUpdate k.id input.patch)
      (updateContract_run input.patch found short)
    refine serves_read (q := .contractFindUnique k.id) read ?_
    simp only [Prog.pure_eq, Prog.bind_ret]
    split
    · rename_i rechecks
      exact overlap.pass (free rechecks) stored
    · exact stored
  · intro refused
    by_cases taken : Rechecks input k ∧ Overlapped ctx.companyId e (input.window k)
    · obtain ⟨err, thrown⟩ := overlap.stop (not_not.mpr taken.2)
      refine ⟨err, serves_read (q := .contractFindUnique k.id) read ?_⟩
      simp only [Prog.pure_eq, Prog.bind_ret]
      rw [if_pos (by exact taken.1)]
      exact thrown
    · have free : Rechecks input k → ¬ Overlapped ctx.companyId e (input.window k) :=
        fun rechecks overlapped => taken ⟨rechecks, overlapped⟩
      have thrown := serves_refused (S := S) ctx (q := .contractUpdate k.id input.patch)
        (updateContract_long input.patch found fun short => refused ⟨free, short⟩)
      refine ⟨.tooLong, serves_read (q := .contractFindUnique k.id) read ?_⟩
      simp only [Prog.pure_eq, Prog.bind_ret]
      split
      · rename_i rechecks
        exact overlap.pass (free rechecks) thrown
      · exact thrown

end calls
end ContractService

/-! ## Any sequence of calls -/

/-- An input as `createContractInputSchema` accepts it: the end is after the
start, as text. -/
structure CreateContractBody where
  unitId : Id
  tenantId : Id
  startDate : IsoDate
  endDate : Option IsoDate
  rentAmount : Decimal
  depositAmount : Decimal
  notes : Option String
  ends : ∀ d ∈ endDate, startDate.Before d

/-- An input as `updateContractInputSchema` accepts it. -/
structure UpdateContractBody where
  status : Option ContractStatus
  endDate : Option IsoDate
  notes : Option String

def CreateContractBody.input (body : CreateContractBody) : CreateContractInput where
  unitId := body.unitId
  tenantId := body.tenantId
  startDate := body.startDate.days
  endDate := body.endDate.map IsoDate.days
  rentAmount := body.rentAmount
  depositAmount := body.depositAmount
  notes := body.notes

def UpdateContractBody.input (body : UpdateContractBody) : UpdateContractInput where
  status := body.status
  endDate := body.endDate.map IsoDate.days
  notes := body.notes

/-- A call on contracts, with the company it is made in. -/
inductive ContractRequest where
  | create (ctx : Ctx) (newId : Id) (body : CreateContractBody)
  | update (ctx : Ctx) (id : Id) (body : UpdateContractBody)

def ContractRequest.commit (S : Server) (e : Estate) : ContractRequest → Estate
  | create ctx newId body => (LeasingCall.createContract newId body.input).commit S ctx e
  | update ctx id body => (LeasingCall.updateContract id body.input).commit S ctx e

def Estate.WellDated (e : Estate) : Prop := ∀ k ∈ e.contracts.rows, k.WellDated

open ContractService in
/-- A `create` that goes through starts on a day of the calendar, or ends after
the day that its start rolls over to. An `update` that goes through leaves the
end date alone or moves it after the stored start. -/
def ContractRequest.InOrder (e : Estate) : ContractRequest → Prop
  | create ctx newId body => Creatable ctx newId body.input e → ¬ body.startDate.Real →
    ∀ d ∈ body.endDate, body.startDate.days < d.days
  | update ctx id body => ∀ k ∈ contract? ctx.companyId e id, Updatable ctx body.input k e →
    ∀ d ∈ body.endDate, k.startDate < d.days

instance (e : Estate) : (r : ContractRequest) → Decidable (r.InOrder e)
  | .create _ _ body => inferInstanceAs (Decidable (_ → ¬ _ → ∀ d ∈ body.endDate, _))
  | .update ctx id body => inferInstanceAs
    (Decidable (∀ k ∈ contract? ctx.companyId e id, _ → ∀ d ∈ body.endDate, _))

theorem Estate.wellDated_put {e : Estate} (ordered : e.WellDated) (k : ContractRow) :
    ({ e with contracts := e.contracts.put k } : Estate).WellDated ↔ k.WellDated := by
  constructor
  · exact fun all => all k (Table.mem_put.mpr (.inl rfl))
  · intro own x hx
    rcases Table.mem_put.mp hx with rfl | ⟨old, -⟩
    · exact own
    · exact ordered x old

/-- The text order of a start that the calendar has is the order of the days. -/
theorem CreateContractBody.ends_after_iff (body : CreateContractBody) :
    (∀ d ∈ body.input.endDate, body.input.startDate < d) ↔
      (¬ body.startDate.Real → ∀ d ∈ body.endDate, body.startDate.days < d.days) := by
  simp only [input, Option.mem_map, forall_exists_index, and_imp, forall_apply_eq_imp_iff₂]
  constructor
  · exact fun after _ => after
  · intro after d ends
    by_cases real : body.startDate.Real
    · exact IsoDate.days_lt real (body.ends d ends)
    · exact after real d ends

/-- A well-dated contract stays so exactly when its new end is after its start. -/
theorem UpdateContractBody.wellDated_iff (body : UpdateContractBody) {k : ContractRow}
    (ordered : k.WellDated) :
    (body.input.patch.apply k).WellDated ↔ ∀ d ∈ body.endDate, k.startDate < d.days := by
  unfold ContractRow.WellDated at *
  cases ends : body.endDate with
  | none => simpa [input, UpdateContractInput.patch, ContractPatch.apply, ends] using ordered
  | some d => simp [input, UpdateContractInput.patch, ContractPatch.apply, ends]

/-- **One call** keeps the dates in order exactly when it is in order itself. -/
theorem ContractRequest.commit_wellDated_iff (S : Server) {e : Estate} (ordered : e.WellDated)
    (r : ContractRequest) : (r.commit S e).WellDated ↔ r.InOrder e := by
  cases r with
  | create ctx newId body =>
    obtain ⟨stores, refuses⟩ :=
      ContractService.create_serves S ctx e newId body.input
    by_cases creatable : ContractService.Creatable ctx newId body.input e
    · obtain ⟨k, makes, served⟩ := stores creatable
      rw [commit, LeasingCall.commit, LeasingCall.commit.serve, (served.serve _).2,
        e.wellDated_put ordered, ContractRow.WellDated, makes.startDate, makes.endDate,
        body.ends_after_iff]
      exact ⟨fun after _ => after, fun inOrder => inOrder creatable⟩
    · obtain ⟨err, served⟩ := refuses creatable
      rw [commit, LeasingCall.commit, LeasingCall.commit.serve, (served.serve _).2]
      exact iff_of_true ordered fun h => absurd h creatable
  | update ctx id body =>
    cases found : contract? ctx.companyId e id with
    | none =>
      obtain ⟨err, served⟩ := ContractService.update_missing S body.input found
      rw [commit, LeasingCall.commit, LeasingCall.commit.serve, (served.serve _).2]
      exact iff_of_true ordered fun k hk => by simp [found] at hk
    | some k =>
      have stored : k ∈ e.contracts.rows := ContractService.contract?_mem found
      obtain ⟨patches, refuses⟩ := ContractService.update_serves S body.input found
      have only : (ContractRequest.update ctx id body).InOrder e ↔
          (ContractService.Updatable ctx body.input k e →
            ∀ d ∈ body.endDate, k.startDate < d.days) := by simp [InOrder, found]
      rw [only]
      by_cases updatable : ContractService.Updatable ctx body.input k e
      · rw [commit, LeasingCall.commit, LeasingCall.commit.serve,
          ((patches updatable).serve _).2, e.wellDated_put ordered,
          body.wellDated_iff (ordered k stored)]
        exact ⟨fun after _ => after, fun inOrder => inOrder updatable⟩
      · obtain ⟨err, served⟩ := refuses updatable
        rw [commit, LeasingCall.commit, LeasingCall.commit.serve, (served.serve _).2]
        exact iff_of_true ordered fun h => absurd h updatable

/-- **Contracts end after they start** through any sequence of contracts made
and changed, exactly when every call is in order. -/
theorem contracts_well_dated_iff (S : Server) (e : Estate) (start : e.WellDated)
    (rs : List ContractRequest) :
    (∀ e' ∈ states (ContractRequest.commit S) e rs, e'.WellDated) ↔
      Throughout (ContractRequest.commit S) ContractRequest.InOrder e rs :=
  states_iff (I := fun _ => True) (P := fun _ _ => True) (fun _ _ _ _ => trivial)
    (fun _ r _ ordered _ => r.commit_wellDated_iff S ordered) trivial start
    (throughout_true _ e rs)

namespace Demo

def date (year month day : Nat) (h : year < 10000 ∧ (1 ≤ month ∧ month ≤ 12) ∧ 1 ≤ day ∧ day ≤ 31 :=
    by decide) : IsoDate := ⟨year, month, day, h⟩

def aprilOn : CreateContractBody where
  unitId := 201
  tenantId := 11
  startDate := date 2026 4 1
  endDate := none
  rentAmount := ⟨2000, 0⟩
  depositAmount := ⟨0, 0⟩
  notes := none
  ends := by simp

/-- Staff moves the end of a draft. -/
def moveEnd (d : IsoDate) : ContractRequest := .update Dormitory.Demo.ctx 101 ⟨none, some d, none⟩

theorem vacant_wellDated : vacant.WellDated := fun _ hk => by cases hk

/-- The start rolls over to 2 March, a day after the end. -/
def rolledOver : CreateContractBody :=
  { aprilOn with
    startDate := date 2026 2 30
    endDate := some (date 2026 3 1)
    ends := by decide }

example : ¬ (ContractRequest.create Dormitory.Demo.ctx 101 rolledOver).InOrder vacant := by
  decide +kernel

end Demo

open Dormitory.Demo in
/-- A year's contract. -/
theorem contracts_well_dated_year :
    (∃ k ∈ ([ContractRequest.create ctx 101 Demo.aprilOn,
        Demo.moveEnd (Demo.date 2027 3 31)].foldl (ContractRequest.commit server)
          Demo.vacant).contracts.rows, k.endDate = some (Civil.days ⟨2027, 3, 31⟩)) ∧
    ∀ e ∈ states (ContractRequest.commit server) Demo.vacant
      [.create ctx 101 Demo.aprilOn, Demo.moveEnd (Demo.date 2027 3 31)], e.WellDated :=
  ⟨by decide +kernel, (contracts_well_dated_iff server Demo.vacant Demo.vacant_wellDated _).mpr
    ⟨fun _ _ => by decide, by decide +kernel, trivial⟩⟩

open Dormitory.Demo in
/-- An end before the start is stored. -/
theorem end_moved_before_start :
    ∃ e ∈ states (ContractRequest.commit server) Demo.vacant
      [.create ctx 101 Demo.aprilOn, Demo.moveEnd (Demo.date 2026 3 1)], ¬ e.WellDated := by
  refine ⟨_, last_mem_states _ _ _, fun ordered => ?_⟩
  have inverted : ∃ k ∈ ([ContractRequest.create ctx 101 Demo.aprilOn,
      Demo.moveEnd (Demo.date 2026 3 1)].foldl (ContractRequest.commit server)
        Demo.vacant).contracts.rows, ∃ d ∈ k.endDate, d ≤ k.startDate := by decide +kernel
  obtain ⟨k, hk, d, ends, before⟩ := inverted
  exact absurd (ordered k hk d ends) (by omega)

end Leasing
end Dormitory
