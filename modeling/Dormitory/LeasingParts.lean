import Dormitory.BillingParts

/-!
# The leases of one company

The rows of one company in the tables of contracts, meters and readings, and that
the statements and the calls of its requests stay among them.
-/

namespace Dormitory.Leasing
open Txn

section references
variable (home : Id → Id)

structure Estate.Housed (e : Estate) : Prop where
  contracts : e.contracts.Housed home (fun k => k.companyId) fun k => k.toContract.Refers home
  meters : e.meters.Housed home (fun m => m.companyId) fun m => m.toMeter.Refers home
  readings : e.readings.Housed home (fun r => r.companyId) fun r => r.toReading.Refers home
  books : e.books.Housed home

def Row.Own (c : Id) : Row → Prop
  | contract r => r.companyId = c ∧ home r.id = c ∧ r.toContract.Refers home
  | meter r => r.companyId = c ∧ home r.id = c ∧ r.toMeter.Refers home
  | reading r => r.companyId = c ∧ home r.id = c ∧ r.toReading.Refers home

/-- The data of an insert are of the company. -/
def Query.Own (c : Id) : Query → Prop
  | contractCreate d => d.companyId = c ∧ home d.id = c ∧ home d.unitId = c ∧ home d.tenantId = c
  | meterCreate d => d.companyId = c ∧ home d.id = c ∧ home d.unitId = c
  | readingCreate d => d.companyId = c ∧ home d.id = c ∧ home d.meterId = c
  | _ => True

def Statement.Own (c : Id) (s : Statement) : Prop := s.company = c ∧ s.query.Own home c

end references

/-- The rows of the company. What `books` has of contracts, meters and readings is
no table of its own. -/
def Estate.part (c : Id) (e : Estate) : Estate where
  contracts := e.contracts.shard (fun k => k.companyId) c
  meters := e.meters.shard (fun m => m.companyId) c
  readings := e.readings.shard (fun r => r.companyId) c
  books := { e.books.part c with contracts := default, meters := default, readings := default }

section statements
variable {home : Id → Id} {S : Server} {c : Id} {e : Estate}

namespace Estate
open Table

@[simp] theorem contract?_part (id : Id) : contract? c (e.part c) id = contract? c e id :=
  filter_find?_shard

@[simp] theorem meter?_part (id : Id) : meter? c (e.part c) id = meter? c e id :=
  filter_find?_shard

@[simp] theorem reading?_part (id : Id) : reading? c (e.part c) id = reading? c e id :=
  filter_find?_shard

@[simp] theorem priorReading_part (meterId : Id) (period : Period) :
    priorReading c (e.part c) meterId period = priorReading c e meterId period :=
  congrArg _ (filter_shard fun _ _ holds => holds.1)

variable (housed : e.Housed home)
include housed

theorem Housed.apply {w : Row} (own : w.Own home c) : (w.apply e).Housed home := by
  cases w with
  | contract r =>
    obtain ⟨mine, here, refers⟩ := own
    exact { housed with contracts := housed.contracts.put (here.trans mine.symm) refers }
  | meter r =>
    obtain ⟨mine, here, refers⟩ := own
    exact { housed with meters := housed.meters.put (here.trans mine.symm) refers }
  | reading r =>
    obtain ⟨mine, here, refers⟩ := own
    exact { housed with readings := housed.readings.put (here.trans mine.symm) refers }

theorem Housed.apply_part {w : Row} (own : w.Own home c) :
    (w.apply e).part c = w.apply (e.part c) := by
  cases w with
  | contract r =>
    obtain ⟨mine, here, -⟩ := own
    simp only [Row.apply, Estate.part, housed.contracts.shard_put (here.trans mine.symm) mine]
  | meter r =>
    obtain ⟨mine, here, -⟩ := own
    simp only [Row.apply, Estate.part, housed.meters.shard_put (here.trans mine.symm) mine]
  | reading r =>
    obtain ⟨mine, here, -⟩ := own
    simp only [Row.apply, Estate.part, housed.readings.shard_put (here.trans mine.symm) mine]

theorem Housed.apply_other {w : Row} {d : Id} (own : w.Own home c) (apart : c ≠ d) :
    (w.apply e).part d = e.part d := by
  cases w with
  | contract r =>
    obtain ⟨rfl, here, -⟩ := own
    simp only [Row.apply, Estate.part, housed.contracts.shard_put_ne here apart]
  | meter r =>
    obtain ⟨rfl, here, -⟩ := own
    simp only [Row.apply, Estate.part, housed.meters.shard_put_ne here apart]
  | reading r =>
    obtain ⟨rfl, here, -⟩ := own
    simp only [Row.apply, Estate.part, housed.readings.shard_put_ne here apart]

end Estate

open Table

section
variable (housed : e.Housed home)
include housed

theorem createContract_part {d : ContractData} (own : (Query.contractCreate d).Own home c) :
    createContract S (e.part c) d = createContract S e d := by
  have free : (e.part c).contracts.find? d.id = e.contracts.find? d.id :=
    housed.contracts.find? own.2.1
  simp only [createContract, free]

theorem createMeter_part {d : MeterData} (own : (Query.meterCreate d).Own home c) :
    createMeter S (e.part c) d = createMeter S e d := by
  obtain ⟨-, here, unit⟩ := own
  have free : (e.part c).meters.find? d.id = e.meters.find? d.id := housed.meters.find? here
  have taken : (∃ m ∈ (e.part c).meters.rows, m.unitId = d.unitId ∧ m.kind = d.kind) ↔
      ∃ m ∈ e.meters.rows, m.unitId = d.unitId ∧ m.kind = d.kind := by
    refine exists_shard fun m hm holds => ?_
    have refers : home m.unitId = m.companyId := housed.meters.rows m hm
    rw [← refers, holds.1, unit]
  simp only [createMeter, free, taken]

theorem createReading_part {d : ReadingData} (own : (Query.readingCreate d).Own home c) :
    createReading S (e.part c) d = createReading S e d := by
  obtain ⟨-, here, meter⟩ := own
  have free : (e.part c).readings.find? d.id = e.readings.find? d.id :=
    housed.readings.find? here
  have taken : (∃ r ∈ (e.part c).readings.rows, r.meterId = d.meterId ∧ r.period = d.period) ↔
      ∃ r ∈ e.readings.rows, r.meterId = d.meterId ∧ r.period = d.period := by
    refine exists_shard fun r hr holds => ?_
    have refers : home r.meterId = r.companyId := housed.readings.rows r hr
    rw [← refers, holds.1, meter]
  simp only [createReading, free, taken]

/-- **A statement of a company's request answers from the company's rows.** -/
theorem run_part {q : Query} (own : q.Own home c) : run S c (e.part c) q = run S c e q := by
  cases q with
  | contractCreate data => exact createContract_part housed own
  | meterCreate data => exact createMeter_part housed own
  | readingCreate data => exact createReading_part housed own
  | unitFindUnique id => exact congrArg (fun a => Except.ok ([], a)) filter_find?_shard
  | tenantFindUnique id => exact congrArg (fun a => Except.ok ([], a)) filter_find?_shard
  | contractFindOverlap window =>
    exact congrArg (fun a => Except.ok ([], a)) (search_shard fun _ _ holds => holds.1)
  | contractFindUnique id => simp only [run, Estate.contract?_part]
  | contractUpdate id data => simp only [run, updateContract, Estate.contract?_part]
  | meterFindUnique id => simp only [run, Estate.meter?_part]
  | meterUpdate id data => simp only [run, updateMeter, Estate.meter?_part]
  | readingFindUnique id => simp only [run, Estate.reading?_part]
  | readingFindPrior meterId period => simp only [run, Estate.priorReading_part]
  | readingUpdate id data => simp only [run, updateReading, Estate.reading?_part]

theorem contract_own {id : Id} {k : ContractRow} (found : contract? c e id = some k) :
    (Row.contract k).Own home c := by
  obtain ⟨stored, company⟩ := Option.filter_eq_some_iff.mp found
  simp only [decide_eq_true_eq] at company
  have mem := find?_mem stored
  exact ⟨company, (housed.contracts.keys k mem).trans company, housed.contracts.rows k mem⟩

theorem meter_own {id : Id} {m : MeterRow} (found : meter? c e id = some m) :
    (Row.meter m).Own home c := by
  obtain ⟨stored, company⟩ := Option.filter_eq_some_iff.mp found
  simp only [decide_eq_true_eq] at company
  have mem := find?_mem stored
  exact ⟨company, (housed.meters.keys m mem).trans company, housed.meters.rows m mem⟩

theorem reading_own {id : Id} {r : ReadingRow} (found : reading? c e id = some r) :
    (Row.reading r).Own home c := by
  obtain ⟨stored, company⟩ := Option.filter_eq_some_iff.mp found
  simp only [decide_eq_true_eq] at company
  have mem := find?_mem stored
  exact ⟨company, (housed.readings.keys r mem).trans company, housed.readings.rows r mem⟩

/-- **A statement of a company's request writes rows of the company.** -/
theorem run_own {q : Query} {ws : List Row} {a : q.Ans} (own : q.Own home c)
    (ran : run S c e q = .ok (ws, a)) : ∀ w ∈ ws, w.Own home c := by
  cases q with
  | contractCreate data =>
    obtain ⟨company, here, unit, tenant⟩ := own
    simp only [run, createContract] at ran
    split at ran
    · repeat (split at ran; · cases ran)
      cases ran
      intro w hw
      obtain rfl := List.mem_singleton.mp hw
      exact ⟨company, here, unit.trans company.symm, tenant.trans company.symm⟩
    · cases ran
  | meterCreate data =>
    obtain ⟨company, here, unit⟩ := own
    simp only [run, createMeter] at ran
    split at ran
    · cases ran
    repeat (split at ran; · cases ran)
    cases ran
    intro w hw
    obtain rfl := List.mem_singleton.mp hw
    exact ⟨company, here, unit.trans company.symm⟩
  | readingCreate data =>
    obtain ⟨company, here, meter⟩ := own
    simp only [run, createReading] at ran
    split at ran
    · repeat (split at ran; · cases ran)
      cases ran
      intro w hw
      obtain rfl := List.mem_singleton.mp hw
      exact ⟨company, here, meter.trans company.symm⟩
    · cases ran
  | contractUpdate id data =>
    simp only [run, updateContract] at ran
    split at ran
    · cases ran
    rename_i k found
    split at ran
    · cases ran
    · cases ran
      intro w hw
      obtain rfl := List.mem_singleton.mp hw
      obtain ⟨company, here, refers⟩ := contract_own housed found
      exact ⟨company, here, refers⟩
  | meterUpdate id data =>
    simp only [run, updateMeter] at ran
    split at ran
    · cases ran
    rename_i m found
    split at ran
    · cases ran
    split at ran
    · cases ran
    · cases ran
      intro w hw
      obtain rfl := List.mem_singleton.mp hw
      obtain ⟨company, here, refers⟩ := meter_own housed found
      exact ⟨company, here, refers⟩
  | readingUpdate id data =>
    simp only [run, updateReading] at ran
    split at ran
    · cases ran
    rename_i r found
    split at ran
    · split at ran
      · cases ran
      · cases ran
        intro w hw
        obtain rfl := List.mem_singleton.mp hw
        obtain ⟨company, here, refers⟩ := reading_own housed found
        exact ⟨company, here, refers⟩
    · cases ran
  | unitFindUnique | tenantFindUnique | contractFindUnique | contractFindOverlap | meterFindUnique
  | readingFindUnique | readingFindPrior =>
    cases ran
    exact List.forall_mem_nil _

end

theorem leasing_confined (home : Id → Id) (S : Server) (c : Id) :
    Confined (engine S) (Estate.Housed home) (Statement.Own home c) (Row.Own home c) := by
  constructor
  · rintro ⟨company, q⟩ e ws a ⟨rfl, own⟩ housed ran
    exact run_own housed own ran
  · intro e w housed own
    exact housed.apply own

theorem leasing_inside (home : Id → Id) (S : Server) (c : Id) :
    Inside (engine S) (Estate.Housed home) (Statement.Own home c) (Row.Own home c)
      (Estate.part c) := by
  constructor
  · rintro ⟨company, q⟩ e ⟨rfl, own⟩ housed
    exact run_part housed own
  · intro e w housed own
    exact housed.apply_part own

theorem leasing_outside (home : Id → Id) (S : Server) {c d : Id} (apart : c ≠ d) :
    Outside (engine S) (Estate.Housed home) (Row.Own home c) (Estate.part d) :=
  fun _ _ housed own => housed.apply_other own apart

end statements

/-! ## The calls -/

section calls
variable {home : Id → Id} {S : Server} {ctx : Ctx} {α : Type}

/-- All statements of the program are of the company, and what it returns is as `R`
says. -/
abbrev Own (home : Id → Id) (S : Server) (c : Id) (R : α → Prop) (p : Prog leasing α) : Prop :=
  p.Asks (engine S) (Estate.Housed home) (Statement.Own home c) R

theorem prisma_own {q : Query} (own : q.Own home ctx.companyId) :
    Own home S ctx.companyId (fun _ => True) (prisma ctx q) :=
  Prog.Asks.query' (σ := leasing) (s := (⟨ctx.companyId, q⟩ : Statement)) ⟨rfl, own⟩

/-- A statement, whatever it answers, and the rest of the program. -/
theorem read_own {q : Query} {f : q.Ans → Prog leasing α} {R : α → Prop}
    (own : q.Own home ctx.companyId) (rest : ∀ a, Own home S ctx.companyId R (f a)) :
    Own home S ctx.companyId R (prisma ctx q >>= f) :=
  (prisma_own own).bind fun a _ => rest a

/-- A statement, and what its answer is known to be. -/
theorem prisma_told {q : Query} {R : q.Ans → Prop} (own : q.Own home ctx.companyId)
    (told : ∀ e ws a, Estate.Housed home e → run S ctx.companyId e q = .ok (ws, a) → R a) :
    Own home S ctx.companyId R (prisma ctx q) :=
  Prog.Asks.query (σ := leasing) (s := (⟨ctx.companyId, q⟩ : Statement)) ⟨rfl, own⟩ told

/-- A check that only lets ids of the company pass. -/
theorem visible_own {q : Query} {f : q.Ans → Prog leasing Unit} {id : Id} {R : q.Ans → Prop}
    (own : q.Own home ctx.companyId)
    (told : ∀ e ws a, Estate.Housed home e → run S ctx.companyId e q = .ok (ws, a) → R a)
    (checks : ∀ a, R a → (∃ err, f a = Prog.throw err) ∨
      f a = pure () ∧ home id = ctx.companyId) :
    Own home S ctx.companyId (fun _ => home id = ctx.companyId) (prisma ctx q >>= f) := by
  refine (prisma_told own told).bind fun a holds => ?_
  rcases checks a holds with ⟨err, thrown⟩ | ⟨passed, here⟩
  · rw [thrown]
    trivial
  · rw [passed]
    exact here

theorem assertUnitVisible_own (unitId : Id) :
    Own home S ctx.companyId (fun _ => home unitId = ctx.companyId)
      (assertUnitVisible ctx unitId) := by
  refine visible_own (R := fun found => ∀ u ∈ found, home unitId = ctx.companyId) trivial
    (fun e ws a housed ran u found => ?_) fun a holds => ?_
  · cases ran
    obtain ⟨stored, company⟩ := Option.filter_eq_some_iff.mp found
    simp only [decide_eq_true_eq] at company
    rw [← Table.find?_key stored, housed.books.units.keys u (Table.find?_mem stored), company]
  · cases a with
    | none => exact .inl ⟨_, rfl⟩
    | some u => exact .inr ⟨rfl, holds u rfl⟩

namespace ContractService

theorem assertTenantVisible_own (tenantId : Id) :
    Own home S ctx.companyId (fun _ => home tenantId = ctx.companyId)
      (assertTenantVisible ctx tenantId) := by
  refine visible_own (R := fun found => ∀ t ∈ found, home tenantId = ctx.companyId) trivial
    (fun e ws a housed ran t found => ?_) fun a holds => ?_
  · cases ran
    obtain ⟨stored, company⟩ := Option.filter_eq_some_iff.mp found
    simp only [decide_eq_true_eq] at company
    rw [← Table.find?_key stored, housed.books.tenants.keys t (Table.find?_mem stored), company]
  · cases a with
    | none => exact .inl ⟨_, rfl⟩
    | some t => exact .inr ⟨rfl, holds t rfl⟩

theorem assertNoOverlap_own (args : Overlap) :
    Own home S ctx.companyId (fun _ => True) (assertNoOverlap ctx args) := by
  refine read_own trivial fun overlap => ?_
  cases overlap with
  | none => trivial
  | some k => trivial

theorem getById_own (id : Id) : Own home S ctx.companyId (fun _ => True) (getById ctx id) := by
  refine read_own trivial fun row => ?_
  cases row with
  | none => trivial
  | some row => trivial

theorem create_own {newId : Id} {input : CreateContractInput} (drawn : home newId = ctx.companyId) :
    Own home S ctx.companyId (fun _ => True) (create ctx newId input) :=
  (assertUnitVisible_own input.unitId).bind fun _ unit =>
    (assertTenantVisible_own input.tenantId).bind fun _ tenant =>
      (assertNoOverlap_own _).bind fun _ _ => prisma_own ⟨rfl, drawn, unit, tenant⟩

theorem update_own (id : Id) (input : UpdateContractInput) :
    Own home S ctx.companyId (fun _ => True) (update ctx id input) := by
  refine (getById_own id).bind fun existing _ => ?_
  dsimp only
  split
  · exact (assertNoOverlap_own _).bind fun _ _ => prisma_own trivial
  · exact prisma_own trivial

end ContractService

/-- A guarded INSERT. -/
theorem attempt_own {q : Query} {taken : Failure → Bool} {err : Failure}
    (own : q.Own home ctx.companyId) :
    Own home S ctx.companyId (fun _ => True)
      (Prog.attempt (prisma ctx q) fun e => if taken e then Prog.throw err else Prog.throw e) := by
  refine Prog.Asks.attempt (prisma_own own) fun e => ?_
  split
  · trivial
  · trivial

namespace MeterService

theorem getById_own (id : Id) : Own home S ctx.companyId (fun _ => True) (getById ctx id) := by
  refine read_own trivial fun row => ?_
  cases row with
  | none => trivial
  | some row => trivial

theorem create_own {newId : Id} {input : CreateMeterInput} (drawn : home newId = ctx.companyId) :
    Own home S ctx.companyId (fun _ => True) (create ctx newId input) :=
  (assertUnitVisible_own input.unitId).bind fun _ unit => attempt_own ⟨rfl, drawn, unit⟩

theorem update_own (id : Id) (input : MeterPatch) :
    Own home S ctx.companyId (fun _ => True) (update ctx id input) :=
  (getById_own id).bind fun _ _ => prisma_own trivial

end MeterService

namespace ReadingService

theorem assertMeterVisible_own (meterId : Id) :
    Own home S ctx.companyId (fun _ => home meterId = ctx.companyId)
      (assertMeterVisible ctx meterId) := by
  refine visible_own (R := fun found => ∀ m ∈ found, home meterId = ctx.companyId) trivial
    (fun e ws a housed ran m found => ?_) fun a holds => ?_
  · cases ran
    obtain ⟨-, here, -⟩ := meter_own housed found
    rw [← here]
    exact congrArg home (Table.find?_key (Option.filter_eq_some_iff.mp found).1).symm
  · cases a with
    | none => exact .inl ⟨_, rfl⟩
    | some m => exact .inr ⟨rfl, holds m rfl⟩

theorem getById_own (id : Id) : Own home S ctx.companyId (fun _ => True) (getById ctx id) := by
  refine read_own trivial fun row => ?_
  cases row with
  | none => trivial
  | some row => trivial

theorem resolveValuePrevious_own (meterId : Id) (period : Period) :
    Own home S ctx.companyId (fun _ => True) (resolveValuePrevious ctx meterId period) := by
  refine read_own trivial fun prior => ?_
  cases prior with
  | none => trivial
  | some prior => trivial

theorem create_own {newId : Id} {now : Instant} {input : CreateReadingInput}
    (drawn : home newId = ctx.companyId) :
    Own home S ctx.companyId (fun _ => True) (create ctx newId now input) := by
  refine (assertMeterVisible_own input.meterId).bind fun _ meter =>
    (resolveValuePrevious_own _ _).bind fun valuePrevious _ => ?_
  dsimp only
  split
  · trivial
  · exact attempt_own ⟨rfl, drawn, meter⟩

theorem update_own (id : Id) (input : UpdateReadingInput) :
    Own home S ctx.companyId (fun _ => True) (update ctx id input) := by
  refine (getById_own id).bind fun existing _ => ?_
  cases input.valueCurrent with
  | none => exact prisma_own trivial
  | some valueCurrent =>
    dsimp only
    split
    · trivial
    · exact prisma_own trivial

end ReadingService
end calls
end Dormitory.Leasing
