import Dormitory.Invites
import Dormitory.OwnBooks

/-!
# Foreign keys across companies

Every call that writes one of the tables, in any order and by any companies, and
which sequences keep all references inside one company.
-/

namespace Dormitory

/-! ## Invites -/

namespace Tenancy
open Txn
variable {S : Server}

theorem sweep_endsIn {n : Nat} (candidate : TenantInvite) :
    (TenantInviteService.sweep candidate).EndsIn (engine S) (n + 1) :=
  .tx (.bind _ fun _ => .ret _ (.done _))

theorem redeemPending_endsIn {n : Nat} (candidate : TenantInvite) (slug : String) (auditId : Id)
    (now : Instant) (lineUserId : String) :
    (TenantInviteService.redeemPending candidate slug auditId now lineUserId).EndsIn (engine S)
      (n + 1) := by
  refine .tx (.bind _ fun count => ?_)
  split
  · exact .fail _ _
  · exact .bind _ fun _ => .bind _ fun _ => .ret _ (.done _)

theorem redeemFound_endsIn {n : Nat} (candidate : TenantInvite) (slug : String) (auditId : Id)
    (now now' : Instant) (lineUserId : String) :
    (TenantInviteService.redeemFound candidate slug auditId now now' lineUserId).EndsIn (engine S)
      (n + 1) := by
  have rest : (TenantInviteService.redeemFound.rest candidate slug auditId now now'
      lineUserId).EndsIn (engine S) (n + 1) := by
    unfold TenantInviteService.redeemFound.rest
    split
    · exact .done _
    split
    · exact sweep_endsIn candidate
    · exact redeemPending_endsIn candidate slug auditId now' lineUserId
  unfold TenantInviteService.redeemFound
  split
  · split
    · exact .done _
    · exact rest
  · exact rest

theorem request_endsIn {n : Nat} (row : AuditLog) (handle : Prog tenancy Answer) :
    (request row handle).EndsIn (engine S) (n + 1) :=
  .tx (.bind _ fun _ => .bind _ fun _ => .ret _ (.done _))

/-- No call takes more than two transactions. -/
theorem InviteCall.endsIn (S : Server) (sha256Hex : String → String) (call : InviteCall) :
    (call.script sha256Hex).EndsIn (engine S) 2 := by
  cases call with
  | generate => exact request_endsIn _ _
  | revoke => exact request_endsIn _ _
  | updateTenant => exact request_endsIn _ _
  | peek now code =>
    refine .tx (.bind _ fun found => ?_)
    split
    · exact .ret _ (.done _)
    split
    · exact .ret _ (.done _)
    split
    · exact .ret _ (sweep_endsIn _)
    · exact .ret _ (.done _)
  | redeem auditId now now' code lineUserId =>
    refine .tx (.bind _ fun found => ?_)
    split
    · exact .ret _ (.done _)
    · exact .ret _ (redeemFound_endsIn _ _ _ _ _ _)

/-- The tenants of the database stay those that `owner` knows, with their
companies. -/
theorem run_tenants {R : Type} [Keyed R Id] {owner : R → Id} {known : Table R}
    {scope' : Option Id} {q : Query} {db : Db} {ws : List Row} {a : q.Ans}
    (ran : run S scope' db q = .ok (ws, a))
    (all : ∀ t ∈ db.tenants.rows, known.Owns owner t.companyId t.id) :
    ∀ t ∈ (ws.foldl Row.apply db).tenants.rows, known.Owns owner t.companyId t.id := by
  cases q with
  | tenantUpdate id data =>
    obtain ⟨t, seen, rfl⟩ := updateTenant_ok ran
    have stored : t ∈ db.tenants.rows := Table.find?_mem (Option.filter_eq_some_iff.mp seen).1
    intro x hx
    rcases Table.mem_put.mp hx with rfl | ⟨old, -⟩
    · exact all t stored
    · exact all x old
  | inviteCreate data =>
    simp only [run, createInvite] at ran
    repeat (split at ran; · cases ran)
    cases ran
    exact all
  | inviteUpdateMany id status data =>
    simp only [run, updateManyInvites] at ran
    split at ran
    · cases ran
      exact all
    split at ran
    · cases ran
      exact all
    · cases ran
  | auditLogCreate data =>
    simp only [run, createAuditLog] at ran
    split at ran
    · split at ran
      · cases ran
      · cases ran
        exact all
    · cases ran
  | tenantFindUnique | inviteFindUnique | inviteFindFirst | invitePreview =>
    cases ran
    exact all

end Tenancy

namespace Premises
open Txn Leasing

/-- The database as the services of tenants and invites see it. -/
def Dorm.tenancy (s : Dorm) : Tenancy.Db where
  companies := s.estate.books.companies
  users := s.estate.books.users
  tenants := s.tenants.map (fun t => t.toTenantProfile) fun _ => rfl
  properties := s.properties.map (fun p => p.toProperty) fun _ => rfl
  units := s.units.map UnitRow.toDormUnit UnitRow.toDormUnit_key
  leases := s.estate.contracts.map (fun k => ⟨k.toContract, k.startDate⟩) fun _ => rfl
  invites := s.invites
  auditLogs := s.estate.books.auditLogs

/-- The row with the columns of its profile as they are in `d`. -/
def TenantRow.settled (d : Tenancy.Db) (t : TenantRow) : TenantRow :=
  match d.tenants.find? t.id with
  | some profile => { t with toTenantProfile := profile }
  | none => t

theorem TenantRow.settled_key (d : Tenancy.Db) (t : TenantRow) : (settled d t).id = t.id := by
  unfold settled
  split
  · rename_i profile found
    exact Table.find?_key (t := d.tenants) found
  · rfl

/-- The database after these services have left `d`. -/
def Dorm.settle (s : Dorm) (d : Tenancy.Db) : Dorm :=
  { s with
    tenants := s.tenants.map (TenantRow.settled d) (TenantRow.settled_key d)
    invites := d.invites
    estate := { s.estate with books := { s.estate.books with auditLogs := d.auditLogs } } }

section settle
variable {S : Server} {s : Dorm} {d : Tenancy.Db}

theorem settle_own (own : s.OwnReferences)
    (known : ∀ t ∈ d.tenants.rows, s.tenants.Owns (fun t => t.companyId) t.companyId t.id) :
    (s.settle d).OwnReferences := by
  refine own.grow { Dorm.Grown.refl s with tenants := ⟨fun t ht => ?_, fun _ _ => .inr trivial⟩ }
  refine ⟨TenantRow.settled d t, List.mem_map_of_mem ht, TenantRow.settled_key d t, ?_⟩
  unfold TenantRow.settled
  split
  · rename_i profile found
    have owns := known profile (Table.find?_mem found)
    rw [show profile.id = t.id from Table.find?_key (t := d.tenants) found] at owns
    exact owns.unique ⟨t, ht, rfl, rfl⟩
  · rfl

theorem serves_own (own : s.OwnReferences) {script : Script Tenancy.tenancy Tenancy.Answer}
    {queueUp : Nat → Bool} {r : Except ApiError Tenancy.Answer}
    (served : script.Serves (Tenancy.engine S) queueUp s.tenancy r d) :
    (s.settle d).OwnReferences := by
  refine settle_own own (served.keeps (I := fun d : Tenancy.Db =>
    ∀ t ∈ d.tenants.rows, s.tenants.Owns (fun t => t.companyId) t.companyId t.id)
    (fun _ _ _ _ all ran => Tenancy.run_tenants ran all) ?_)
  intro t ht
  obtain ⟨row, stored, rfl⟩ := List.mem_map.mp ht
  exact ⟨row, stored, rfl, rfl⟩

end settle

/-! ## All calls -/

/-- A call of any of the services, with the company it is made in. -/
inductive Request where
  | premises (P : Pgcrypto) (ctx : Ctx) (call : PremisesCall)
  | leasing (ctx : Ctx) (call : LeasingCall)
  | invoicing (r : InvoicingRequest) (accepted : r.Accepted)
  | billing (r : Dormitory.Request)
  | invites (sha256Hex : String → String) (call : Tenancy.InviteCall)

def Request.commit (S : Server) (s : Dorm) : Request → Dorm
  | premises P ctx call => call.commit S P ctx s
  | leasing ctx call => { s with estate := call.commit S ctx s.leased }
  | invoicing r _ => { s with estate := { s.estate with books := r.commit S s.db } }
  | billing r => { s with estate := { s.estate with books := r.commit S s.db } }
  | invites sha256Hex call =>
    match (call.script sha256Hex).serve (Tenancy.engine S) (fun _ => true) 2 s.tenancy with
    | some (_, d) => s.settle d
    | none => s

/-- The single invoices bill readings of their company. -/
def Request.OwnReadings (s : Dorm) : Request → Prop
  | invoicing r _ => Premises.OwnReadings s r
  | premises _ _ _ | leasing _ _ | billing _ | invites _ _ => True

/-- **One call** keeps all references inside exactly when the invoice it makes
bills readings of its company. -/
theorem Request.commit_own_iff (S : Server) {s : Dorm} (own : s.OwnReferences) (r : Request) :
    (r.commit S s).OwnReferences ↔ r.OwnReadings s := by
  cases r with
  | premises P ctx call => exact iff_of_true (call.commit_own own) trivial
  | leasing ctx call => exact iff_of_true (LeasingCall.commit_own own call) trivial
  | invoicing r accepted => exact invoicing_own own accepted
  | billing r => exact iff_of_true (billing_own own r) trivial
  | invites sha256Hex call =>
    obtain ⟨answer, d, ends⟩ := call.endsIn S sha256Hex (fun _ => true) s.tenancy
    have left : (Request.invites sha256Hex call).commit S s = s.settle d := by
      simp only [commit, ends]
    rw [left]
    exact iff_of_true (serves_own own (Script.serve_serves ends)) trivial

namespace Demo

def pgcrypto : Pgcrypto := ⟨id, some⟩

/-- A company opens a property with one room and lets it; its ids start at `n`. -/
def opens (company n : Id) : List Request :=
  [.premises pgcrypto ⟨company⟩ (.createProperty (n + 1) ⟨"baan", "Baan", none⟩),
    .premises pgcrypto ⟨company⟩ (.createUnit (n + 2) ⟨n + 1, "A1", none, none, ⟨2000, 0⟩, none⟩),
    .premises pgcrypto ⟨company⟩ (.createTenant (n + 3) ⟨none, "Somchai", none, none, none⟩),
    .leasing ⟨company⟩ (.createContract (n + 4)
      ⟨n + 2, n + 3, Civil.days ⟨2026, 4, 1⟩, none, ⟨2000, 0⟩, ⟨0, 0⟩, none⟩)]

/-- An electricity meter of the room, and its reading. -/
def meters (company n : Id) : List Request :=
  [.leasing ⟨company⟩ (.createMeter (n + 5) ⟨n + 2, .electric, none, "kWh", ⟨8, 0⟩⟩),
    .leasing ⟨company⟩ (.createReading (n + 6) 0
      ⟨n + 5, Dormitory.Demo.april, ⟨"250.00", ⟨25000, 2⟩⟩, none, none⟩)]

def electricity (contractId readingId : Id) : CreateInvoiceInput where
  contractId := contractId
  period := Dormitory.Demo.april
  dueDate := 0
  items := [⟨.electric, "ค่าไฟฟ้า", ⟨250, 0⟩, ⟨8, 0⟩, some readingId, none⟩]

theorem electricity_accepted (contractId readingId : Id) :
    (electricity contractId readingId).Accepted where
  items := by
    intro it hit
    obtain rfl := List.mem_singleton.mp hit
    exact ⟨(by decide : 1 ≤ "ค่าไฟฟ้า".length ∧ "ค่าไฟฟ้า".length ≤ 255),
      (by decide : Decimal.Digits 10 2 ⟨250, 0⟩), (by decide : Decimal.Digits 6 4 ⟨8, 0⟩)⟩
  nonempty := Nat.le_refl 1
  array := (by decide : 1 < 2 ^ 32)

/-- A single invoice for the reading. -/
def bill (company newId contractId readingId : Id) : Request :=
  .invoicing ⟨⟨company⟩, fun _ => true, .create newId 0 (electricity contractId readingId)⟩
    (electricity_accepted contractId readingId)

/-- The company bills its own reading. -/
def billsOwn : List Request := opens 1 100 ++ meters 1 100 ++ [bill 1 107 104 106]

/-- Another company bills that reading. -/
def billsOther : List Request :=
  opens 1 100 ++ meters 1 100 ++ opens 2 200 ++ [bill 2 207 204 106]

theorem empty_own : ({} : Dorm).OwnReferences := by
  constructor <;> (intro x hx; cases hx)

end Demo

/-- **Every foreign key stays inside one company**, through any sequence of calls
of any companies, exactly when every single invoice that goes in bills readings of
its company. -/
theorem foreign_keys_own_iff (S : Server) (s : Dorm) (start : s.OwnReferences)
    (rs : List Request) :
    (∀ s' ∈ states (Request.commit S) s rs, s'.OwnReferences) ↔
      Throughout (Request.commit S) (fun s r => r.OwnReadings s) s rs :=
  states_iff (I := fun _ => True) (P := fun _ _ => True) (fun _ _ _ _ => trivial)
    (fun _ r _ own _ => r.commit_own_iff S own) trivial start (throughout_true _ s rs)

open Dormitory.Demo in
/-- From a first property to an invoice. -/
theorem foreign_keys_own_billed :
    (∃ i ∈ (Demo.billsOwn.foldl (Request.commit server) {}).estate.books.invoices.rows,
      i.Bills 106) ∧
    ∀ s ∈ states (Request.commit server) {} Demo.billsOwn, s.OwnReferences :=
  ⟨by decide +kernel,
    (foreign_keys_own_iff server {} Demo.empty_own Demo.billsOwn).mpr
      ⟨trivial, trivial, trivial, trivial, trivial, trivial, fun _ _ => by decide +kernel,
        trivial⟩⟩

open Dormitory.Demo in
/-- An invoice item of company 2 for a reading of company 1 is stored. -/
theorem foreign_reading_billed :
    ∃ s ∈ states (Request.commit server) {} Demo.billsOther, ¬ s.OwnReferences := by
  refine ⟨_, last_mem_states _ _ _, fun own => ?_⟩
  have foreign : ∃ i ∈ (Demo.billsOther.foldl (Request.commit server)
        {}).estate.books.invoices.rows, ∃ it ∈ i.items, ∃ readingId ∈ it.readingId,
      ¬ (Demo.billsOther.foldl (Request.commit server) {}).estate.readings.Owns
        (fun r => r.companyId) it.companyId readingId := by decide +kernel
  obtain ⟨i, hi, it, hit, readingId, names, foreign⟩ := foreign
  exact foreign ((own.invoices i hi).items it hit readingId names)

end Premises
end Dormitory
