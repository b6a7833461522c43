import Dormitory.ForeignKeys
import Dormitory.Shards
import Dormitory.Txn.Confined

/-!
# What a statement can change

The rows of a company that the permissions speak of, and which of them a statement of
each service can change. Ids are looked up under row-level security, so a statement
that finds a row finds one of its own company, and an insert takes a free key.
-/

namespace Dormitory

/-! ## Agreeing tables -/

namespace Table
variable {R K : Type} [Keyed R K] {Q : R → Prop} [DecidablePred Q] {t t' t'' : Table R} {r p : R}

/-- The rows with `Q` are the same, in the same order. -/
def Agree (Q : R → Prop) [DecidablePred Q] (t t' : Table R) : Prop :=
  t'.rows.filter (fun r => Q r) = t.rows.filter fun r => Q r

theorem Agree.refl (t : Table R) : Agree Q t t := rfl

theorem Agree.trans (first : Agree Q t t') (second : Agree Q t' t'') : Agree Q t t'' :=
  Eq.trans second first

theorem Agree.mem (same : Agree Q t t') (holds : Q r) : r ∈ t'.rows ↔ r ∈ t.rows := by
  have listed : r ∈ t'.rows.filter (fun r => Q r) ↔ r ∈ t.rows.filter fun r => Q r := by rw [same]
  simpa [List.mem_filter, holds] using listed

variable [DecidableEq K]

/-- A row without `Q`, in no row's place or in the place of one without `Q`. -/
theorem Agree.put (new : ¬Q r) (old : ∀ x ∈ t.find? (key r), ¬Q x) : Agree Q t (t.put r) := by
  refine filter_put_of_not new fun x hx same => old x ?_
  rw [← same]
  exact find?_of_mem hx

/-- A row with an owner, in no row's place or in the place of one of the owner's, seen
among the rows of another owner. -/
theorem Agree.put_owned {O : Type} {owner : R → O} {c d : O} (mine : owner r = c)
    (takes : ∀ x ∈ t.find? (key r), owner x = c) (apart : d ≠ c)
    (theirs : ∀ x, Q x → owner x = d) : Agree Q t (t.put r) := by
  refine Agree.put (fun here => ?_) fun x hx here => ?_
  · exact apart ((theirs r here).symm.trans mine)
  · exact apart ((theirs x here).symm.trans (takes x hx))

/-- A row, seen among those with another key. -/
theorem Agree.put_keyed {k : K} (apart : key r ≠ k) (keyed : ∀ x, Q x → key x = k) :
    Agree Q t (t.put r) := by
  apply Agree.put (fun here => apart (keyed r here))
  intro x hx here
  exact apart ((find?_key hx).symm.trans (keyed x here))

/-- A row that the owner sees takes the place of itself. -/
theorem takes_seen {O : Type} [DecidableEq O] {owner : R → O} {o : O} {k : K}
    (seen : (t.find? k).filter (fun r => owner r = o) = some p) :
    owner p = o ∧ ∀ x ∈ t.find? (key p), owner x = o := by
  obtain ⟨found, owned⟩ := Option.filter_eq_some_iff.mp seen
  have mine : owner p = o := of_decide_eq_true owned
  refine ⟨mine, fun x hx => ?_⟩
  rw [find?_key found] at hx
  obtain rfl : p = x := Option.some.inj (found.symm.trans hx)
  exact mine

/-- A new row takes no row's place. -/
theorem takes_free {k : K} {Q : R → Prop} (free : ¬(t.find? k).isSome) :
    ∀ x ∈ t.find? k, Q x :=
  fun x hx => absurd (Option.isSome_iff_exists.mpr ⟨x, hx⟩) free

end Table

namespace Premises
open Txn Table

/-- What of a company's rows the permissions speak of. -/
inductive Shelf where
  /-- The row of the company itself. -/
  | company
  | properties
  | units
  | contracts
  | meters
  | readings
  | invoices
  | tenant (id : Id)
  | invite (id : Id)
  | payments (tenantId : Id)
  /-- The payments that are confirmed or rejected. -/
  | decisions
  | slip (paymentId : Id)
  | announcements
  deriving DecidableEq, Repr

/-- The company's shelf is the same in both states. -/
def Shelf.Same (c : Id) (s s' : Dorm) : Shelf → Prop
  | company => Agree (fun r => r.id = c) s.estate.books.companies s'.estate.books.companies
  | properties => Agree (fun r => r.companyId = c) s.properties s'.properties
  | units => Agree (fun r => r.companyId = c) s.units s'.units
  | contracts => Agree (fun r => r.companyId = c) s.estate.contracts s'.estate.contracts
  | meters => Agree (fun r => r.companyId = c) s.estate.meters s'.estate.meters
  | readings => Agree (fun r => r.companyId = c) s.estate.readings s'.estate.readings
  | invoices => Agree (fun r => r.companyId = c) s.estate.books.invoices s'.estate.books.invoices
  | tenant id => Agree (fun r => r.companyId = c ∧ r.id = id) s.tenants s'.tenants
  | invite id => Agree (fun r => r.companyId = c ∧ r.id = id) s.invites s'.invites
  | payments tenantId =>
    Agree (fun r => r.companyId = c ∧ r.tenantId = tenantId) s.estate.books.payments
      s'.estate.books.payments
  | decisions =>
    Agree (fun r => r.companyId = c ∧ r.status ≠ .pending) s.estate.books.payments
      s'.estate.books.payments
  | slip paymentId => Agree (fun r => r.companyId = c ∧ r.paymentId = paymentId) s.slips s'.slips
  | announcements =>
    Agree (fun r => r.companyId = c) s.estate.books.announcements s'.estate.books.announcements

theorem Shelf.Same.refl (x : Shelf) (c : Id) (s : Dorm) : x.Same c s s := by
  cases x <;> exact Agree.refl _

theorem Shelf.Same.trans {x : Shelf} {c : Id} {s s' s'' : Dorm} (first : x.Same c s s')
    (second : x.Same c s' s'') : x.Same c s s'' := by
  cases x <;> exact Agree.trans first second

/-- Only shelves `X` of company `c` have changed. -/
def Kept (c : Id) (X : Shelf → Prop) (s s' : Dorm) : Prop :=
  ∀ d x, d ≠ c ∨ ¬X x → x.Same d s s'

namespace Kept
variable {c : Id} {X Y : Shelf → Prop} {s s' s'' : Dorm}

theorem refl (s : Dorm) : Kept c X s s := fun d x _ => Shelf.Same.refl x d s

theorem trans (first : Kept c X s s') (second : Kept c X s' s'') : Kept c X s s'' :=
  fun d x other => (first d x other).trans (second d x other)

theorem mono (kept : Kept c X s s') (wider : ∀ x, X x → Y x) : Kept c Y s s' := by
  intro d x other
  refine kept d x (other.imp_right fun outside inside => outside (wider x inside))

end Kept

/-! ## Programs

The statements of a service, over any signature: whose they are and which shelves they
can change. -/

/-- What a signature's statements can change. -/
class Shelving (σ : Sig) where
  /-- The statement is run for the company, and its data name it. -/
  Of : Id → σ.Stmt → Prop
  /-- The statement can change the shelf. -/
  Shelved : σ.Stmt → Shelf → Prop

section programs
open Shelving
variable {σ : Sig} [Shelving σ] {α β : Type} {E : Engine σ} {I : σ.St → Prop} {c : Id}
  {X : Shelf → Prop} {R : α → Prop} {Q : β → Prop} {p : Prog σ α}

/-- The statement is of the company and changes only shelves `X`. -/
def Stays (c : Id) (X : Shelf → Prop) (s : σ.Stmt) : Prop := Of c s ∧ ∀ x, Shelved s x → X x

/-- All statements of the program stay within the shelves, in the states with `I`. -/
abbrev Within (E : Engine σ) (I : σ.St → Prop) (c : Id) (X : Shelf → Prop) (R : α → Prop)
    (p : Prog σ α) : Prop :=
  p.Asks E I (Stays c X) R

/-- A statement changes its shelves of its company, in the states of the engine as the
database `into` makes of them. -/
def Sound (E : Engine σ) (into : σ.St → Dorm) : Prop :=
  ∀ c s st ws a, Of c s → E.exec s st = .ok (ws, a) →
    Kept c (Shelved s) (into st) (into (ws.foldl E.apply st))

/-- More shelves. -/
theorem Within.mono {Y : Shelf → Prop} (within : Within E I c X R p) (wider : ∀ x, X x → Y x) :
    Within E I c Y R p := by
  apply within.weaken (fun _ holds => holds)
  intro s stays
  exact ⟨stays.1, fun x shelved => wider x (stays.2 x shelved)⟩

/-- A part of the program whose value does not matter, and the rest. -/
theorem read_within {f : α → Prog σ β} (first : Within E I c X (fun _ => True) p)
    (rest : ∀ a, Within E I c X Q (f a)) : Within E I c X Q (p >>= f) :=
  Prog.Asks.bind first fun a _ => rest a

/-- A guarded part, some of whose errors are thrown as another one. -/
theorem guarded_within {taken : σ.Err → Bool} {err : σ.Err} (body : Within E I c X R p) :
    Within E I c X R
      (p.attempt fun e => if taken e then Prog.throw err else Prog.throw e) := by
  apply Prog.Asks.attempt body
  intro e
  split
  · trivial
  · trivial

/-- **What a program leaves.** -/
theorem Within.serve_kept {into : σ.St → Dorm} (sound : Sound E into) {db : σ.St}
    (within : Within E (fun st => Kept c X (into db) (into st)) c X R p)
    (queueUp : Nat → Bool) :
    Kept c X (into db) (into ((p.serve E queueUp db).commit E db)) := by
  refine within.serve_keeps queueUp ?_ (.refl (into db))
  intro s st ws a stays kept ran
  exact kept.trans ((sound c s st ws a stays.1 ran).mono stays.2)

end programs

/-! ## Rows

A row of the company that takes the place of no row, or of one of the company. -/

section rows
variable {c : Id} {s : Dorm}

theorem kept_property {r : PropertyRow} (mine : r.companyId = c)
    (takes : ∀ p ∈ s.properties.find? r.id, p.companyId = c) :
    Kept c (· = .properties) s ((Row.property r).apply s) := by
  intro d x other
  cases x with
  | properties =>
    have apart : d ≠ c := other.resolve_right fun outside => outside rfl
    exact Agree.put_owned mine takes apart fun _ here => here
  | _ => exact Agree.refl _

theorem kept_unit {r : UnitRow} (mine : r.companyId = c)
    (takes : ∀ u ∈ s.units.find? r.id, u.companyId = c) :
    Kept c (· = .units) s ((Row.unit r).apply s) := by
  intro d x other
  cases x with
  | units =>
    have apart : d ≠ c := other.resolve_right fun outside => outside rfl
    exact Agree.put_owned mine takes apart fun _ here => here
  | _ => exact Agree.refl _

theorem kept_tenant {r : TenantRow} (mine : r.companyId = c)
    (takes : ∀ t ∈ s.tenants.find? r.id, t.companyId = c) :
    Kept c (· = .tenant r.id) s ((Row.tenant r).apply s) := by
  intro d x other
  cases x with
  | tenant id =>
    rcases other with apart | outside
    · exact Agree.put_owned mine takes apart fun _ here => here.1
    · have apart : r.id ≠ id := fun same => outside (by rw [same])
      exact Agree.put_keyed apart fun _ here => here.2
  | _ => exact Agree.refl _

theorem kept_slip {r : Slip} (mine : r.companyId = c) (free : s.slips.find? r.id = none) :
    Kept c (· = .slip r.paymentId) s ((Row.slip r).apply s) := by
  intro d x other
  cases x with
  | slip p =>
    refine Agree.put (fun here => ?_) fun l hl _ => ?_
    · exact other.elim (fun apart => apart (here.1.symm.trans mine))
        fun outside => outside (by rw [← here.2])
    · cases free.symm.trans hl
  | _ => exact Agree.refl _

/-- The database with these books. -/
abbrev Dorm.withBooks (s : Dorm) (db : Db) : Dorm :=
  { s with estate := { s.estate with books := db } }

theorem kept_invoice {db : Db} {r : Invoice} (mine : r.companyId = c)
    (takes : ∀ i ∈ db.invoices.find? r.id, i.companyId = c) :
    Kept c (· = .invoices) (s.withBooks db)
      (s.withBooks ((Dormitory.Row.invoice r).apply db)) := by
  intro d x other
  cases x with
  | invoices =>
    have apart : d ≠ c := other.resolve_right fun outside => outside rfl
    exact Agree.put_owned mine takes apart fun _ here => here
  | _ => exact Agree.refl _

theorem kept_announcement {db : Db} {r : Announcement} (mine : r.companyId = c)
    (takes : ∀ a ∈ db.announcements.find? r.id, a.companyId = c) :
    Kept c (· = .announcements) (s.withBooks db)
      (s.withBooks ((Dormitory.Row.announcement r).apply db)) := by
  intro d x other
  cases x with
  | announcements =>
    have apart : d ≠ c := other.resolve_right fun outside => outside rfl
    exact Agree.put_owned mine takes apart fun _ here => here
  | _ => exact Agree.refl _

/-- The shelves that a new payment is on. -/
def Payment.Shelved (r : Payment) (x : Shelf) : Prop :=
  x = .payments r.tenantId ∨ x = .decisions ∧ r.status ≠ .pending

theorem kept_paymentInsert {db : Db} {r : Payment} (mine : r.companyId = c)
    (free : db.payments.find? r.id = none) :
    Kept c (Payment.Shelved r) (s.withBooks db)
      (s.withBooks ((Dormitory.Row.payment r).apply db)) := by
  intro d x other
  cases x with
  | payments tenantId =>
    refine Agree.put (fun here => ?_) fun p hp _ => ?_
    · exact other.elim (fun apart => apart (here.1.symm.trans mine))
        fun outside => outside (.inl (by rw [← here.2]))
    · cases free.symm.trans hp
  | decisions =>
    refine Agree.put (fun here => ?_) fun p hp _ => ?_
    · exact other.elim (fun apart => apart (here.1.symm.trans mine))
        fun outside => outside (.inr ⟨rfl, here.2⟩)
    · cases free.symm.trans hp
  | _ => exact Agree.refl _

theorem kept_paymentUpdate {db : Db} {r : Payment} (mine : r.companyId = c)
    (takes : ∀ p ∈ db.payments.find? r.id, p.companyId = c) :
    Kept c (fun x => x = .decisions ∨ ∃ tenantId, x = .payments tenantId) (s.withBooks db)
      (s.withBooks ((Dormitory.Row.payment r).apply db)) := by
  intro d x other
  cases x with
  | payments tenantId =>
    have apart : d ≠ c := other.resolve_right fun outside => outside (.inr ⟨tenantId, rfl⟩)
    exact Agree.put_owned mine takes apart fun _ here => here.1
  | decisions =>
    have apart : d ≠ c := other.resolve_right fun outside => outside (.inl rfl)
    exact Agree.put_owned mine takes apart fun _ here => here.1
  | _ => exact Agree.refl _

end rows

/-! ## Statements -/

/-- The data of an insert name the company. -/
def Query.Of (c : Id) : Query → Prop
  | propertyCreate d => d.companyId = c
  | unitCreate d => d.companyId = c
  | tenantCreate d => d.companyId = c
  | slipCreate r => r.companyId = c
  | _ => True

/-- The shelves that the statement can change. -/
def Query.Shelved : Query → Shelf → Prop
  | propertyCreate _, x | propertyUpdate _ _, x => x = .properties
  | unitCreate _, x | unitUpdate _ _, x => x = .units
  | tenantCreate d, x => x = .tenant d.id
  | tenantUpdate id _, x => x = .tenant id
  | slipCreate r, x => x = .slip r.paymentId
  | invoiceUpdate _ _, x => x = .invoices
  | _, _ => False

instance : Shelving premises where
  Of c s := s.company = c ∧ s.query.Of c
  Shelved s := s.query.Shelved

section statements
variable {S : Server} {P : Pgcrypto} {c : Id} {s : Dorm}

/-- **A statement changes its shelves of its company.** -/
theorem run_kept {q : Query} {ws : List Row} {a : q.Ans} (of : q.Of c)
    (ran : run S P c s q = .ok (ws, a)) : Kept c q.Shelved s (ws.foldl Row.apply s) := by
  cases q with
  | propertyCreate data =>
    simp only [run, createProperty] at ran
    split at ran
    · cases ran
    rename_i free
    rw [storeProperty_row ran]
    exact kept_property of (takes_free free)
  | propertyUpdate id data =>
    simp only [run, updateProperty] at ran
    split at ran
    · cases ran
    rename_i p found
    obtain ⟨mine, takes⟩ := takes_seen found
    rw [storeProperty_row ran]
    exact kept_property (r := data.apply p) mine takes
  | unitCreate data =>
    simp only [run, createUnit] at ran
    split at ran
    · split at ran
      · cases ran
      rename_i free
      rw [storeUnit_row ran]
      exact kept_unit of (takes_free free)
    · cases ran
  | unitUpdate id data =>
    simp only [run, updateUnit] at ran
    split at ran
    · cases ran
    rename_i u found
    obtain ⟨mine, takes⟩ := takes_seen found
    split at ran
    · rw [storeUnit_row ran]
      refine kept_unit ?_ ?_
      · exact mine
      · exact takes
    · cases ran
  | tenantCreate data =>
    simp only [run, createTenant] at ran
    split at ran
    · cases ran
    rename_i free
    rw [storeTenant_row ran]
    refine (kept_tenant ?_ (takes_free free)).mono fun _ same => same
    exact of
  | tenantUpdate id data =>
    simp only [run, updateTenant] at ran
    split at ran
    · cases ran
    rename_i t found
    obtain ⟨mine, takes⟩ := takes_seen found
    have named : t.id = id := find?_key (Option.filter_eq_some_iff.mp found).1
    rw [storeTenant_row ran]
    exact named ▸ kept_tenant (r := data.applyRow t) mine takes
  | slipCreate r =>
    simp only [run, createSlip] at ran
    split at ran
    · cases ran
    split at ran
    · cases ran
    rename_i free
    split at ran
    · cases ran
    cases ran
    exact kept_slip of (by simpa using free)
  | invoiceUpdate id dueDate =>
    simp only [run] at ran
    split at ran
    · rename_i i found
      obtain ⟨mine, takes⟩ := takes_seen found
      cases ran
      refine @kept_invoice c s s.estate.books _ ?_ ?_
      · exact mine
      · exact takes
    · cases ran
  | decrypt ciphertext =>
    simp only [run] at ran
    split at ran
    · cases ran
      exact .refl s
    · cases ran
  | propertyFindUnique | unitFindUnique | tenantFindUnique | paymentFindUnique | invoiceFindUnique
  | encrypt =>
    cases ran
    exact .refl s

theorem sound : Sound (engine S P) id := by
  rintro c ⟨company, q⟩ st ws a ⟨rfl, of⟩ ran
  exact run_kept of ran

end statements

/-- The database with these leases. -/
abbrev Dorm.withEstate (s : Dorm) (e : Leasing.Estate) : Dorm := { s with estate := e }

end Premises

/-! ### Leases -/

namespace Leasing
open Table Premises

def Query.Of (c : Id) : Query → Prop
  | contractCreate d => d.companyId = c
  | meterCreate d => d.companyId = c
  | readingCreate d => d.companyId = c
  | _ => True

/-- The shelves that the statement can change. -/
def Query.Shelved : Query → Shelf → Prop
  | contractCreate _, x | contractUpdate _ _, x => x = .contracts
  | meterCreate _, x | meterUpdate _ _, x => x = .meters
  | readingCreate _, x | readingUpdate _ _, x => x = .readings
  | _, _ => False

instance : Shelving leasing where
  Of c s := s.company = c ∧ s.query.Of c
  Shelved s := s.query.Shelved

section statements
variable {S : Server} {c : Id} {s : Dorm} {e : Estate}

theorem kept_contract {r : ContractRow} (mine : r.companyId = c)
    (takes : ∀ k ∈ e.contracts.find? r.id, k.companyId = c) :
    Kept c (· = .contracts) (s.withEstate e) (s.withEstate ((Row.contract r).apply e)) := by
  intro d x other
  cases x with
  | contracts =>
    have apart : d ≠ c := other.resolve_right fun outside => outside rfl
    exact Agree.put_owned mine takes apart fun _ here => here
  | _ => exact Agree.refl _

theorem kept_meter {r : MeterRow} (mine : r.companyId = c)
    (takes : ∀ m ∈ e.meters.find? r.id, m.companyId = c) :
    Kept c (· = .meters) (s.withEstate e) (s.withEstate ((Row.meter r).apply e)) := by
  intro d x other
  cases x with
  | meters =>
    have apart : d ≠ c := other.resolve_right fun outside => outside rfl
    exact Agree.put_owned mine takes apart fun _ here => here
  | _ => exact Agree.refl _

theorem kept_reading {r : ReadingRow} (mine : r.companyId = c)
    (takes : ∀ m ∈ e.readings.find? r.id, m.companyId = c) :
    Kept c (· = .readings) (s.withEstate e) (s.withEstate ((Row.reading r).apply e)) := by
  intro d x other
  cases x with
  | readings =>
    have apart : d ≠ c := other.resolve_right fun outside => outside rfl
    exact Agree.put_owned mine takes apart fun _ here => here
  | _ => exact Agree.refl _

/-- **A statement changes its shelves of its company.** -/
theorem run_kept {q : Query} {ws : List Row} {a : q.Ans} (of : q.Of c)
    (ran : run S c e q = .ok (ws, a)) :
    Kept c q.Shelved (s.withEstate e) (s.withEstate (ws.foldl Row.apply e)) := by
  cases q with
  | contractCreate data =>
    simp only [run, createContract] at ran
    split at ran
    · split at ran
      · cases ran
      split at ran
      · cases ran
      rename_i free
      cases ran
      exact kept_contract of (takes_free free)
    · cases ran
  | contractUpdate id data =>
    simp only [run, updateContract] at ran
    split at ran
    · cases ran
    rename_i k found
    obtain ⟨mine, takes⟩ := takes_seen found
    split at ran
    · cases ran
    · cases ran
      exact kept_contract (r := data.apply k) mine takes
  | meterCreate data =>
    simp only [run, createMeter] at ran
    split at ran
    · cases ran
    split at ran
    · cases ran
    split at ran
    · cases ran
    rename_i free
    split at ran
    · cases ran
    · cases ran
      exact kept_meter of (takes_free free)
  | meterUpdate id data =>
    simp only [run, updateMeter] at ran
    split at ran
    · cases ran
    rename_i m found
    obtain ⟨mine, takes⟩ := takes_seen found
    split at ran
    · cases ran
    split at ran
    · cases ran
    · cases ran
      refine kept_meter ?_ ?_
      · exact mine
      · exact takes
  | readingCreate data =>
    simp only [run, createReading] at ran
    split at ran
    · split at ran
      · cases ran
      split at ran
      · cases ran
      rename_i free
      split at ran
      · cases ran
      · cases ran
        exact kept_reading of (takes_free free)
    · cases ran
  | readingUpdate id data =>
    simp only [run, updateReading] at ran
    split at ran
    · cases ran
    rename_i r found
    obtain ⟨mine, takes⟩ := takes_seen found
    split at ran
    · split at ran
      · cases ran
      · cases ran
        refine kept_reading ?_ ?_
        · exact mine
        · exact takes
    · cases ran
  | unitFindUnique | tenantFindUnique | contractFindUnique | contractFindOverlap | meterFindUnique
  | readingFindUnique | readingFindPrior =>
    cases ran
    exact .refl _

theorem sound : Sound (engine S) s.withEstate := by
  rintro c ⟨company, q⟩ st ws a ⟨rfl, of⟩ ran
  exact run_kept of ran

end statements
end Leasing

/-! ### Books -/

section books
open Table Premises
variable {S : Server} {c : Id} {s : Dorm} {db : Db}

def Query.Of (c : Id) : Query → Prop
  | invoiceCreate d => d.companyId = c
  | paymentCreate r => r.companyId = c
  | announcementCreate r => r.companyId = c
  | _ => True

/-- The shelves that the statement can change; the audit log is on none. -/
def Query.Shelved : Query → Shelf → Prop
  | invoiceCreate _, x | invoiceUpdate _ _, x => x = .invoices
  | paymentCreate r, x => Payment.Shelved r x
  | paymentUpdate _ _, x => x = .decisions ∨ ∃ tenantId, x = .payments tenantId
  | announcementCreate _, x => x = .announcements
  | _, _ => False

instance : Shelving billing where
  Of c s := s.company = c ∧ s.query.Of c
  Shelved s := s.query.Shelved

/-- **A statement changes its shelves of its company.** -/
theorem Server.run_kept {q : Query} {ws : List Row} {a : q.Ans} (of : q.Of c)
    (ran : S.run c q db = .ok (ws, a)) :
    Kept c q.Shelved (s.withBooks db) (s.withBooks (ws.foldl Row.apply db)) := by
  cases q with
  | invoiceCreate data =>
    simp only [run, createInvoice] at ran
    split at ran
    · split at ran
      · cases ran
      rename_i free
      split at ran
      · cases ran
      split at ran
      · split at ran
        · cases ran
          exact kept_invoice of (takes_free free)
        · cases ran
      · cases ran
    · cases ran
  | invoiceUpdate id data =>
    simp only [run] at ran
    split at ran
    · rename_i i found
      obtain ⟨mine, takes⟩ := takes_seen found
      cases ran
      exact kept_invoice (r := data.apply i) mine takes
    · cases ran
  | paymentCreate r =>
    simp only [run, createPayment] at ran
    split at ran
    · cases ran
    rename_i free
    split at ran
    · cases ran
    · cases ran
      exact kept_paymentInsert of (by simpa using free)
  | paymentUpdate id data =>
    simp only [run, updatePayment] at ran
    split at ran
    · cases ran
    rename_i p found
    obtain ⟨mine, takes⟩ := takes_seen found
    split at ran
    · cases ran
      exact kept_paymentUpdate (r := data.apply p) mine takes
    · cases ran
  | announcementCreate r =>
    simp only [run, createAnnouncement] at ran
    split at ran
    · cases ran
    rename_i free
    repeat (split at ran; · cases ran)
    cases ran
    exact kept_announcement of (takes_free free)
  | auditLogCreate data =>
    simp only [run, createAuditLog] at ran
    split at ran
    · split at ran
      · cases ran
      · cases ran
        exact fun d x _ => by cases x <;> exact Agree.refl _
    · cases ran
  | invoiceFindUnique | invoiceFindFirst | invoiceFindOpen | paymentFindUnique | paymentFindByKey
  | paymentFindConfirmed | companyFindUnique | companyFindFirst | contractFindUnique
  | contractFindMany | meterFindMany | readingFindMany | channelFindFirst | tenantFindBound
  | announcementFindByKey =>
    cases ran
    exact .refl _

theorem Server.sound : Sound (engine S) s.withBooks := by
  rintro c ⟨company, q⟩ st ws a ⟨rfl, of⟩ ran
  exact Server.run_kept of ran

end books

/-! ### Tenants and invites -/

namespace Tenancy
open Table Premises

def Query.Of (c : Id) : Query → Prop
  | inviteCreate r => r.companyId = c
  | _ => True

/-- The shelves that the statement can change; the audit log is on none. -/
def Query.Shelved : Query → Shelf → Prop
  | tenantUpdate id _, x => x = .tenant id
  | inviteCreate r, x => x = .invite r.id
  | inviteUpdateMany id _ _, x => x = .invite id
  | _, _ => False

/-- A statement that changes no shelf may be run for another company, or for none. -/
instance : Shelving tenancy where
  Of c s := (∀ x, ¬s.query.Shelved x) ∨ s.scope' = some c ∧ s.query.Of c
  Shelved s := s.query.Shelved

/-- In `db`, only shelves `X` of company `c` are not as the dormitory has them. -/
structure Near (c : Id) (X : Shelf → Prop) (s : Dorm) (db : Db) : Prop where
  tenants : ∀ d id, d ≠ c ∨ ¬X (.tenant id) →
    Agree (fun r => r.companyId = d ∧ r.id = id) s.tenancy.tenants db.tenants
  invites : ∀ d id, d ≠ c ∨ ¬X (.invite id) →
    Agree (fun r => r.companyId = d ∧ r.id = id) s.invites db.invites

section statements
variable {S : Server} {c : Id} {X : Shelf → Prop} {s : Dorm} {db : Db}

theorem Near.start : Near c X s s.tenancy := ⟨fun _ _ _ => .refl _, fun _ _ _ => .refl _⟩

theorem takes_scope {R K : Type} [Keyed R K] [DecidableEq K] {owner : R → Id} {t : Table R}
    {k : K} {p : R}
    (seen : (t.find? k).filter (fun r => Sees (some c) (owner r)) = some p) :
    owner p = c ∧ ∀ x ∈ t.find? (key p), owner x = c := by
  apply takes_seen (k := k)
  simpa only [Sees, Option.mem_some_iff, forall_eq', eq_comm] using seen

theorem Near.putInvite (near : Near c X s db) {r : TenantInvite} (mine : r.companyId = c)
    (inside : X (.invite r.id)) (takes : ∀ i ∈ db.invites.find? r.id, i.companyId = c) :
    Near c X s ((Row.invite r).apply db) := by
  refine ⟨near.tenants, fun d id other => (near.invites d id other).trans ?_⟩
  rcases other with apart | outside
  · exact Agree.put_owned mine takes apart fun _ here => here.1
  · have apart : r.id ≠ id := fun same => outside (same ▸ inside)
    exact Agree.put_keyed apart fun _ here => here.2

theorem Near.putTenant (near : Near c X s db) {r : TenantProfile} (mine : r.companyId = c)
    (inside : X (.tenant r.id)) (takes : ∀ t ∈ db.tenants.find? r.id, t.companyId = c) :
    Near c X s ((Row.tenant r).apply db) := by
  refine ⟨fun d id other => (near.tenants d id other).trans ?_, near.invites⟩
  rcases other with apart | outside
  · exact Agree.put_owned mine takes apart fun _ here => here.1
  · have apart : r.id ≠ id := fun same => outside (same ▸ inside)
    exact Agree.put_keyed apart fun _ here => here.2

/-- Lookups and audit rows, under whichever scope. -/
theorem run_off (near : Near c X s db) {scope' : Option Id} {q : Query} {ws : List Row}
    {a : q.Ans} (off : ∀ x, ¬q.Shelved x) (ran : run S scope' db q = .ok (ws, a)) :
    Near c X s (ws.foldl Row.apply db) := by
  cases q with
  | auditLogCreate data =>
    simp only [run, createAuditLog] at ran
    split at ran
    · split at ran
      · cases ran
      · cases ran
        exact ⟨near.tenants, near.invites⟩
    · cases ran
  | tenantFindUnique | inviteFindUnique | inviteFindFirst | invitePreview =>
    cases ran
    exact near
  | tenantUpdate | inviteCreate | inviteUpdateMany => exact absurd rfl (off _)

/-- **A statement changes its shelves of its company.** -/
theorem run_near (near : Near c X s db) {q : Query} {ws : List Row} {a : q.Ans}
    (of : q.Of c) (inside : ∀ x, q.Shelved x → X x) (ran : run S (some c) db q = .ok (ws, a)) :
    Near c X s (ws.foldl Row.apply db) := by
  cases q with
  | tenantUpdate id data =>
    simp only [run, updateTenant] at ran
    split at ran
    · cases ran
    rename_i t found
    obtain ⟨mine, takes⟩ := takes_scope found
    have named : t.id = id := find?_key (Option.filter_eq_some_iff.mp found).1
    repeat (split at ran; · cases ran)
    cases ran
    exact near.putTenant (r := data.apply t) mine (inside _ (named ▸ rfl)) takes
  | inviteCreate r =>
    simp only [run, createInvite] at ran
    split at ran
    · cases ran
    split at ran
    · cases ran
    rename_i free
    split at ran
    · cases ran
    cases ran
    exact near.putInvite of (inside _ rfl) (takes_free free)
  | inviteUpdateMany id status data =>
    simp only [run, updateManyInvites] at ran
    split at ran
    · cases ran
      exact near
    rename_i i found
    have seen := (Option.filter_eq_some_iff.mp found).1
    obtain ⟨mine, takes⟩ := takes_scope seen
    have named : i.id = id := find?_key (Option.filter_eq_some_iff.mp seen).1
    split at ran
    · cases ran
      exact near.putInvite (r := data.apply i) mine (inside _ (named ▸ rfl)) takes
    · cases ran
  | tenantFindUnique | inviteFindUnique | inviteFindFirst | invitePreview | auditLogCreate =>
    exact run_off near (fun _ => id) ran

/-- A tenant with an unchanged profile is settled as it was, and no other one takes
its company. -/
theorem settled_same {d id : Id}
    (same : Agree (fun r => r.companyId = d ∧ r.id = id) s.tenancy.tenants db.tenants)
    {t : TenantRow} (stored : t ∈ s.tenants.rows) :
    ((TenantRow.settled db t).companyId = d ∧ (TenantRow.settled db t).id = id ↔
      t.companyId = d ∧ t.id = id) ∧
      (t.companyId = d ∧ t.id = id → TenantRow.settled db t = t) := by
  have unchanged : t.companyId = d ∧ t.id = id → TenantRow.settled db t = t := by
    intro here
    have listed : t.toTenantProfile ∈ db.tenants.rows :=
      (same.mem here).mpr (List.mem_map_of_mem stored)
    have found : db.tenants.find? t.id = some t.toTenantProfile := find?_of_mem listed
    simp only [TenantRow.settled, found]
  refine ⟨⟨fun there => ?_, fun here => ?_⟩, unchanged⟩
  case refine_2 =>
    rw [unchanged here]
    exact here
  have named : t.id = id := (TenantRow.settled_key db t).symm.trans there.2
  refine ⟨?_, named⟩
  unfold TenantRow.settled at there
  split at there
  · -- The profile that it got is one of the company's, and so its own.
    rename_i profile found
    obtain ⟨row, known, rfl⟩ := List.mem_map.mp ((same.mem there).mp (find?_mem found))
    have same : row.id = t.id := find?_key (t := db.tenants) found
    obtain rfl : row = t := s.tenants.key_inj known stored same
    exact there.1
  · exact there.1

/-- **What the services of tenants and invites leave.** -/
theorem Near.settle (near : Near c X s db) : Kept c X s (s.settle db) := by
  intro d x other
  cases x with
  | tenant id =>
    have same := near.tenants d id other
    change (s.tenants.rows.map (TenantRow.settled db)).filter _ = s.tenants.rows.filter _
    rw [List.filter_map, List.filter_congr (q := fun t => t.companyId = d ∧ t.id = id),
      List.map_congr_left (g := fun t => t), List.map_id']
    · intro t ht
      obtain ⟨stored, here⟩ := List.mem_filter.mp ht
      exact (settled_same same stored).2 (of_decide_eq_true here)
    · intro t stored
      exact decide_eq_decide.mpr (settled_same same stored).1
  | invite id => exact near.invites d id other
  | _ => exact Agree.refl _

end statements
end Tenancy
end Dormitory
