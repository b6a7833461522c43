import Dormitory.OwnReferences
import Dormitory.TicketHistory

/-!
# View URLs

The object keys that the tickets and the slips hold, and the URLs that a tenant
is given for them.
-/

namespace Dormitory.Maintenance
open Txn MaintenanceService

/-- The prefix that `SlipService.register` demands. -/
def slipPrefix (companyId paymentId : Id) : String :=
  s!"companies/{companyId}/slips/{paymentId}/"

/-- Every stored key lies under the prefix of the row that holds it. -/
structure Confined (s : Desk) : Prop where
  photos : ∀ t ∈ s.tickets.rows, ∀ photo ∈ t.photoR2Keys,
    startsWith photo (expectedPrefix t.companyId t.tenantId)
  slips : ∀ l ∈ s.dorm.slips.rows, startsWith l.r2ObjectKey (slipPrefix l.companyId l.paymentId)

theorem checkPhotos_ok {p : String} {head : Storage} {keys : List String}
    (checked : checkPhotos p head keys = .ok ()) : ∀ photo ∈ keys, startsWith photo p := by
  induction keys with
  | nil => exact List.forall_mem_nil _
  | cons first rest ih =>
    rw [checkPhotos] at checked
    split at checked
    · rename_i fits
      split at checked
      · cases checked
      · cases checked
      · exact List.forall_mem_cons.mpr ⟨fits, ih checked⟩
    · cases checked

section writes
variable {S : Server} {s : Desk} {call : DeskRequest} {r : MaintenanceRequest}

theorem Stores.confined (stores : Stores s call r) (all : Confined s) :
    ∀ photo ∈ r.photoR2Keys, startsWith photo (expectedPrefix r.companyId r.tenantId) := by
  cases stores with
  | created fresh checked => exact checkPhotos_ok checked
  | @updated _ _ _ _ t d found data =>
    have before := all.photos t (ticket?_mem found).1
    simpa [(updateData_cases data).1] using before
  | @updatedForTenant ctx head _ input tenantId t d found own data =>
    obtain ⟨here, -, company⟩ := ticket?_mem found
    have before := all.photos t here
    obtain ⟨-, -, ⟨-, photos⟩ | ⟨-, -, -, checked, photos⟩⟩ := tenantData_cases data
    · simpa [photos] using before
    · simp only [TicketPatch.apply_photoR2Keys, photos, Option.getD_some,
        TicketPatch.apply_companyId, TicketPatch.apply_tenantId]
      intro photo added
      obtain old | new := List.mem_append.mp added
      · exact before photo old
      · rw [company, own]
        exact checkPhotos_ok checked photo new

/-- One slip is added under its prefix, or none. -/
def AddsSlip (dorm dorm' : Premises.Dorm) : Prop :=
  dorm'.slips = dorm.slips ∨
    ∃ l : Slip, startsWith l.r2ObjectKey (slipPrefix l.companyId l.paymentId) ∧
      dorm'.slips = dorm.slips.put l

theorem register_leaves {P : Premises.Pgcrypto} {dorm : Premises.Dorm} (ctx : Ctx)
    (head : Except Failure (Option Premises.HeadObject)) (newId paymentId : Id)
    (input : Premises.UploadSlipInput) :
    (Premises.SlipService.register ctx head newId paymentId input).Leaves (Premises.engine S P)
      dorm [] (AddsSlip dorm) := by
  have same : AddsSlip dorm dorm := .inl rfl
  refine (Premises.payment_reads paymentId).before same fun found holds => ?_
  refine (Premises.orThrow_reads _ found holds).before same fun (payment, slip) _ => ?_
  dsimp only
  split
  · exact .fail _ same
  split
  · exact .fail _ same
  split
  · exact .fail _ same
  rename_i fits
  split
  · exact .fail _ same
  · exact .fail _ same
  split
  · exact .fail _ same
  · refine Premises.leaves_catch same (Premises.leaves_write same fun ws a ran => ?_)
    simp only [Premises.run, Premises.createSlip] at ran
    split at ran
    · cases ran
    split at ran
    · cases ran
    split at ran
    · cases ran
    · cases ran
      refine .inr ⟨⟨newId, payment.companyId, payment.id, input.r2ObjectKey, input.mimeType,
        input.sizeBytes, input.sha256⟩, ?_, rfl⟩
      exact decide_eq_true (not_not.mp fits)

theorem DeskRequest.commit_slips (S : Server) (s : Desk) (call : DeskRequest) :
    AddsSlip s.dorm (call.commit S s).dorm := by
  have kept : ∀ {s'}, Leaves s call s' → AddsSlip s.dorm s'.dorm := by
    rintro s' (rfl | ⟨r, -, rfl⟩)
    · exact .inl rfl
    · exact .inl rfl
  cases call with
  | createForTenant ctx newId head input tenantId =>
    exact kept ((createForTenant_leaves newId head input tenantId).serve _)
  | update ctx now id input => exact kept ((update_leaves now id input).serve _)
  | updateForTenant ctx head id input tenantId =>
    exact kept ((updateForTenant_leaves head id input tenantId).serve _)
  | registerSlip P ctx head newId paymentId input =>
    exact (register_leaves ctx head newId paymentId input).serve _
  | elsewhere => exact .inl rfl

/-- **Every call** keeps all keys confined. -/
theorem DeskRequest.commit_confined (call : DeskRequest) (all : Confined s) :
    Confined (call.commit S s) where
  photos := call.commit_keeps all.photos fun r stores => stores.confined all
  slips := by
    obtain same | ⟨l, fits, same⟩ := call.commit_slips S s
    · rw [same]
      exact all.slips
    · rw [same]
      intro l' hl'
      obtain rfl | ⟨old, -⟩ := Table.mem_put.mp hl'
      · exact fits
      · exact all.slips l' old

end writes

/-! ## What a tenant is given -/

/-- A request of the tenant for a view URL. -/
inductive TenantView where
  | slip (slipId : Id)
  | photo (id : Id) (key : String)

def TenantView.prog (ctx : Ctx) (tenantId : Id) : TenantView → Prog maintenance DownloadUrl
  | slip slipId => SlipService.getViewUrlForTenant ctx slipId tenantId
  | photo id key => MeMaintenanceController.getPhotoViewUrl ctx id key tenantId

section views
variable {S : Server} {s : Desk} {ctx : Ctx} {tenantId : Id}

theorem look_answers {q : Query} {a : q.Ans} {α : Type} {f : q.Ans → Prog maintenance α}
    {Q : α → Desk → Prop} (reads : run S ctx.companyId s q = .ok ([], a))
    (rest : (f a).Answers (engine S) s [] Q) : (prisma ctx q >>= f).Answers (engine S) s [] Q := by
  refine Prog.Answers.query (σ := maintenance) (s := (⟨ctx.companyId, q⟩ : Statement))
    fun ws' a' ran => ?_
  cases reads.symm.trans ran
  exact rest

theorem orThrow_answers {α β : Type} {err : Failure} {found : Option α}
    {f : α → Prog maintenance β} {Q : β → Desk → Prop}
    (rest : ∀ a, found = some a → (f a).Answers (engine S) s [] Q) :
    (orThrow err found >>= f).Answers (engine S) s [] Q := by
  cases found with
  | none => exact Prog.Answers.fail (σ := maintenance) err
  | some a => exact rest a rfl

/-- The URL is for a slip of a payment of the tenant. -/
theorem getViewUrlForTenant_answers (slipId : Id) :
    (SlipService.getViewUrlForTenant ctx slipId tenantId).Answers (engine S) s [] fun url _ =>
      ∃ l ∈ s.dorm.slips.rows, l.companyId = ctx.companyId ∧ url.key = l.r2ObjectKey ∧
        ∃ p ∈ s.dorm.estate.books.payments.rows, p.id = l.paymentId ∧
          p.companyId = ctx.companyId ∧ p.tenantId = tenantId := by
  refine look_answers rfl (orThrow_answers fun l seen => .ret ?_)
  obtain ⟨visible, own⟩ := Option.filter_eq_some_iff.mp seen
  obtain ⟨found, company⟩ := Option.filter_eq_some_iff.mp visible
  obtain ⟨p, joined, tenant⟩ := (Option.any_eq_true _ _).mp own
  obtain ⟨stored, same⟩ := Option.filter_eq_some_iff.mp joined
  exact ⟨l, Table.find?_mem found, of_decide_eq_true company, rfl, p, Table.find?_mem stored,
    Table.find?_key stored, of_decide_eq_true same, of_decide_eq_true tenant⟩

/-- The URL is for a photo of a ticket of the tenant. -/
theorem getPhotoViewUrl_answers (id : Id) (photo : String) :
    (MeMaintenanceController.getPhotoViewUrl ctx id photo tenantId).Answers (engine S) s []
      fun url _ => ∃ t ∈ s.tickets.rows, t.companyId = ctx.companyId ∧ t.tenantId = tenantId ∧
        url.key ∈ t.photoR2Keys := by
  unfold MeMaintenanceController.getPhotoViewUrl getByIdForTenant getPhotoViewUrl
  rw [Prog.bind_assoc]
  refine look_answers rfl (orThrow_answers fun t seen => look_answers rfl ?_)
  obtain ⟨found, own⟩ := Option.filter_eq_some_iff.mp seen
  rw [found]
  obtain ⟨here, -, company⟩ := ticket?_mem found
  by_cases known : photo ∈ t.photoR2Keys
  · refine Eq.mpr (congrArg (fun p => Prog.Answers (engine S) s [] p _) (if_pos known)) ?_
    exact .ret ⟨t, here, company, of_decide_eq_true own, known⟩
  · refine Eq.mpr (congrArg (fun p => Prog.Answers (engine S) s [] p _) (if_neg known)) ?_
    exact Prog.Answers.fail (σ := maintenance) _

/-- **What a tenant is given while all keys are confined** is under a prefix of
its own. -/
theorem TenantView.answers_confined (all : Confined s) (view : TenantView) :
    (view.prog ctx tenantId).Answers (engine S) s [] fun url _ =>
      (∃ p ∈ s.dorm.estate.books.payments.rows, p.companyId = ctx.companyId ∧
        p.tenantId = tenantId ∧ startsWith url.key (slipPrefix ctx.companyId p.id)) ∨
      startsWith url.key (expectedPrefix ctx.companyId tenantId) := by
  cases view with
  | slip slipId =>
    refine (getViewUrlForTenant_answers slipId).imp fun url _ => ?_
    rintro ⟨l, hl, company, issued, p, hp, same, own, tenant⟩
    refine .inl ⟨p, hp, own, tenant, ?_⟩
    rw [issued, ← company, same]
    exact all.slips l hl
  | photo id photo =>
    refine (getPhotoViewUrl_answers id photo).imp fun url _ => ?_
    rintro ⟨t, ht, company, own, issued⟩
    rw [← company, ← own]
    exact .inr (all.photos t ht url.key issued)

end views

/-- **A tenant's view URLs stay with the tenant's objects.** In every state of
every run from a desk without tickets and slips, a URL that is issued to a tenant
is for a key under the prefix of one of its payments or of its own photos. -/
theorem view_urls_confined (S : Server) (dorm : Premises.Dorm) (calls : List DeskRequest) :
    ∀ s ∈ states (DeskRequest.commit S) { dorm := { dorm with slips := default } } calls,
      ∀ ctx tenantId (view : TenantView) url,
        ((view.prog ctx tenantId).serve (engine S) (fun _ => true) s).answer = .ok url →
        (∃ p ∈ s.dorm.estate.books.payments.rows, p.companyId = ctx.companyId ∧
          p.tenantId = tenantId ∧
          startsWith url.key s!"companies/{ctx.companyId}/slips/{p.id}/") ∨
        startsWith url.key s!"companies/{ctx.companyId}/maintenance/{tenantId}/" := by
  intro s hs ctx tenantId view url issued
  have start : Confined { dorm := { dorm with slips := default } } :=
    ⟨fun t ht => absurd ht List.not_mem_nil, fun l hl => absurd hl List.not_mem_nil⟩
  have all : Confined s := states_keep (fun _ call => call.commit_confined) start s hs
  exact (view.answers_confined all).serve issued

namespace Demo

def photographed : DeskRequest :=
  .createForTenant Dormitory.Demo.ctx 901 (fun _ => .ok (some ⟨none⟩))
    ⟨.plumbing, "Leak", "Under the sink", none, ["companies/1/maintenance/11/a.jpg"], by decide⟩ 11

end Demo

/-- The tenant of the ticket looks at its photo. -/
theorem view_urls_confined_photo :
    (∃ p ∈ Demo.dorm.estate.books.payments.rows, p.companyId = 1 ∧ p.tenantId = 11 ∧
      startsWith "companies/1/maintenance/11/a.jpg" s!"companies/1/slips/{p.id}/") ∨
    startsWith "companies/1/maintenance/11/a.jpg" "companies/1/maintenance/11/" :=
  view_urls_confined Dormitory.Demo.server Demo.dorm [Demo.photographed] _
    (last_mem_states _ _ _) Dormitory.Demo.ctx 11
    (.photo 901 "companies/1/maintenance/11/a.jpg") ⟨"companies/1/maintenance/11/a.jpg"⟩
    (by decide)

end Dormitory.Maintenance
