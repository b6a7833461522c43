import Dormitory.Invites

/-!
# Bindings

Calls on invites and tenants one at a time. A redemption writes the LINE
account of a tenant without looking at the account that is there, and the
replay of a redeemed invite answers from the invite alone; what the two may do
to a binding is decided by the state before the call.
-/

namespace Dormitory.Tenancy
open Txn TenantInviteService

/-! ## Runs -/

/-- A call that was served with nothing else going on. -/
structure Step where
  before : Db
  call : InviteCall
  answer : Except ApiError Answer
  after : Db

/-- The keys that the database draws for the rows of a call are unused. -/
def InviteCall.Fresh (db : Db) : InviteCall → Prop
  | generate _ _ newId auditId _ _ _ _ =>
    db.invites.find? newId = none ∧ db.auditLogs.find? auditId = none
  | revoke _ _ auditId _ _ _ => db.auditLogs.find? auditId = none
  | redeem auditId _ _ _ _ => db.auditLogs.find? auditId = none
  | peek _ _ | updateTenant _ _ _ _ => True

instance (db : Db) (call : InviteCall) : Decidable (call.Fresh db) :=
  match call with
  | .generate .. => inferInstanceAs (Decidable (_ ∧ _))
  | .revoke .. | .redeem .. => inferInstanceAs (Decidable (_ = _))
  | .peek .. | .updateTenant .. => .isTrue trivial

def Step.Served (S : Server) (sha256Hex : String → String) (s : Step) : Prop :=
  s.call.Fresh s.before ∧
    (s.call.script sha256Hex).Serves (engine S) (fun _ => true) s.before s.answer s.after

/-- Calls one after the other, the first one in `db`. -/
def IsRun (S : Server) (sha256Hex : String → String) : Db → List Step → Prop
  | _, [] => True
  | db, s :: steps => s.before = db ∧ s.Served S sha256Hex ∧ IsRun S sha256Hex s.after steps

theorem IsRun.served {S : Server} {sha256Hex : String → String} {db : Db} {steps : List Step}
    (run : IsRun S sha256Hex db steps) : ∀ s ∈ steps, s.Served S sha256Hex := by
  induction steps generalizing db with
  | nil =>
    intro s hs
    cases hs
  | cons first steps ih =>
    obtain ⟨-, served, rest⟩ := run
    intro s hs
    cases hs with
    | head => exact served
    | tail _ hs => exact ih rest s hs

/-- Serves calls of two transactions at most. -/
def serveAll (S : Server) (sha256Hex : String → String) :
    Db → List InviteCall → Option (List Step)
  | _, [] => some []
  | db, call :: calls => do
    let (answer, after) ← (call.script sha256Hex).serve (engine S) (fun _ => true) 2 db
    let steps ← serveAll S sha256Hex after calls
    return ⟨db, call, answer, after⟩ :: steps

theorem serveAll_isRun {S : Server} {sha256Hex : String → String} {db : Db}
    {calls : List InviteCall} {steps : List Step} (h : serveAll S sha256Hex db calls = some steps)
    (fresh : ∀ s ∈ steps, s.call.Fresh s.before) : IsRun S sha256Hex db steps := by
  induction calls generalizing db steps with
  | nil =>
    cases h
    trivial
  | cons call calls ih =>
    obtain ⟨⟨answer, after⟩, served, h⟩ := Option.bind_eq_some_iff.1 h
    obtain ⟨rest, later, h⟩ := Option.bind_eq_some_iff.1 h
    cases h
    refine ⟨rfl, ⟨fresh _ List.mem_cons_self, Script.serve_serves served⟩, ih later ?_⟩
    exact fun s hs => fresh s (List.mem_cons_of_mem _ hs)

/-! ## What a redemption comes to -/

section redeem
variable (sha256Hex : String → String) (db : Db)

/-- The invite under a code, with its company. -/
def Db.candidate? (code : String) : Option (TenantInvite × Company) :=
  (db.inviteByCode? none (codePrefixOf code) (sha256Hex code)).bind fun i =>
    (db.companies.find? i.companyId).map fun c => (i, c)

/-- The replay of a redemption by the same account. -/
def RedeemedBy (i : TenantInvite) (lineUserId : String) : Prop :=
  i.status = .redeemed ∧ i.redeemedByLineUserId = some lineUserId ∧ i.redeemedAt.isSome

/-- The tenant of the invite, when the account fits and no other tenant of the
company has it. -/
def Db.Bindable (i : TenantInvite) (lineUserId : String) (t : TenantProfile) : Prop :=
  db.tenant? (some i.companyId) i.tenantId = some t ∧ lineUserId.length ≤ 64 ∧
    ¬ db.LineTaken t.companyId lineUserId t.id

/-- The call is a redemption that binds the tenant `t`. -/
def InviteCall.Binds (t : TenantProfile) (lineUserId : String) : InviteCall → Prop
  | redeem _ now _ code l => l = lineUserId ∧ ∃ i c, db.candidate? sha256Hex code = some (i, c) ∧
      i.status = .pending ∧ now < i.expiresAt ∧ db.Bindable i l t
  | _ => False

/-- The call is a replay of the redemption of `i`. -/
def InviteCall.Replays (i : TenantInvite) (lineUserId : String) : InviteCall → Prop
  | redeem _ _ _ code l => l = lineUserId ∧ ∃ c, db.candidate? sha256Hex code = some (i, c) ∧
      RedeemedBy i l
  | _ => False

variable {sha256Hex db}

/-- How a redemption ends. -/
inductive Redeemed (sha256Hex : String → String) (db : Db) (call : InviteCall) :
    Except ApiError Answer → Db → Prop
  | replays (i : TenantInvite) (lineUserId : String) (r : RedeemTenantInviteResponse)
      (tenant : r.tenantId = i.tenantId) (replays : call.Replays sha256Hex db i lineUserId) :
      Redeemed sha256Hex db call (.ok (.redeemed r)) db
  | binds (t : TenantProfile) (lineUserId : String) (r : RedeemTenantInviteResponse) (d : Db)
      (tenant : r.tenantId = t.id) (binds : call.Binds sha256Hex db t lineUserId)
      (bound : d.tenants = db.tenants.put
        (TenantPatch.apply { lineUserId := some lineUserId } t)) :
      Redeemed sha256Hex db call (.ok (.redeemed r)) d
  | refuses (e : ApiError) (d : Db) (same : d.tenants = db.tenants)
      (unfit : ∀ t lineUserId, ¬ call.Binds sha256Hex db t lineUserId)
      (other : ∀ i lineUserId, ¬ call.Replays sha256Hex db i lineUserId) :
      Redeemed sha256Hex db call (.error e) d

end redeem

section ends
variable {S : Server} {sha256Hex : String → String} {queueUp : Nat → Bool} {db d : Db}
  {auditId : Id} {now now' : Instant} {code lineUserId : String} {i : TenantInvite} {c : Company}
  {r : Except ApiError Answer}

theorem candidate_stored (known : db.candidate? sha256Hex code = some (i, c)) :
    db.invites.find? i.id = some i := by
  obtain ⟨j, found, pair⟩ := Option.bind_eq_some_iff.1 known
  obtain ⟨c', -, same⟩ := Option.map_eq_some_iff.1 pair
  cases same
  exact Table.find?_of_mem (List.mem_of_find?_eq_some found)

/-- The compare-and-set of a redemption. -/
theorem updateMany_stored (stored : db.invites.find? i.id = some i) (pending : i.status = .pending)
    (data : InvitePatch) :
    updateManyInvites (some i.companyId) db i.id .pending data =
      if data.Fits then .ok ([.invite (data.apply i)], 1) else .error tooLong := by
  have found : (db.invite? (some i.companyId) i.id).filter (fun i => i.status = .pending) =
      some i := by
    simp [Db.invite?, stored, Sees, pending, Option.filter]
  rw [updateManyInvites, found]

/-- The update of a tenant's account goes through for a bindable tenant. -/
theorem updateTenant_line (S : Server) (db : Db) (i : TenantInvite) (lineUserId : String) :
    (∃ e, updateTenant S (some i.companyId) db i.tenantId { lineUserId := some lineUserId } =
        .error e ∧ ∀ t, ¬ db.Bindable i lineUserId t) ∨
      ∃ t, updateTenant S (some i.companyId) db i.tenantId { lineUserId := some lineUserId } =
        .ok ([.tenant (TenantPatch.apply { lineUserId := some lineUserId } t)],
          TenantPatch.apply { lineUserId := some lineUserId } t) ∧ db.Bindable i lineUserId t := by
  unfold updateTenant
  cases found : db.tenant? (some i.companyId) i.tenantId with
  | none => exact .inl ⟨_, rfl, fun t bindable => by simp [Db.Bindable, found] at bindable⟩
  | some t =>
    by_cases fits : lineUserId.length ≤ 64
    · by_cases taken : db.LineTaken t.companyId lineUserId t.id
      · refine .inl ⟨uniqueViolation S ["company_id", "line_user_id"], ?_, ?_⟩
        · simp [TenantPatch.Fits, fits, taken]
        · rintro t' ⟨found', -, free⟩
          rw [found] at found'
          cases found'
          exact free taken
      · refine .inr ⟨t, ?_, found, fits, taken⟩
        simp [TenantPatch.Fits, fits, taken]
    · refine .inl ⟨tooLong, ?_, fun t' bindable => fits bindable.2.1⟩
      simp [TenantPatch.Fits, fits]

/-- The service's own audit row goes in, under a new key. -/
theorem createAuditLog_redeemed (S : Server) {newId : Id} (companyId resourceId : Id)
    (metadata : List (String × String)) (fresh : db.auditLogs.find? newId = none) :
    ∃ row, createAuditLog S db (auditRow companyId newId "TENANT_INVITE_REDEEMED" resourceId none
      metadata) = .ok ([.auditLog row], row) := by
  have fits : AuditFits S db
      (auditRow companyId newId "TENANT_INVITE_REDEEMED" resourceId none metadata) := by
    have action : "TENANT_INVITE_REDEEMED".length ≤ 64 := by decide
    have resource : "tenant_invite".length ≤ 64 := by decide
    refine ⟨action, resource, ?_, ?_, ?_⟩ <;> intro u hu <;> cases hu
  have free : (db.auditLogs.find? newId).isSome = false := by rw [fresh]; rfl
  refine ⟨auditRow companyId newId "TENANT_INVITE_REDEEMED" resourceId none metadata, ?_⟩
  rw [createAuditLog, if_pos fits, if_neg]
  simpa [auditRow] using free

/-- The call binds nothing but what its candidate allows. -/
theorem binds_iff (known : db.candidate? sha256Hex code = some (i, c)) {t : TenantProfile}
    {l : String} :
    (InviteCall.redeem auditId now now' code lineUserId).Binds sha256Hex db t l ↔
      lineUserId = l ∧ i.status = .pending ∧ now < i.expiresAt ∧
        db.Bindable i lineUserId t := by
  constructor
  · rintro ⟨rfl, j, c', known', rest⟩
    rw [known] at known'
    cases known'
    exact ⟨rfl, rest⟩
  · rintro ⟨rfl, rest⟩
    exact ⟨rfl, i, c, known, rest⟩

theorem replays_iff (known : db.candidate? sha256Hex code = some (i, c)) {j : TenantInvite}
    {l : String} :
    (InviteCall.redeem auditId now now' code lineUserId).Replays sha256Hex db j l ↔
      lineUserId = l ∧ j = i ∧ RedeemedBy i lineUserId := by
  constructor
  · rintro ⟨rfl, c', known', by'⟩
    rw [known] at known'
    cases known'
    exact ⟨rfl, rfl, by'⟩
  · rintro ⟨rfl, rfl, by'⟩
    exact ⟨rfl, c, known, by'⟩

/-- The transaction of a redemption, on a pending invite. -/
theorem redeemPending_ends (known : db.candidate? sha256Hex code = some (i, c))
    (pending : i.status = .pending) (valid : now < i.expiresAt)
    (fresh : db.auditLogs.find? auditId = none)
    (h : (redeemPending i c.slug auditId now' lineUserId).Serves (engine S) queueUp db r d) :
    Redeemed sha256Hex db (.redeem auditId now now' code lineUserId) r d := by
  have refuses : ∀ {e d}, d.tenants = db.tenants → (∀ t, ¬ db.Bindable i lineUserId t) →
      Redeemed sha256Hex db (.redeem auditId now now' code lineUserId) (.error e) d := by
    intro e d same unfit
    refine .refuses e d same (fun t l binds => ?_) fun j l replays => ?_
    · exact unfit t ((binds_iff known).1 binds).2.2.2
    · have redeemed := ((replays_iff known).1 replays).2.2.1
      rw [pending] at redeemed
      cases redeemed
  have swapped := updateMany_stored (candidate_stored known) pending
    (redeemedPatch now' lineUserId)
  refine h.leads (Prog.leads_query rfl (fun ws count ran => ?_) fun e ran => ?_)
  · have ran := swapped.symm.trans ran
    split at ran
    · cases ran
      simp only [ne_eq, not_true_eq_false, if_false]
      rw [bindTenant_bind]
      -- The update of the tenant sees the tenants of `db`.
      have line := updateTenant_line S
        (Row.apply db (.invite ((redeemedPatch now' lineUserId).apply i))) i lineUserId
      refine Prog.leads_sql rfl (fun ws profile ran => ?_) fun e ran => ?_
      · rcases line with ⟨e, failed, -⟩ | ⟨t, bound, bindable⟩
        · cases failed.symm.trans ran
        · cases bound.symm.trans ran
          simp only
          rw [writeAudit_bind]
          refine Prog.leads_sql rfl (fun ws row ran => ?_) fun e ran => ?_
          · obtain ⟨row', written⟩ := createAuditLog_redeemed S i.companyId i.id _ fresh
            cases written.symm.trans ran
            refine Prog.leads_done rfl ?_
            have owner : t.id = i.tenantId :=
              Table.find?_key (Option.filter_eq_some_iff.1 bindable.1).1
            exact .binds t lineUserId _ _ owner.symm
              ((binds_iff known).2 ⟨rfl, pending, valid, bindable⟩) rfl
          · obtain ⟨row', written⟩ := createAuditLog_redeemed S i.companyId i.id _ fresh
            cases written.symm.trans ran
      · rcases line with ⟨e', failed, unfit⟩ | ⟨t, bound, bindable⟩
        · simp only
          split
          · rw [Prog.bind_assoc]
            exact Prog.leads_broken rfl (refuses rfl unfit)
          · exact Prog.leads_fail (refuses rfl unfit)
        · cases bound.symm.trans ran
    · cases ran
  · have ran := swapped.symm.trans ran
    split at ran
    · cases ran
    · rename_i unfit
      refine refuses rfl fun t bindable => unfit ?_
      simpa [redeemedPatch, InvitePatch.Fits] using bindable.2.1

/-- The opportunistic sweep leaves the tenants alone. -/
theorem sweep_ends (h : (sweep i).Serves (engine S) queueUp db r d) :
    r = .error tenantInviteExpired ∧ d.tenants = db.tenants := by
  refine h.leads (Q := fun r (d : Db) => r = .error tenantInviteExpired ∧ d.tenants = db.tenants)
    (Prog.leads_query rfl (fun ws count ran => ?_) fun e ran => ?_)
  · refine Prog.leads_done rfl ⟨rfl, ?_⟩
    rcases updateMany_pending ran with ⟨-, rfl⟩ | ⟨j, -, rfl, -, -⟩
    · rfl
    · rfl
  · have ran : updateManyInvites (some i.companyId) db i.id .pending { status := .expired } =
      .error e := ran
    unfold updateManyInvites at ran
    split at ran
    · cases ran
    · rw [if_pos (by intro l hl; cases hl)] at ran
      cases ran

/-- **What a redemption comes to.** -/
theorem redeem_ends (fresh : db.auditLogs.find? auditId = none)
    (h : (redeem sha256Hex auditId now now' code lineUserId).Serves (engine S) queueUp db r d) :
    Redeemed sha256Hex db (.redeem auditId now now' code lineUserId) r d := by
  refine h.leads (Prog.leads_query rfl (fun ws candidate ran => ?_) fun e ran => ?_)
  · have looked : candidate = db.candidate? sha256Hex code := by
      cases ran
      rfl
    obtain rfl : ws = [] := by
      cases ran
      rfl
    cases candidate with
    | none =>
      refine Prog.leads_done rfl (.refuses _ db rfl ?_ ?_)
      · rintro t l ⟨-, i, c, known, -⟩
        rw [← looked] at known
        cases known
      · rintro i l ⟨-, c, known, -⟩
        rw [← looked] at known
        cases known
    | some found =>
      obtain ⟨i, c⟩ := found
      refine Prog.leads_ret rfl fun r d served => ?_
      have known := looked.symm
      -- The branches past the replay.
      have rest : ¬ RedeemedBy i lineUserId →
          (redeemFound.rest i c.slug auditId now now' lineUserId).Serves (engine S) queueUp db r d →
          Redeemed sha256Hex db (.redeem auditId now now' code lineUserId) r d := by
        intro other served
        have refuses : ∀ {e d}, d.tenants = db.tenants →
            (i.status = .pending → ¬ now < i.expiresAt) →
            Redeemed sha256Hex db (.redeem auditId now now' code lineUserId) (.error e) d := by
          intro e d same expired
          refine .refuses e d same (fun t l binds => ?_) fun j l replays => ?_
          · obtain ⟨-, pending, valid, -⟩ := (binds_iff known).1 binds
            exact expired pending valid
          · exact other ((replays_iff known).1 replays).2.2
        unfold redeemFound.rest at served
        split at served
        · cases served
          exact refuses rfl fun pending => absurd pending ‹_›
        · rename_i pending
          have pending := not_not.1 pending
          split at served
          · rename_i expired
            obtain ⟨rfl, same⟩ := sweep_ends served
            exact refuses same fun _ => not_lt.2 expired
          · rename_i valid
            exact redeemPending_ends known pending (not_le.1 valid) fresh served
      unfold redeemFound at served
      split at served
      · rename_i at' marked
        split at served
        · rename_i replay
          cases served
          refine .replays i lineUserId _ rfl ((replays_iff known).2 ⟨rfl, rfl, ?_⟩)
          exact ⟨replay.1, replay.2, by rw [marked]; rfl⟩
        · rename_i other
          exact rest (fun by' => other ⟨by'.1, by'.2.1⟩) served
      · rename_i unmarked
        refine rest (fun by' => ?_) served
        rw [RedeemedBy, unmarked] at by'
        cases by'.2.2
  · cases ran

end ends

/-! ## Who is bound -/

/-- The LINE account of a tenant. -/
def Db.account? (db : Db) (id : Id) : Option String :=
  (db.tenants.find? id).bind fun t => t.lineUserId

def InviteCall.IsRedeem : InviteCall → Prop
  | redeem _ _ _ _ _ => True
  | _ => False

/-- The step gives a tenant that has a LINE account another one. -/
def Step.Rebinds (s : Step) : Prop :=
  ∃ id u u', s.before.account? id = some u ∧ s.after.account? id = some u' ∧ u ≠ u'

/-- The redemption of a pending invite whose tenant has another LINE account,
while the new one fits and is free. -/
def InviteCall.Displaces (sha256Hex : String → String) (db : Db) : InviteCall → Prop
  | redeem _ now _ code lineUserId => ∃ found ∈ db.candidate? sha256Hex code,
      found.1.status = .pending ∧ now < found.1.expiresAt ∧
      ∃ t ∈ db.tenant? (some found.1.companyId) found.1.tenantId,
        (lineUserId.length ≤ 64 ∧ ¬ db.LineTaken t.companyId lineUserId t.id) ∧
        ∃ u ∈ t.lineUserId, u ≠ lineUserId
  | _ => False

instance (sha256Hex : String → String) (db : Db) (call : InviteCall) :
    Decidable (call.Displaces sha256Hex db) := by
  cases call <;> unfold InviteCall.Displaces <;> infer_instance

theorem displaces_iff {sha256Hex : String → String} {db : Db} {call : InviteCall} :
    call.Displaces sha256Hex db ↔ ∃ t lineUserId u, call.Binds sha256Hex db t lineUserId ∧
      t.lineUserId = some u ∧ u ≠ lineUserId := by
  cases call with
  | redeem auditId now now' code l =>
    constructor
    · rintro ⟨⟨i, c⟩, known, pending, valid, t, found, free, u, bound, other⟩
      exact ⟨t, l, u, ⟨rfl, i, c, known, pending, valid, found, free⟩, bound, other⟩
    · rintro ⟨t, _, u, ⟨rfl, i, c, known, pending, valid, found, free⟩, bound, other⟩
      exact ⟨(i, c), known, pending, valid, t, found, free, u, bound, other⟩
  | generate | revoke | peek | updateTenant =>
    refine iff_of_false (fun h => h) ?_
    rintro ⟨t, l, u, binds, -⟩
    exact binds

theorem Step.Served.redeemed {S : Server} {sha256Hex : String → String} {s : Step}
    (served : s.Served S sha256Hex) (redeems : s.call.IsRedeem) :
    Redeemed sha256Hex s.before s.call s.answer s.after := by
  obtain ⟨before, call, answer, after⟩ := s
  obtain ⟨fresh, serves⟩ := served
  cases call with
  | redeem auditId now now' code lineUserId => exact redeem_ends fresh serves
  | generate | revoke | peek | updateTenant => exact redeems.elim

/-- The tenant of a redemption is a stored one. -/
theorem InviteCall.Binds.account {sha256Hex : String → String} {db : Db} {call : InviteCall}
    {t : TenantProfile} {lineUserId : String} (h : call.Binds sha256Hex db t lineUserId) :
    db.account? t.id = t.lineUserId := by
  cases call with
  | redeem auditId now now' code l =>
    obtain ⟨-, i, c, -, -, -, bindable, -⟩ := h
    have stored : db.tenants.find? t.id = some t :=
      Table.find?_of_mem (Table.find?_mem (Option.filter_eq_some_iff.1 bindable).1)
    rw [Db.account?, stored]
    rfl
  | generate | revoke | peek | updateTenant => exact h.elim

theorem InviteCall.Binds.unique {sha256Hex : String → String} {db : Db} {call : InviteCall}
    {t t' : TenantProfile} {l l' : String} (h : call.Binds sha256Hex db t l)
    (h' : call.Binds sha256Hex db t' l') : t = t' ∧ l = l' := by
  cases call with
  | redeem auditId now now' code l₀ =>
    obtain ⟨rfl, i, c, known, -, -, bindable⟩ := h
    obtain ⟨rfl, -, -, bindable'⟩ := (binds_iff known).1 h'
    exact ⟨Option.some.inj (bindable.1.symm.trans bindable'.1), rfl⟩
  | generate | revoke | peek | updateTenant => exact h.elim

/-- The accounts after a binding. -/
theorem bound_account {db d : Db} {t : TenantProfile} {lineUserId : String}
    (bound : d.tenants = db.tenants.put (TenantPatch.apply { lineUserId := some lineUserId } t))
    (id : Id) : d.account? id = if id = t.id then some lineUserId else db.account? id := by
  have found : d.tenants.find? id =
      if id = t.id then some (TenantPatch.apply { lineUserId := some lineUserId } t)
      else db.tenants.find? id := by
    rw [bound, Table.find?_put]
    rfl
  rw [Db.account?, found]
  by_cases own : id = t.id
  · rw [if_pos own, if_pos own]
    rfl
  · rw [if_neg own, if_neg own]
    rfl

theorem Step.Served.rebinds_iff {S : Server} {sha256Hex : String → String} {s : Step}
    (served : s.Served S sha256Hex) (redeems : s.call.IsRedeem) :
    s.Rebinds ↔ s.call.Displaces sha256Hex s.before := by
  have ends := served.redeemed redeems
  obtain ⟨before, call, answer, after⟩ := s
  constructor
  · rintro ⟨id, u, u', bound, bound', changed⟩
    have kept : after.account? id ≠ before.account? id := by
      intro same
      exact changed (Option.some.inj (bound.symm.trans (same.symm.trans bound')))
    cases ends with
    | replays => exact absurd rfl kept
    | refuses e d same => exact absurd (by rw [Db.account?, same]; rfl) kept
    | binds t lineUserId r d tenant binds now =>
      have own : id = t.id := by
        by_contra other
        exact kept ((bound_account now id).trans (if_neg other))
      have new : lineUserId = u' :=
        Option.some.inj (((bound_account now id).trans (if_pos own)).symm.trans bound')
      refine displaces_iff.2 ⟨t, lineUserId, u, binds, ?_, new ▸ changed⟩
      rw [← binds.account, ← own]
      exact bound
  · intro displaces
    obtain ⟨t, lineUserId, u, binds, bound, other⟩ := displaces_iff.1 displaces
    cases ends with
    | replays i l r tenant replays =>
      cases call with
      | redeem auditId now now' code l₀ =>
        obtain ⟨rfl, c, known, redeemed, -⟩ := replays
        have pending := ((binds_iff known).1 binds).2.1
        rw [redeemed] at pending
        cases pending
      | generate | revoke | peek | updateTenant => exact redeems.elim
    | refuses e d same unfit => exact (unfit t lineUserId binds).elim
    | binds t' l r d tenant binds' now =>
      obtain ⟨rfl, rfl⟩ := binds.unique binds'
      exact ⟨t.id, u, lineUserId, binds.account.trans bound,
        (bound_account now t.id).trans (if_pos rfl), other⟩

/-- **No silent rebinding**, as long as no invite is redeemed whose tenant has
got a LINE account since. -/
theorem never_rebound_iff (S : Server) (sha256Hex : String → String) (db : Db) (steps : List Step)
    (run : IsRun S sha256Hex db steps) :
    (∀ s ∈ steps, s.call.IsRedeem → ¬ s.Rebinds) ↔
      ∀ s ∈ steps, ¬ s.call.Displaces sha256Hex s.before := by
  constructor
  · intro kept s hs displaces
    have redeems : s.call.IsRedeem := by
      cases call : s.call with
      | redeem => trivial
      | generate | revoke | peek | updateTenant =>
        rw [call] at displaces
        exact displaces
    exact kept s hs redeems (((run.served s hs).rebinds_iff redeems).2 displaces)
  · intro clear s hs redeems rebinds
    exact clear s hs (((run.served s hs).rebinds_iff redeems).1 rebinds)

namespace Demo

/-- A tenant without a LINE account. -/
def unbound : Db := { invited with invites := default }

def adminRow (newId : Id) : AuditLog :=
  ⟨newId, 1, some 7, "POST /c/:slug/tenants/:tenantId/invites", "tenant", none, [], none, none⟩

/-- An invite for the tenant. -/
def inviteTenant (newId : Id) (code : String) : InviteCall :=
  .generate (adminRow (100 + newId)) ⟨1⟩ newId (200 + newId) 0 code 21 7

/-- One invite, redeemed. -/
def onceInvited : List InviteCall :=
  [inviteTenant 31 "K7M3XQ2P", .redeem 301 10 10 "K7M3XQ2P" "U1", .peek 20 "K7M3XQ2P"]

/-- Two invites for one tenant, and two accounts. -/
def twiceInvited : List InviteCall :=
  [inviteTenant 31 "K7M3XQ2P", inviteTenant 32 "9TBD4CWR",
    .redeem 301 10 10 "K7M3XQ2P" "U1", .redeem 302 20 20 "9TBD4CWR" "U2"]

end Demo

theorem never_rebound_once : ∃ steps ∈ serveAll Demo.server Demo.sha256Hex Demo.unbound
    Demo.onceInvited, ∀ s ∈ steps, s.call.IsRedeem → ¬ s.Rebinds := by
  have fresh : ∃ steps ∈ serveAll Demo.server Demo.sha256Hex Demo.unbound Demo.onceInvited,
      (∀ s ∈ steps, s.call.Fresh s.before) ∧
      ∀ s ∈ steps, ¬ s.call.Displaces Demo.sha256Hex s.before := by decide +kernel
  obtain ⟨steps, served, fresh, clear⟩ := fresh
  exact ⟨steps, served, (never_rebound_iff Demo.server Demo.sha256Hex Demo.unbound steps
    (serveAll_isRun served fresh)).2 clear⟩

/-- The second invite of an unbound tenant replaces the account of the first. -/
theorem second_invite_rebinds : ∃ steps, IsRun Demo.server Demo.sha256Hex Demo.unbound steps ∧
    ∃ s ∈ steps, s.call.IsRedeem ∧ s.Rebinds := by
  have run : ∃ steps ∈ serveAll Demo.server Demo.sha256Hex Demo.unbound Demo.twiceInvited,
      (∀ s ∈ steps, s.call.Fresh s.before) ∧
      ∃ s ∈ steps, s.call = .redeem 302 20 20 "9TBD4CWR" "U2" ∧
        s.before.account? 21 = some "U1" ∧ s.after.account? 21 = some "U2" := by decide +kernel
  obtain ⟨steps, served, fresh, s, hs, call, bound, rebound⟩ := run
  refine ⟨steps, serveAll_isRun served fresh, s, hs, ?_, 21, "U1", "U2", bound, rebound, by decide⟩
  rw [call]
  trivial

/-! ## Whose session it is -/

/-- The claims of a tenant's session. -/
structure TenantJwtClaims where
  sub : Id
  companyId : Id
  companySlug : String
  lineUserId : String
  deriving DecidableEq, Repr

/-- `mintTenantSession`, with what the controller hands it. -/
def mintTenantSession (bind : RedeemTenantInviteResponse) (lineUserId : String) :
    TenantJwtClaims where
  sub := bind.tenantId
  companyId := bind.companyId
  companySlug := bind.companySlug
  lineUserId := lineUserId

/-- The session that the controller's `redeem` adds to its response. -/
def Step.session? (s : Step) : Option TenantJwtClaims :=
  match s.call, s.answer with
  | .redeem _ _ _ _ lineUserId, .ok (.redeemed bind) => some (mintTenantSession bind lineUserId)
  | _, _ => none

/-- The session belongs to the account that the tenant has now. -/
def Step.Reflects (s : Step) : Prop :=
  ∀ claims, s.session? = some claims → s.after.account? claims.sub = some claims.lineUserId

/-- The replay of a redemption whose account the tenant does not have. -/
def InviteCall.Stale (sha256Hex : String → String) (db : Db) : InviteCall → Prop
  | redeem _ _ _ code lineUserId => ∃ found ∈ db.candidate? sha256Hex code,
      RedeemedBy found.1 lineUserId ∧ db.account? found.1.tenantId ≠ some lineUserId
  | _ => False

instance (sha256Hex : String → String) (db : Db) (call : InviteCall) :
    Decidable (call.Stale sha256Hex db) := by
  cases call <;> unfold InviteCall.Stale RedeemedBy <;> infer_instance

theorem Step.Served.reflects_iff {S : Server} {sha256Hex : String → String} {s : Step}
    (served : s.Served S sha256Hex) : s.Reflects ↔ ¬ s.call.Stale sha256Hex s.before := by
  obtain ⟨before, call, answer, after⟩ := s
  cases call with
  | generate | revoke | peek | updateTenant =>
    exact iff_of_true (fun claims minted => by cases minted) fun stale => stale
  | redeem auditId now now' code lineUserId =>
    cases served.redeemed trivial with
    | replays i l r tenant replays =>
      obtain ⟨rfl, c, known, redeemed⟩ := replays
      have account : before.account? (mintTenantSession r lineUserId).sub =
        before.account? i.tenantId := congrArg before.account? tenant
      constructor
      · rintro reflects ⟨found, looked, -, gone⟩
        obtain rfl := Option.some.inj (known.symm.trans looked)
        exact gone (account.symm.trans (reflects _ rfl))
      · intro current claims minted
        cases minted
        by_contra gone
        exact current ⟨(i, c), known, redeemed, account ▸ gone⟩
    | binds t l r d tenant binds now =>
      have keep := binds
      obtain ⟨rfl, i, c, known, pending, -⟩ := keep
      refine iff_of_true (fun claims minted => ?_) ?_
      · cases minted
        exact (bound_account now r.tenantId).trans (if_pos tenant)
      · rintro ⟨found, looked, redeemed, -⟩
        obtain rfl := Option.some.inj (known.symm.trans looked)
        cases pending.symm.trans redeemed.1
    | refuses e d same unfit other =>
      refine iff_of_true (fun claims minted => by cases minted) ?_
      rintro ⟨⟨i, c⟩, known, redeemed, -⟩
      exact other i lineUserId ⟨rfl, c, known, redeemed⟩

/-- **The session is the bound account's**, as long as no redemption is replayed
for an account that the tenant no longer has. -/
theorem sessions_reflect_iff (S : Server) (sha256Hex : String → String) (db : Db)
    (steps : List Step) (run : IsRun S sha256Hex db steps) :
    (∀ s ∈ steps, s.Reflects) ↔ ∀ s ∈ steps, ¬ s.call.Stale sha256Hex s.before :=
  forall₂_congr fun s hs => (run.served s hs).reflects_iff

namespace Demo

/-- A redemption and its replay. -/
def replayed : List InviteCall :=
  [inviteTenant 31 "K7M3XQ2P", .redeem 301 10 10 "K7M3XQ2P" "U1",
    .redeem 302 20 20 "K7M3XQ2P" "U1"]

/-- The admin gives the tenant another account before the replay. -/
def replacedAccount : List InviteCall :=
  [inviteTenant 31 "K7M3XQ2P", .redeem 301 10 10 "K7M3XQ2P" "U1",
    .updateTenant (adminRow 401) ⟨1⟩ 21 ⟨some "U2", none, none, none⟩,
    .redeem 302 20 20 "K7M3XQ2P" "U1"]

end Demo

theorem sessions_reflect_replayed : ∃ steps ∈ serveAll Demo.server Demo.sha256Hex Demo.unbound
    Demo.replayed, ∀ s ∈ steps, s.Reflects := by
  have fresh : ∃ steps ∈ serveAll Demo.server Demo.sha256Hex Demo.unbound Demo.replayed,
      (∀ s ∈ steps, s.call.Fresh s.before) ∧
      ∀ s ∈ steps, ¬ s.call.Stale Demo.sha256Hex s.before := by decide +kernel
  obtain ⟨steps, served, fresh, current⟩ := fresh
  exact ⟨steps, served, (sessions_reflect_iff Demo.server Demo.sha256Hex Demo.unbound steps
    (serveAll_isRun served fresh)).2 current⟩

/-- The replay gets a session on a tenant that has another account by then. -/
theorem stale_replay_gets_session : ∃ steps, IsRun Demo.server Demo.sha256Hex Demo.unbound steps ∧
    ∃ s ∈ steps, s.session? = some ⟨21, 1, "siam-court", "U1"⟩ ∧ s.after.account? 21 = some "U2" ∧
      ¬ s.Reflects := by
  have run : ∃ steps ∈ serveAll Demo.server Demo.sha256Hex Demo.unbound Demo.replacedAccount,
      (∀ s ∈ steps, s.call.Fresh s.before) ∧
      ∃ s ∈ steps, s.session? = some ⟨21, 1, "siam-court", "U1"⟩ ∧
        s.after.account? 21 = some "U2" := by decide +kernel
  obtain ⟨steps, served, fresh, s, hs, minted, bound⟩ := run
  refine ⟨steps, serveAll_isRun served fresh, s, hs, minted, bound, fun reflects => ?_⟩
  have current := reflects _ minted
  rw [bound] at current
  exact absurd current (by decide)

end Dormitory.Tenancy
