import Dormitory.TenantInviteService

/-!
# Racing for an invite

Any number of `redeem`, `revoke` and `peek` calls, their transactions
interleaved. Every write of an invite's status is a compare-and-set from
`pending` whose row lock is kept to the COMMIT, so a commit takes an invite out
of `pending` or leaves it alone; a redemption whose binding fails throws, and
its transaction never commits.
-/

namespace Dormitory.Tenancy
open Txn

/-! ## What a call can commit -/

/-- The patch of a redemption. -/
def redeemedPatch (now : Instant) (lineUserId : String) : InvitePatch where
  status := .redeemed
  redeemedAt := some (some now)
  redeemedByLineUserId := some (some lineUserId)

/-- Nothing; an invite closed; or an invite redeemed and its tenant bound. -/
inductive Settles (db : Db) : List Row → Prop
  | nothing : Settles db []
  | close (i : TenantInvite) (status : TenantInviteStatus)
      (terminal : status = .expired ∨ status = .revoked) (found : db.invites.find? i.id = some i)
      (pending : i.status = .pending) :
      Settles db [.invite (InvitePatch.apply { status := status } i)]
  | redeem (i : TenantInvite) (t : TenantProfile) (now : Instant) (lineUserId : String)
      (found : db.invites.find? i.id = some i) (pending : i.status = .pending)
      (tenant : db.tenants.find? i.tenantId = some t) :
      Settles db [.invite ((redeemedPatch now lineUserId).apply i),
        .tenant (TenantPatch.apply { lineUserId := some lineUserId } t)]

/-- One of these, and audit rows. -/
def Audited (base : List Row) (ws : List Row) : Prop :=
  ∃ rows : List AuditLog, ws = base ++ rows.map .auditLog

def Settled (db : Db) (ws : List Row) : Prop := ∃ base, Settles db base ∧ Audited base ws

/-- Audit rows leave the invites and the tenants alone. -/
theorem Audited.foldl {base ws : List Row} (h : Audited base ws) (db : Db) :
    (ws.foldl Row.apply db).invites = (base.foldl Row.apply db).invites ∧
      (ws.foldl Row.apply db).tenants = (base.foldl Row.apply db).tenants := by
  obtain ⟨rows, rfl⟩ := h
  rw [List.foldl_append]
  generalize base.foldl Row.apply db = db
  induction rows generalizing db with
  | nil => exact ⟨rfl, rfl⟩
  | cons r rows ih => exact ih (Row.apply db (.auditLog r))

/-- What a commit does to one invite. -/
inductive Turns (i : TenantInvite) : TenantInvite → Prop
  | stays : Turns i i
  | closes (status : TenantInviteStatus) (terminal : status = .expired ∨ status = .revoked)
      (pending : i.status = .pending) : Turns i (InvitePatch.apply { status := status } i)
  | redeemed (now : Instant) (lineUserId : String) (pending : i.status = .pending) :
      Turns i ((redeemedPatch now lineUserId).apply i)

namespace Turns
variable {i i' i'' : TenantInvite}

theorem same (h : Turns i i') : i'.id = i.id ∧ i'.tenantId = i.tenantId := by
  cases h with
  | stays | closes | redeemed => exact ⟨rfl, rfl⟩

/-- An invite that is not pending stays as it is. -/
theorem final (h : Turns i i') (terminal : i.status ≠ .pending) : i' = i := by
  cases h with
  | stays => rfl
  | closes status _ pending | redeemed now lineUserId pending => exact absurd pending terminal

theorem status (h : Turns i i') : i' = i ∨ (i.status = .pending ∧ i'.status ≠ .pending) := by
  cases h with
  | stays => exact .inl rfl
  | closes status terminal pending =>
    refine .inr ⟨pending, ?_⟩
    rcases terminal with rfl | rfl <;> simp
  | redeemed now lineUserId pending => exact .inr ⟨pending, by simp [redeemedPatch]⟩

theorem trans (h : Turns i i') (h' : Turns i' i'') : Turns i i'' := by
  rcases h.status with rfl | ⟨-, terminal⟩
  · exact h'
  · rw [h'.final terminal]
    exact h

end Turns

/-- `redeemed` is the status of the invites with both marks of a redemption. -/
def Marked (i : TenantInvite) : Prop :=
  i.status = .redeemed ↔ i.redeemedAt.isSome ∧ i.redeemedByLineUserId.isSome

instance (i : TenantInvite) : Decidable (Marked i) := inferInstanceAs (Decidable (_ ↔ _))

theorem Turns.marked {i i' : TenantInvite} (h : Turns i i') (marked : Marked i) : Marked i' := by
  cases h with
  | stays => exact marked
  | closes status terminal pending =>
    have unmarked : ¬ (i.redeemedAt.isSome ∧ i.redeemedByLineUserId.isSome) := by
      intro marks
      have := marked.mpr marks
      rw [pending] at this
      cases this
    refine iff_of_false ?_ unmarked
    rcases terminal with rfl | rfl <;> simp
  | redeemed now lineUserId pending => exact iff_of_true rfl ⟨rfl, rfl⟩

section kind
variable {S : Server} {held : List Lock} {db db' : Db} {base ws : List Row}

theorem invite_apply {db : Db} {i : TenantInvite} {id : Id} :
    (Row.apply db (.invite i)).invites.find? id =
      if id = i.id then some i else db.invites.find? id :=
  Table.find?_put db.invites i id

/-- A commit turns every invite. -/
theorem Settled.turns (h : Settled db ws) {id : Id} {i : TenantInvite}
    (found : db.invites.find? id = some i) :
    ∃ i', (ws.foldl Row.apply db).invites.find? id = some i' ∧ Turns i i' := by
  obtain ⟨base, settles, audited⟩ := h
  rw [(audited.foldl db).1]
  cases settles with
  | nothing => exact ⟨i, found, .stays⟩
  | close j status terminal stored pending =>
    rw [List.foldl_cons, List.foldl_nil, invite_apply]
    by_cases own : id = j.id
    · rw [own, stored] at found
      cases found
      exact ⟨_, if_pos own, .closes status terminal pending⟩
    · exact ⟨i, by rw [InvitePatch.apply_id, if_neg own, found], .stays⟩
  | redeem j t now lineUserId stored pending tenant =>
    change ∃ i', (Row.apply db (.invite _)).invites.find? id = some i' ∧ _
    rw [invite_apply]
    by_cases own : id = j.id
    · rw [own, stored] at found
      cases found
      exact ⟨_, if_pos own, .redeemed now lineUserId pending⟩
    · exact ⟨i, by rw [InvitePatch.apply_id, if_neg own, found], .stays⟩

/-- The rows of a commit that leaves a lock alone are other rows. -/
theorem Audited.other {lock : Lock} (h : Audited base ws) (mem : lock ∈ held)
    (apart : ∀ l ∈ ws.flatMap (engine S).locks, l ∉ held) {w : Row} (hw : w ∈ base) :
    lock ∉ w.locks := by
  obtain ⟨rows, rfl⟩ := h
  intro own
  exact apart lock (List.mem_flatMap.2 ⟨w, List.mem_append_left _ hw, own⟩) mem

/-- A locked invite is left alone. -/
theorem invite_held {id : Id} (lock : Lock.invite id ∈ held)
    (h : Interferes (engine S) Settled held db db') :
    db'.invites.find? id = db.invites.find? id := by
  refine h.preserves (I := fun d : Db => d.invites.find? id = db.invites.find? id) ?_ rfl
  rintro d ws same ⟨base, settles, audited⟩ apart
  refine Eq.trans ?_ same
  change (ws.foldl Row.apply d).invites.find? id = _
  rw [(audited.foldl d).1]
  cases settles with
  | nothing => rfl
  | close j status terminal stored pending =>
    have other : id ≠ j.id := by
      simpa [Row.locks] using audited.other lock apart List.mem_cons_self
    exact invite_apply.trans (if_neg other)
  | redeem j t now lineUserId stored pending tenant =>
    have other : id ≠ j.id := by
      simpa [Row.locks] using audited.other lock apart List.mem_cons_self
    exact invite_apply.trans (if_neg other)

/-- A locked tenant is left alone. -/
theorem tenant_held {id : Id} (lock : Lock.tenant id ∈ held)
    (h : Interferes (engine S) Settled held db db') :
    db'.tenants.find? id = db.tenants.find? id := by
  refine h.preserves (I := fun d : Db => d.tenants.find? id = db.tenants.find? id) ?_ rfl
  rintro d ws same ⟨base, settles, audited⟩ apart
  refine Eq.trans ?_ same
  change (ws.foldl Row.apply d).tenants.find? id = _
  rw [(audited.foldl d).2]
  cases settles with
  | nothing => rfl
  | close j status terminal stored pending => rfl
  | redeem j t now lineUserId stored pending tenant =>
    have other : id ≠ t.id := by
      simpa [Row.locks] using
        audited.other lock apart (List.mem_cons_of_mem _ List.mem_cons_self)
    exact (Table.find?_put _ _ id).trans (if_neg other)

/-- Rows under lock can be committed later as well. -/
theorem Settles.later (h : Settles db base) (locks : base.flatMap Row.locks ⊆ held)
    (others : Interferes (engine S) Settled held db db') : Settles db' base := by
  cases h with
  | nothing => exact .nothing
  | close i status terminal found pending =>
    have lock : Lock.invite i.id ∈ held := locks (by simp [Row.locks])
    exact .close i status terminal ((invite_held lock others).trans found) pending
  | redeem i t now lineUserId found pending tenant =>
    have lock : Lock.invite i.id ∈ held := locks (by simp [Row.locks])
    have lock' : Lock.tenant t.id ∈ held := locks (by simp [Row.locks])
    have own : t.id = i.tenantId := Table.find?_key tenant
    refine .redeem i t now lineUserId ((invite_held lock others).trans found) pending ?_
    rw [← own] at tenant ⊢
    exact (tenant_held lock' others).trans tenant

end kind

/-! ## Each call -/

/-- Where a call is between two transactions. The invite that `redeem` goes on
with is a stored one of the same tenant. -/
inductive Stage (sha256Hex : String → String) (call : InviteCall) (db : Db) :
    Script tenancy Answer → Prop
  | start : Stage sha256Hex call db (call.script sha256Hex)
  | done (r : Except ApiError Answer) : Stage sha256Hex call db (.done r)
  | sweep (candidate : TenantInvite) :
      Stage sha256Hex call db (TenantInviteService.sweep candidate)
  | redeem (candidate : TenantInvite) (slug : String) (auditId : Id) (now : Instant)
      (lineUserId : String) (i : TenantInvite) (found : db.invites.find? candidate.id = some i)
      (own : i.tenantId = candidate.tenantId) :
      Stage sha256Hex call db
        (TenantInviteService.redeemPending candidate slug auditId now lineUserId)

theorem Stage.stays {sha256Hex : String → String} {call : InviteCall} {db : Db}
    {s : Script tenancy Answer} {ws : List Row} (h : Stage sha256Hex call db s)
    (settled : Settled db ws) : Stage sha256Hex call (ws.foldl Row.apply db) s := by
  cases h with
  | start => exact .start
  | done r => exact .done r
  | sweep candidate => exact .sweep candidate
  | redeem candidate slug auditId now lineUserId i found own =>
    obtain ⟨i', found', turns⟩ := settled.turns found
    exact .redeem candidate slug auditId now lineUserId i' found' (turns.same.2.trans own)

/-- The calls that race for an invite. -/
def InviteCall.Races : InviteCall → Prop
  | .revoke .. | .peek .. | .redeem .. => True
  | .generate .. | .updateTenant .. => False

section transactions
variable {ι : Type} {S : Server} {sha256Hex : String → String} {call : ι → InviteCall} {t : ι}
  {x : Session tenancy} {js : List Empty} {db : Db} {base : List Row}

/-- The terms of the race. -/
abbrev raceTerms (S : Server) (sha256Hex : String → String) (call : ι → InviteCall) :
    Terms tenancy ι (Script tenancy Answer) :=
  scriptTerms (engine S) Settled fun t s db => Stage sha256Hex (call t) db s

theorem pays_fail {e : ApiError} :
    (Prog.fail e).Pays (engine S) (raceTerms S sha256Hex call) t x js db :=
  fun _ _ => ⟨trivial, fun _ h => by cases h⟩

/-- A statement of an intact transaction, its error caught or not. -/
theorem pays_sql {scope' : Option Id} {q : Query}
    {k : Except ApiError q.Ans → Prog tenancy (Script tenancy Answer)} (sound : x.broken = false)
    (ok : ∀ db' ws a tr, Interferes (engine S) Settled (x.held (engine S)) db db' →
      run S scope' (x.view (engine S) db') q = .ok (ws, a) →
      (k (.ok a)).Pays (engine S) (raceTerms S sha256Hex call) t
        ⟨x.writes ++ ws, x.saves, x.broken, tr⟩ js db')
    (error : ∀ db' e y, y.broken = true →
      (k (.error e)).Pays (engine S) (raceTerms S sha256Hex call) t y js db') :
    (@Prog.sql tenancy _ ⟨scope', q⟩ k).Pays (engine S) (raceTerms S sha256Hex call) t x js db := by
  refine .sql sound (fun _ _ => trivial) (fun db' ws a others ran => ?_) fun db' e _ _ => ?_
  · exact ok db' ws a _ others ran
  · exact error db' e _ rfl

/-- An awaited one. -/
theorem pays_prisma {scope' : Option Id} {q : Query}
    {f : q.Ans → Prog tenancy (Script tenancy Answer)} (sound : x.broken = false)
    (next : ∀ db' ws a tr, Interferes (engine S) Settled (x.held (engine S)) db db' →
      run S scope' (x.view (engine S) db') q = .ok (ws, a) →
      (f a).Pays (engine S) (raceTerms S sha256Hex call) t
        ⟨x.writes ++ ws, x.saves, x.broken, tr⟩ js db') :
    (prisma scope' q >>= f).Pays (engine S) (raceTerms S sha256Hex call) t x js db := by
  rw [prisma_bind]
  exact pays_sql sound next fun _ _ _ _ => pays_fail

/-- The session holds the locks of its rows before the audit. -/
theorem Audited.locks (audited : Audited base x.writes) :
    base.flatMap Row.locks ⊆ x.held (engine S) := by
  obtain ⟨rows, writes⟩ := audited
  change _ ⊆ x.writes.flatMap Row.locks
  rw [writes, List.flatMap_append]
  exact List.subset_append_left _ _

/-- An audit row whose error is dropped: the transaction goes on, or goes on
broken. -/
theorem pays_audit {scope' : Option Id} {row : AuditLog} {p : Prog tenancy (Script tenancy Answer)}
    (settles : Settles db base) (audited : Audited base x.writes)
    (next : ∀ y db', Settles db' base → Audited base y.writes →
      p.Pays (engine S) (raceTerms S sha256Hex call) t y js db') :
    (@Prog.sql tenancy _ ⟨scope', .auditLogCreate row⟩ fun _ => p).Pays (engine S)
      (raceTerms S sha256Hex call) t x js db := by
  have locks := audited.locks (S := S)
  obtain ⟨rows, writes⟩ := audited
  intro db' others
  refine ⟨trivial, fun _ => next _ db' (settles.later locks others) ?_⟩
  unfold Session.exec
  split
  · exact ⟨rows, writes⟩
  · split
    · exact ⟨rows, writes⟩
    · rename_i ws a ran
      have own : ws = [.auditLog row] := by
        change createAuditLog S _ row = _ at ran
        unfold createAuditLog at ran
        split at ran
        · split at ran
          · cases ran
          · cases ran
            rfl
        · cases ran
      refine ⟨rows ++ [row], ?_⟩
      simp [writes, own]

/-- The end of a call. -/
theorem pays_done {r : Except ApiError Answer} (settles : Settles db base)
    (audited : Audited base x.writes) :
    (Prog.ret (.done r)).Pays (engine S) (raceTerms S sha256Hex call) t x js db := by
  have locks := audited.locks (S := S)
  obtain ⟨rows, writes⟩ := audited
  intro db' others
  refine ⟨trivial, ?_⟩
  rintro s ⟨⟩
  by_cases lost : x.broken
  · rw [if_pos lost]
    exact .done r
  · rw [if_neg lost]
    exact ⟨⟨base, settles.later locks others, rows, writes⟩, .done r⟩

theorem record_bind {α : Type} (row : AuditLog) (value : α)
    (f : α → Prog tenancy (Script tenancy Answer)) :
    record row value >>= f =
      @Prog.sql tenancy _ ⟨some row.companyId, .auditLogCreate row⟩ fun _ => f value := by
  change Prog.sql _ _ = _
  congr 1
  funext r
  cases r <;> rfl

/-- A compare-and-set from `pending`, under the lock of the invite's row. -/
theorem updateMany_pending {scope' : Option Id} {id : Id} {data : InvitePatch} {ws : List Row}
    {n : Nat} (ran : updateManyInvites scope' db id .pending data = .ok (ws, n)) :
    (n = 0 ∧ ws = []) ∨ ∃ i, n = 1 ∧ ws = [.invite (data.apply i)] ∧
      db.invites.find? id = some i ∧ i.status = .pending := by
  unfold updateManyInvites at ran
  split at ran
  · cases ran
    exact .inl ⟨rfl, rfl⟩
  · rename_i i found
    split at ran
    · cases ran
      rw [Option.filter_eq_some_iff] at found
      obtain ⟨stored, pending⟩ := found
      refine .inr ⟨i, rfl, rfl, ?_, by simpa using pending⟩
      exact (Option.filter_eq_some_iff.1 stored).1
    · cases ran

theorem writeAudit_bind (companyId newId : Id) (action : String) (resourceId : Id)
    (actorUserId : Option Id) (metadata : List (String × String))
    (f : Unit → Prog tenancy (Script tenancy Answer)) :
    TenantInviteService.writeAudit companyId newId action resourceId actorUserId metadata >>= f =
      @Prog.sql tenancy _ ⟨some companyId, .auditLogCreate (TenantInviteService.auditRow companyId
        newId action resourceId actorUserId metadata)⟩ fun _ => f () := by
  change Prog.sql _ _ = _
  congr 1
  funext r
  cases r <;> rfl

/-- The revocation of an invite, inside its request. -/
theorem revoke_pays (row : AuditLog) (ctx : Ctx) (auditId inviteId : Id) (reason : Option String)
    (actorUserId : Id) :
    (do
      let value ← TenantInviteService.revoke ctx auditId inviteId reason actorUserId
      let value ← record row value
      pure (.done (.ok value)) : Prog tenancy (Script tenancy Answer)).Pays (engine S)
        (raceTerms S sha256Hex call) t {} js db := by
  unfold TenantInviteService.revoke
  rw [Prog.bind_assoc]
  refine pays_prisma rfl fun db₁ ws existing tr₁ _ ran => ?_
  obtain rfl : ws = [] := by cases ran; rfl
  clear ran
  cases existing with
  | none => exact pays_fail
  | some existing =>
    by_cases pending : existing.status ≠ .pending
    · simp only [pending, ne_eq, not_false_eq_true, if_true]
      exact pays_fail
    simp only [pending, if_false]
    rw [Prog.bind_assoc]
    refine pays_prisma rfl fun db₂ ws count tr₂ _ ran => ?_
    rcases updateMany_pending ran with ⟨rfl, rfl⟩ | ⟨i, rfl, rfl, found, pending⟩
    · exact pays_fail
    have settles : Settles db₂ [.invite (InvitePatch.apply { status := .revoked } i)] := by
      refine .close i .revoked (.inr rfl) ?_ pending
      rw [show i.id = inviteId from Table.find?_key found]
      exact found
    simp only [ne_eq, not_true_eq_false, if_false]
    rw [Prog.bind_assoc]
    refine pays_prisma rfl fun db₃ ws updated tr₃ others ran => ?_
    obtain rfl : ws = [] := by cases ran; rfl
    have settles := settles.later (fun _ h => h) others
    clear ran
    cases updated with
    | none => exact pays_fail
    | some updated =>
      simp only
      rw [Prog.bind_assoc, writeAudit_bind]
      refine pays_audit settles ⟨[], rfl⟩ fun y db₄ settles audited => ?_
      rw [Prog.pure_eq, Prog.bind_ret, record_bind]
      exact pays_audit settles audited fun z db₅ settles audited => pays_done settles audited

/-- A lookup commits nothing and goes on. -/
theorem pays_lookup {s : Script tenancy Answer} (stage : Stage sha256Hex (call t) db s)
    (nothing : x.writes = []) :
    (Prog.ret s).Pays (engine S) (raceTerms S sha256Hex call) t x js db := by
  intro db' others
  have stage : Stage sha256Hex (call t) db' s :=
    others.preserves (I := fun d : Db => Stage sha256Hex (call t) d s)
      (fun d ws stage settled _ => stage.stays settled) stage
  refine ⟨trivial, ?_⟩
  rintro s' ⟨⟩
  by_cases lost : x.broken
  · rw [if_pos lost]
    exact stage
  · rw [if_neg lost]
    refine ⟨⟨[], .nothing, [], nothing⟩, ?_⟩
    rw [Session.view, nothing]
    exact stage

theorem sweep_pays (candidate : TenantInvite) :
    (do
      let _ ← prisma (some candidate.companyId)
        (.inviteUpdateMany candidate.id .pending { status := .expired })
      pure (.done (.error TenantInviteService.tenantInviteExpired)) :
        Prog tenancy (Script tenancy Answer)).Pays (engine S) (raceTerms S sha256Hex call) t {} js
          db := by
  refine pays_prisma rfl fun db₁ ws count tr₁ _ ran => ?_
  rcases updateMany_pending ran with ⟨-, rfl⟩ | ⟨i, -, rfl, found, pending⟩
  · exact pays_done .nothing ⟨[], rfl⟩
  · refine pays_done (.close i .expired (.inl rfl) ?_ pending) ⟨[], rfl⟩
    rw [show i.id = candidate.id from Table.find?_key found]
    exact found

theorem bindTenant_bind (candidate : TenantInvite) (auditId : Id) (lineUserId : String)
    (f : Unit → Prog tenancy (Script tenancy Answer)) :
    TenantInviteService.bindTenant candidate auditId lineUserId >>= f =
      @Prog.sql tenancy _ ⟨some candidate.companyId,
          .tenantUpdate candidate.tenantId { lineUserId := some lineUserId }⟩ fun
        | .ok _ => f ()
        | .error err => (if isUniqueConstraintError err "lineUserId" then do
            let _ ← prisma (some candidate.companyId) (.inviteUpdateMany candidate.id .redeemed
              { status := .pending, redeemedAt := some none, redeemedByLineUserId := some none })
            TenantInviteService.writeAudit candidate.companyId auditId
              "TENANT_INVITE_BIND_CONFLICT" candidate.id none
              [("tenantId", toString candidate.tenantId), ("codePrefix", candidate.codePrefix),
                ("lineUserId", lineUserId)]
            Prog.throw TenantInviteService.bindConflict
          else Prog.throw err) >>= f := by
  change Prog.sql _ _ = _
  congr 1
  funext r
  cases r <;> rfl

/-- In a broken transaction the next statement throws. -/
theorem pays_broken {scope' : Option Id} {q : Query}
    {f : q.Ans → Prog tenancy (Script tenancy Answer)} (broken : x.broken = true) :
    (prisma scope' q >>= f).Pays (engine S) (raceTerms S sha256Hex call) t x js db := by
  rw [prisma_bind]
  intro db' _
  refine ⟨trivial, fun _ => ?_⟩
  rw [exec_broken S scope' q db' broken]
  exact pays_fail

theorem updateTenant_ok {scope' : Option Id} {id : Id} {data : TenantPatch} {ws : List Row}
    {a : TenantProfile} (ran : updateTenant S scope' db id data = .ok (ws, a)) :
    ∃ t, db.tenant? scope' id = some t ∧ ws = [.tenant (data.apply t)] := by
  unfold updateTenant at ran
  split at ran
  · cases ran
  · rename_i t found
    split at ran
    · cases ran
    · split at ran
      · cases ran
      · cases ran
        exact ⟨t, found, rfl⟩

/-- The compare-and-set, the binding and the audit row. -/
theorem redeemPending_pays {candidate i₀ : TenantInvite} {slug : String} {auditId : Id}
    {now : Instant} {lineUserId : String} (known : db.invites.find? candidate.id = some i₀)
    (own : i₀.tenantId = candidate.tenantId) {p : Prog tenancy (Script tenancy Answer)}
    (tx : TenantInviteService.redeemPending candidate slug auditId now lineUserId = .tx p) :
    p.Pays (engine S) (raceTerms S sha256Hex call) t {} js db := by
  cases tx
  refine pays_prisma rfl fun db₁ ws count tr₁ others ran => ?_
  rcases updateMany_pending ran with ⟨rfl, rfl⟩ | ⟨i, rfl, rfl, found, pending⟩
  · exact pays_fail
  have found : db₁.invites.find? candidate.id = some i := found
  have id : i.id = candidate.id := Table.find?_key found
  have same : ∃ i, db₁.invites.find? candidate.id = some i ∧ i.tenantId = candidate.tenantId := by
    refine others.preserves (I := fun d : Db => ∃ i, d.invites.find? candidate.id = some i ∧
      i.tenantId = candidate.tenantId) ?_ ⟨i₀, known, own⟩
    rintro d ws ⟨j, stored, own⟩ settled -
    obtain ⟨j', stored', turns⟩ := Settled.turns settled stored
    exact ⟨j', stored', turns.same.2.trans own⟩
  have tenantId : i.tenantId = candidate.tenantId := by
    obtain ⟨i', found', own'⟩ := same
    rw [found'] at found
    cases found
    exact own'
  rw [← id] at found
  simp only [ne_eq, not_true_eq_false, if_false]
  rw [bindTenant_bind]
  refine pays_sql rfl ?_ ?_
  · intro db₂ ws profile tr₂ others ran
    obtain ⟨tenant, stored, rfl⟩ := updateTenant_ok ran
    have lock : Lock.invite i.id ∈ ([.invite ((redeemedPatch now lineUserId).apply i)] :
        List Row).flatMap (engine S).locks := by simp [engine, Row.locks]
    have settles : Settles db₂ [.invite ((redeemedPatch now lineUserId).apply i),
        .tenant (TenantPatch.apply { lineUserId := some lineUserId } tenant)] := by
      refine .redeem i tenant now lineUserId ((invite_held lock others).trans found) pending ?_
      rw [tenantId]
      exact (Option.filter_eq_some_iff.1 stored).1
    simp only
    rw [writeAudit_bind]
    exact pays_audit settles ⟨[], rfl⟩ fun y db₃ settles audited => pays_done settles audited
  · intro db₂ err y broken
    simp only
    split
    · rw [Prog.bind_assoc]
      exact pays_broken broken
    · exact pays_fail

/-- What the lookup of a code found. -/
theorem findFirst_ok {scope' : Option Id} {codePrefix codeHash : String} {ws : List Row}
    {i : TenantInvite} {company : Company}
    (ran : run S scope' db (.inviteFindFirst codePrefix codeHash) = .ok (ws, some (i, company))) :
    db.inviteByCode? scope' codePrefix codeHash = some i ∧
      db.companies.find? i.companyId = some company := by
  have found : ((db.inviteByCode? scope' codePrefix codeHash).bind fun i =>
      (db.companies.find? i.companyId).map fun c => (i, c)) = some (i, company) :=
    (Prod.mk.inj (Except.ok.inj ran)).2
  simpa [Option.bind_eq_some_iff] using found

/-- What `redeem` goes on with. -/
theorem redeemFound_stage {candidate : TenantInvite} {slug : String} {auditId : Id}
    {now now' : Instant} {lineUserId : String}
    (stored : db.invites.find? candidate.id = some candidate) :
    Stage sha256Hex (call t) db
      (TenantInviteService.redeemFound candidate slug auditId now now' lineUserId) := by
  have rest : Stage sha256Hex (call t) db
      (TenantInviteService.redeemFound.rest candidate slug auditId now now' lineUserId) := by
    unfold TenantInviteService.redeemFound.rest
    split
    · exact .done _
    · split
      · exact .sweep _
      · exact .redeem candidate slug auditId now' lineUserId candidate stored rfl
  unfold TenantInviteService.redeemFound
  split
  · split
    · exact .done _
    · exact rest
  · exact rest

/-- **Every transaction of a racing call** commits what it may. -/
theorem stage_pays (races : ∀ t, (call t).Races) {p : Prog tenancy (Script tenancy Answer)}
    (stage : Stage sha256Hex (call t) db (.tx p)) :
    p.Pays (engine S) (raceTerms S sha256Hex call) t {} js db := by
  generalize tx : Script.tx p = s at stage
  cases stage with
  | done r => cases tx
  | sweep candidate =>
    cases tx
    exact sweep_pays candidate
  | redeem candidate slug auditId now lineUserId i found own =>
    exact redeemPending_pays found own tx.symm
  | start =>
    have race := races t
    cases same : call t with
    | generate row ctx newId auditId now plaintext tenantId actorUserId =>
      rw [same] at race
      exact race.elim
    | updateTenant row ctx id input =>
      rw [same] at race
      exact race.elim
    | revoke row ctx auditId inviteId reason actorUserId =>
      rw [same] at tx
      cases tx
      exact revoke_pays row ctx auditId inviteId reason actorUserId
    | peek now code =>
      rw [same] at tx
      cases tx
      refine pays_prisma rfl fun db₁ ws candidate tr₁ _ ran => ?_
      obtain rfl : ws = [] := by cases ran; rfl
      clear ran
      cases candidate with
      | none => exact pays_lookup (.done _) rfl
      | some found =>
        simp only
        split
        · exact pays_lookup (.done _) rfl
        · split
          · exact pays_lookup (.sweep _) rfl
          · exact pays_lookup (.done _) rfl
    | redeem auditId now now' code lineUserId =>
      rw [same] at tx
      cases tx
      refine pays_prisma rfl fun db₁ ws candidate tr₁ _ ran => ?_
      obtain rfl : ws = [] := by cases ran; rfl
      cases candidate with
      | none => exact pays_lookup (.done _) rfl
      | some found =>
        obtain ⟨candidate, company⟩ := found
        have stored : db₁.invites.find? candidate.id = some candidate :=
          Table.find?_of_mem (List.mem_of_find?_eq_some (findFirst_ok ran).1)
        refine pays_lookup ?_ rfl
        exact redeemFound_stage stored

end transactions

/-! ## Any number of calls -/

/-- A LINE account that a commit gives to a tenant comes with an invite of this
tenant that the commit redeems for it. -/
def BindsByInvite (late early : Db) : Prop :=
  ∀ id, late.tenants.find? id ≠ early.tenants.find? id →
    ∃ i i' t, early.invites.find? i.id = some i ∧ i.status = .pending ∧ i.tenantId = id ∧
      late.invites.find? i.id = some i' ∧ i'.status = .redeemed ∧
      late.tenants.find? id = some t ∧ i'.redeemedByLineUserId = t.lineUserId

theorem Settled.binds {db : Db} {ws : List Row} (h : Settled db ws) :
    BindsByInvite (ws.foldl Row.apply db) db := by
  obtain ⟨base, settles, audited⟩ := h
  intro id changed
  rw [(audited.foldl db).2] at changed ⊢
  rw [(audited.foldl db).1]
  cases settles with
  | nothing => exact absurd rfl changed
  | close i status terminal found pending => exact absurd rfl changed
  | redeem i t now lineUserId found pending tenant =>
    have bound : ∀ id, (([.invite ((redeemedPatch now lineUserId).apply i),
        .tenant (TenantPatch.apply { lineUserId := some lineUserId } t)] : List Row).foldl
          Row.apply db).tenants.find? id =
        if id = t.id then some (TenantPatch.apply { lineUserId := some lineUserId } t)
        else db.tenants.find? id := fun id => Table.find?_put db.tenants _ id
    have turned : ∀ id, (([.invite ((redeemedPatch now lineUserId).apply i),
        .tenant (TenantPatch.apply { lineUserId := some lineUserId } t)] : List Row).foldl
          Row.apply db).invites.find? id =
        if id = i.id then some ((redeemedPatch now lineUserId).apply i)
        else db.invites.find? id := fun id => Table.find?_put db.invites _ id
    have own : id = t.id := by
      by_contra other
      rw [bound, if_neg other] at changed
      exact changed rfl
    have owner : t.id = i.tenantId := Table.find?_key tenant
    refine ⟨i, _, _, found, pending, owner.symm.trans own.symm, (turned i.id).trans (if_pos rfl),
      rfl, (bound id).trans (if_pos own), rfl⟩

theorem Settled.marked {db : Db} {ws : List Row} (h : Settled db ws)
    (marked : ∀ i ∈ db.invites.rows, Marked i) :
    ∀ i ∈ (ws.foldl Row.apply db).invites.rows, Marked i := by
  have rows : ∀ i ∈ (ws.foldl Row.apply db).invites.rows, ∃ j ∈ db.invites.rows, Turns j i := by
    intro i hi
    obtain ⟨base, settles, audited⟩ := h
    rw [(audited.foldl db).1] at hi
    cases settles with
    | nothing => exact ⟨i, hi, .stays⟩
    | close j status terminal found pending =>
      rcases Table.mem_put.mp hi with rfl | ⟨hi, -⟩
      · exact ⟨j, Table.find?_mem found, .closes status terminal pending⟩
      · exact ⟨i, hi, .stays⟩
    | redeem j t now lineUserId found pending tenant =>
      rcases Table.mem_put.mp hi with rfl | ⟨hi, -⟩
      · exact ⟨j, Table.find?_mem found, .redeemed now lineUserId pending⟩
      · exact ⟨i, hi, .stays⟩
  intro i hi
  obtain ⟨j, hj, turns⟩ := rows i hi
  exact turns.marked (marked j hj)

/-- What all commits in between do to one invite. -/
theorem turns_since {S : Server} {held : List Lock} {db db' : Db}
    (h : Interferes (engine S) Settled held db db') {id : Id} {i : TenantInvite}
    (found : db.invites.find? id = some i) :
    ∃ i', db'.invites.find? id = some i' ∧ Turns i i' := by
  refine h.preserves (I := fun d : Db => ∃ i', d.invites.find? id = some i' ∧ Turns i i') ?_
    ⟨i, found, .stays⟩
  rintro d ws ⟨i', found', turns⟩ settled -
  obtain ⟨i'', found'', turns'⟩ := Settled.turns settled found'
  exact ⟨i'', found'', turns.trans turns'⟩

/-- **Single use.** In every interleaving of the transactions of `redeem`,
`revoke` and `peek` calls: an invite changes once at most, from `pending`; it
is `redeemed` in a committed state just if both marks of a redemption are set,
and for one LINE user only; and a tenant is bound by redeeming an invite. -/
theorem invites_single_use {ι : Type} [Fintype ι] [DecidableEq ι] (S : Server)
    (sha256Hex : String → String) (call : ι → InviteCall) (races : ∀ t, (call t).Races) (db : Db)
    (marked : ∀ i ∈ db.invites.rows, Marked i) (ms : List (Move ι))
    (c : Config tenancy ι (Script tenancy Answer))
    (run : (Config.startScripts db fun t => (call t).script sha256Hex).moves (engine S) ms =
      some c) :
    ((c.db :: c.past).Pairwise fun late early => ∀ id i, early.invites.find? id = some i →
      ∃ i', late.invites.find? id = some i' ∧ (i' = i ∨ (i.status = .pending ∧
        (i'.status = .redeemed ∨ i'.status = .revoked ∨ i'.status = .expired)))) ∧
    (∀ d ∈ c.db :: c.past, ∀ i ∈ d.invites.rows,
      (i.status = .redeemed ↔ i.redeemedAt.isSome ∧ i.redeemedByLineUserId.isSome)) ∧
    (∀ d ∈ c.db :: c.past, ∀ d' ∈ c.db :: c.past, ∀ id i i', d.invites.find? id = some i →
      d'.invites.find? id = some i' → i.status = .redeemed → i'.status = .redeemed →
      i.redeemedByLineUserId = i'.redeemedByLineUserId) ∧
    (c.db :: c.past).IsChain BindsByInvite := by
  have paid : Paid (engine S) (raceTerms S sha256Hex call) db c := by
    refine Paid.run_scripts (scriptTerms_leaves _ _ _).hands
      (fun _ _ _ _ _ stage settled => stage.stays settled)
      (fun t p js db stage => stage_pays races stage) (fun t s begun => ?_) ms run
    cases begun
    exact ⟨⟨[], .nothing, [], rfl⟩, .start⟩
  refine ⟨?_, ?_, ?_, ?_⟩
  · refine paid.ordered.imp fun since id i found => ?_
    obtain ⟨i', found', turns⟩ := turns_since since found
    refine ⟨i', found', turns.status.imp_right fun ⟨pending, terminal⟩ => ⟨pending, ?_⟩⟩
    cases status : i'.status with
    | pending => exact absurd status terminal
    | redeemed => exact .inl rfl
    | revoked => exact .inr (.inl rfl)
    | expired => exact .inr (.inr rfl)
  · intro d hd
    exact (paid.reached d hd).preserves (I := fun d : Db => ∀ i ∈ d.invites.rows, Marked i)
      (fun d ws marked settled _ => Settled.marked settled marked) marked
  · intro d hd d' hd' id i i' found found' redeemed redeemed'
    obtain ⟨j, now, turns⟩ := turns_since (paid.since hd) found
    obtain ⟨j', now', turns'⟩ := turns_since (paid.since hd') found'
    rw [now] at now'
    cases now'
    rw [← turns.final (by simp [redeemed]), ← turns'.final (by simp [redeemed'])]
  · refine paid.chained.imp ?_
    rintro late early ⟨ws, settled, rfl⟩
    exact Settled.binds settled

namespace Demo

def server : Server where
  report columns := .columns columns
  inet _ := true

/-- The digests of the codes in use. -/
def sha256Hex (code : String) : String :=
  if code = "K7M3XQ2P" then "68129fc6edd54fc644b595e4e724f5be7f023926f12f15c3409a86192b07abb1"
  else if code = "9TBD4CWR" then "23a16c4b74aed98e5cf5516193276fffd16d1016fc2dc0e94df517e93b1831d9"
  else ""

/-- A tenant without a LINE account, and an invite for them. -/
def invited : Db where
  companies := ⟨[⟨1, "siam-court", none⟩], by decide⟩
  users := ⟨[⟨7, 1⟩], by decide⟩
  tenants := ⟨[⟨⟨21, 1, none, .active⟩, "Somchai", none⟩], by decide⟩
  invites := ⟨[⟨31, 1, 21, sha256Hex "K7M3XQ2P", "K7M3", .pending, 1000, none, none, 7⟩], by decide⟩

/-- Two LINE accounts with one code, and an admin. -/
def racers (t : Fin 3) : InviteCall :=
  match t with
  | 0 => .redeem 90 10 10 "K7M3XQ2P" "U1"
  | 1 => .redeem 91 10 10 "K7M3XQ2P" "U2"
  | 2 => .revoke ⟨92, 1, some 7, "REVOKE", "tenant-invite", some "31", [], none, none⟩ ⟨1⟩ 93 31
    none 7

/-- All look the invite up while it is pending; the account of request 0 wins. -/
def tiedRedeems : List (Move (Fin 3)) :=
  [.next 0, .next 1, .next 2] ++ [0, 0, 1, 1, 2].map (fun t => .act (.advance t)) ++
    [.next 0, .next 1] ++ [0, 0, 0, 0, 1, 1, 2, 2].map fun t => .act (.advance t)

def inviteAnswers (c : Config tenancy (Fin 3) (Script tenancy Answer)) :
    List (Option (Except ApiError Answer)) :=
  [(0 : Fin 3), 1, 2].map fun t => (c.txs t).answer?

end Demo

/-- Of two accounts and an admin who race for an invite, one gets it. -/
theorem invites_single_use_tied :
    (((Config.startScripts Demo.invited fun t =>
        (Demo.racers t).script Demo.sha256Hex).moves (engine Demo.server) Demo.tiedRedeems).map
      fun c => (Demo.inviteAnswers c, c.db.tenants.rows.map fun t => t.lineUserId)) =
      some ([some (.ok (.redeemed ⟨21, 1, "siam-court", 10⟩)),
        some (.error TenantInviteService.raceLost),
        some (.error (.http 410 "TenantInviteNotPending"
          "Invite transitioned out of pending before this revoke could apply"))],
        [some "U1"]) ∧
    ∀ c, (Config.startScripts Demo.invited fun t =>
        (Demo.racers t).script Demo.sha256Hex).moves (engine Demo.server) Demo.tiedRedeems =
          some c →
      (c.db :: c.past).IsChain BindsByInvite := by
  refine ⟨by decide +kernel, fun c run => ?_⟩
  exact (invites_single_use Demo.server Demo.sha256Hex Demo.racers
    (fun | 0 | 1 | 2 => trivial) Demo.invited (by decide) Demo.tiedRedeems c run).2.2.2

end Dormitory.Tenancy
