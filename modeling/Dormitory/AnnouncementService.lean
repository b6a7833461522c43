import Dormitory.Notification

/-!
# AnnouncementService

`createBroadcast` of `modules/announcement/announcement.service.ts`.
-/

namespace Dormitory

structure CreateAnnouncementInput where
  title : String
  body : String
  target : AnnouncementTarget
  scheduledAt : Option Instant
  sendNow : Bool
  deriving DecidableEq

namespace AnnouncementService
open Txn

def unsupportedAudience : Failure :=
  .http .badRequest "UnsupportedAudience"
    "v1 only supports target.audience='all'. Targeted broadcasts (property/floor/unit/tenant) land in Phase 1."

def unsupportedSchedule : Failure :=
  .http .badRequest "UnsupportedSchedule"
    "v1 only supports sendNow=true. Scheduled broadcasts land in Phase 1."

def noLineChannel : Failure :=
  .http .badRequest "NoLineChannel"
    "หอพักนี้ยังไม่ได้เชื่อม LINE Official Account — กรุณาตั้งค่า LINE OA ในหน้า \"ตั้งค่า\" ก่อนส่งประกาศ"

def noRecipients : Failure :=
  .http .badRequest "NoRecipients"
    "ยังไม่มีผู้เช่าที่ผูกบัญชี LINE — ให้ผู้เช่าเปิดลิงก์ LIFF เพื่อผูกบัญชี LINE ก่อน แล้วค่อยส่งประกาศ"

def noCompany : Failure :=
  .http .internal "" "No company visible in current tenant context — RLS misconfigured?"

def sendingRow (ctx : Ctx) (newId : Id) (input : CreateAnnouncementInput)
    (idempotencyKey : String) (actorUserId : Id) : Announcement where
  id := newId
  companyId := ctx.companyId
  title := input.title
  body := input.body
  target := input.target
  status := .sending
  scheduledAt := none
  sentAt := none
  deliveredCount := 0
  failedCount := 0
  createdByUserId := actorUserId
  idempotencyKey := idempotencyKey

/-- The INSERT. Its error is caught without a savepoint, so the lookup that
follows runs in a broken transaction. The flag says that the row is new. -/
def insertOrFind (ctx : Ctx) (row : Announcement) : Call (Announcement × Bool) :=
  Prog.attempt
    (do
      let created ← prisma ctx (.announcementCreate row)
      pure (created, true))
    fun err =>
      match err with
      | .prisma "P2002" _ => do
        let found ← prisma ctx (.announcementFindByKey row.idempotencyKey)
        match found with
        | some found => pure (found, false)
        | none => Prog.throw err
      | _ => Prog.throw err

def createBroadcast (ctx : Ctx) (newId : Id) (input : CreateAnnouncementInput)
    (idempotencyKey : String) (actorUserId : Id) : Call Announcement := do
  let existing ← prisma ctx (.announcementFindByKey idempotencyKey)
  match existing with
  | some existing => pure existing
  | none =>
    if input.target ≠ .all then Prog.throw unsupportedAudience
    else if input.sendNow = false then Prog.throw unsupportedSchedule
    else
      let channel ← prisma ctx .channelFindFirst
      if channel.isNone then Prog.throw noLineChannel
      else
        let recipients ← prisma ctx .tenantFindBound
        let tenantIds := recipients.map Tenant.id
        if tenantIds.isEmpty then Prog.throw noRecipients
        else
          let company ← prisma ctx .companyFindFirst
          match company with
          | none => Prog.throw noCompany
          | some company =>
            let (created, fresh) ← insertOrFind ctx
              (sendingRow ctx newId input idempotencyKey actorUserId)
            if fresh then
              NotificationService.enqueueAnnouncementBroadcast created.id ctx.companyId
                company.slug input.title input.body tenantIds
              pure created
            else pure created

end AnnouncementService
end Dormitory
