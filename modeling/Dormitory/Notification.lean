import Dormitory.Prisma

/-!
# NotificationService

Every public method ends in `enqueue`, which swallows the queue's error: a
caller never learns whether its job was added. Two jobs with one BullMQ job id
count as two here, so the queue of the model holds at least the real jobs.
-/

namespace Dormitory.NotificationService
open Txn

def enqueue (payload : Job) : Call Unit :=
  (Prog.send payload Prog.uncaught).attempt fun _ => Prog.ret ()

def enqueueInvoiceIssued (companyId : Id) (companySlug : String) (tenantId invoiceId : Id)
    (period : Period) (totalAmount dueDate : String) : Call Unit :=
  enqueue (.invoice_issued companyId companySlug tenantId invoiceId period totalAmount dueDate)

def enqueuePaymentApproved (companyId : Id) (companySlug : String) (tenantId invoiceId : Id)
    (period : Period) : Call Unit :=
  enqueue (.payment_approved companyId companySlug tenantId invoiceId period)

def enqueuePaymentRejected (companyId : Id) (companySlug : String) (tenantId invoiceId : Id)
    (period : Period) (reason : String) : Call Unit :=
  enqueue (.payment_rejected companyId companySlug tenantId invoiceId period reason)

/-- One job per recipient, each with the number of them. -/
def enqueueAnnouncementBroadcast (announcementId companyId : Id) (companySlug title body : String)
    (tenantIds : List Id) : Call Unit :=
  tenantIds.foldr (fun tenantId rest => do
    enqueue (.announcement companyId companySlug tenantId announcementId title body
      tenantIds.length)
    rest) (pure ())

theorem enqueue_eq (j : Job) : enqueue j = Prog.send j fun _ => Prog.ret () := by
  unfold enqueue
  simp only [Prog.attempt]
  congr 1
  funext r
  cases r <;> rfl

end Dormitory.NotificationService
