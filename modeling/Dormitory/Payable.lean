import Dormitory.Invoicing
import Dormitory.QrPayload

/-!
# Payable bills

An issued invoice should have something to pay, and its QR code should ask for
exactly that. Neither creation path checks the sign of its total, and the batch
does not reject the negative quantities that `zod/invoice.ts` says it rejects.
-/

namespace Dormitory
open Txn

/-- The stored payload reads as a PromptPay code for the whole total. -/
def Invoice.Payable (i : Invoice) : Prop :=
  0 < i.total.units ∧ ∃ ref merchant crc, i.promptPayRef = some ref ∧
    ∀ fields, Tlv.Reads PromptPay.emv ref.toList fields ↔
      fields = PromptPay.payloadFields merchant (some i.total) crc

/-- What issuing a draft relies on. -/
structure Invoice.Collectable (i : Invoice) : Prop where
  draft : i.status = .draft → 0 < i.total.units
  issued : i.status = .issued → i.Payable

def Db.Collectable (db : Db) : Prop := ∀ i ∈ db.invoices.rows, i.Collectable

/-- The exact total of some lines. -/
def linesExact (ds : List ItemData) : Int :=
  (ds.map fun d => lineExact d.quantity d.unitPrice).sum

/-- Where the creation paths do what the schema says. A single invoice that nothing
refuses comes to more than zero. So do those of a batch whose amounts all fit, and no
fee of it has a negative quantity. -/
def InvoicingRequest.Charges (db : Db) (r : InvoicingRequest) : Prop :=
  match r.call with
  | .create newId _ input =>
    input.Insertable r.ctx newId ⟨fun _ => db, r.queueUp⟩ → input.Fits →
      0 < (input.items.map fun it => lineExact it.quantity it.unitPrice).sum
  | .createBatch newId now input =>
    (∀ d ∈ InvoiceService.planned r.ctx newId now input ⟨fun _ => db, r.queueUp⟩,
        d.AmountsFit) →
      (∀ add ∈ input.additionalItems, 0 ≤ add.quantity.coeff) ∧
        ∀ d ∈ InvoiceService.planned r.ctx newId now input ⟨fun _ => db, r.queueUp⟩,
          0 < linesExact d.items
  | .issue _ _ | .void _ => True

/-- A batch with a negative quantity throws, and writes nothing. -/
def InvoicingRequest.RejectsNegative (S : Server) (db : Db) (r : InvoicingRequest) : Prop :=
  match r.call with
  | .createBatch newId now input =>
    (∃ add ∈ input.additionalItems, add.quantity.coeff < 0) →
      (Prog.serve (engine S) r.queueUp db
        (InvoiceService.createBatch r.ctx newId now input)).response = none ∧ r.rows S db = []
  | .create _ _ _ | .issue _ _ | .void _ => True

/-! ## One call -/

/-- The stored total of a priced invoice. -/
theorem InvoiceData.Priced.total_units {d : InvoiceData} (priced : d.Priced) {r : Invoice}
    (makes : d.Makes r) : r.total.units = linesExact d.items := by
  have lines := stored_lines makes.items
  have all := priced.items
  rw [(priced.exact makes).total, linesExact]
  congr 1
  clear makes
  generalize d.items = ds at lines all
  generalize r.items = is at lines
  induction lines with
  | nil => rfl
  | @cons d' it ds is stored _ ih =>
    rw [List.map_cons, List.map_cons, ((all d' (by simp)).stored stored).2.2,
      ih fun d hd => all d (by simp [hd])]

/-- An issued draft asks for its total. -/
theorem issuePatch_payable {now : Instant} {company : Option Company} {i : Invoice}
    {patch : InvoicePatch} (h : InvoiceService.issuePatch now company i.total = some patch)
    (positive : 0 < i.total.units) : (patch.apply i).Payable := by
  simp only [InvoiceService.issuePatch, Option.bind_eq_bind, Option.bind_eq_some_iff] at h
  obtain ⟨company, -, promptPayId, -, h⟩ := h
  split at h
  · cases h
  split at h
  · rename_i payload generated
    cases h
    obtain ⟨norm, accepted⟩ : ∃ norm, PromptPay.normalizePromptPayId promptPayId = .ok norm := by
      cases result : PromptPay.normalizePromptPayId promptPayId with
      | ok norm => exact ⟨norm, rfl⟩
      | error message =>
        simp [PromptPay.generatePromptPayPayload, result, Bind.bind, Except.bind] at generated
    obtain ⟨body, merchant, writes, -, reads⟩ := PromptPay.generatePromptPayPayload_reads accepted
      (some i.total) (by rintro a ⟨⟩; exact positive)
    have same : payload = body ++ PromptPay.crc16Ccitt body :=
      Except.ok.inj (generated.symm.trans writes)
    exact ⟨positive, payload, merchant, _, rfl, same ▸ reads.iff_eq⟩
  · cases h

/-- What a call writes can be collected, if its lines come to something. -/
theorem Wrote.collectable {S : Server} {db : Db} {ctx : Ctx} {queueUp : Nat → Bool}
    {call : InvoicingCall} {i : Invoice} (wrote : Wrote S db ctx queueUp call i)
    (accepted : InvoicingRequest.Accepted ⟨ctx, queueUp, call⟩)
    (charges : InvoicingRequest.Charges db ⟨ctx, queueUp, call⟩) (before : db.Collectable) :
    i.Collectable := by
  cases wrote with
  | @created newId now input row answer =>
    obtain ⟨contract, found, inserted⟩ := (InvoiceService.create_ok_iff S ctx newId now input
      ⟨fun _ => db, queueUp⟩ i).mp answer
    obtain ⟨r, same, makes⟩ := S.createInvoice_row inserted
    obtain rfl : i = r := (Prod.mk.inj same).2
    have draft : i.status = .draft := makes.status
    obtain ⟨-, exact, bills, -⟩ := InvoiceService.create_stores S ctx newId now accepted _ answer
    have ready := InvoiceService.insertable_of_inserted found inserted
    have fits := (InvoiceService.create_returns_iff S ctx newId now accepted _ ready).mp ⟨i, answer⟩
    have positive : 0 < i.total.units := by
      rw [exact.total, InvoiceService.sum_bills bills]
      exact charges ready fits
    exact ⟨fun _ => positive, fun issued => absurd (draft.symm.trans issued) (by decide)⟩
  | @planned newId now input d db' row plan made fits =>
    obtain ⟨r, same, makes⟩ := S.createInvoice_row made
    obtain rfl : i = r := (Prod.mk.inj same).2
    have priced := InvoiceService.planned_priced accepted plan
    have positive : 0 < i.total.units := by
      rw [priced.total_units makes]
      exact (charges fits).2 d plan
    have draft : i.status = .draft := makes.status.trans (InvoiceService.planned_draft plan)
    exact ⟨fun _ => positive, fun issued => absurd (draft.symm.trans issued) (by decide)⟩
  | @issued now id i patch stored draft patched =>
    have payable := issuePatch_payable patched ((before i stored).draft draft)
    exact ⟨fun _ => payable.1, fun _ => payable⟩
  | @voided id i stored =>
    have gone : (InvoicePatch.apply { status := .void } i).status = .void := rfl
    exact ⟨fun draft => absurd (gone.symm.trans draft) (by decide),
      fun issued => absurd (gone.symm.trans issued) (by decide)⟩

theorem InvoicingRequest.commit_collectable (S : Server) {db : Db} {r : InvoicingRequest}
    (before : db.Collectable) (sound : r.Accepted ∧ r.Charges db) :
    (r.commit S db).Collectable := by
  intro i hi
  rcases mem_commit hi with old | wrote
  · exact before i old
  · exact wrote.collectable sound.1 sound.2 before

/-! ## Every run -/

/-- **Every issued bill is payable**, and every negative batch is refused, in the
runs whose new invoices come to more than zero and whose batches have no negative
quantity, calls that are refused aside. -/
theorem issued_bills_payable (S : Server) (db : Db) (empty : db.invoices.rows = [])
    (rs : List InvoicingRequest)
    (sound : EachRequest S (fun db r => r.Accepted ∧ r.Charges db) db rs) :
    (∀ i ∈ (invoiced S db rs).invoices.rows, i.status = .issued → i.Payable) ∧
      EachRequest S (InvoicingRequest.RejectsNegative S) db rs := by
  have start : db.Collectable := by
    intro i hi
    rw [empty] at hi
    cases hi
  constructor
  · intro i hi issued
    exact (invoiced_invariant S (fun _ _ => InvoicingRequest.commit_collectable S) start sound i
      hi).issued issued
  · apply sound.mono
    intro db r h
    obtain ⟨ctx, queueUp, call⟩ := r
    cases call with
    | createBatch newId now input =>
      rintro ⟨add, hadd, negative⟩
      by_cases fits : ∀ d ∈ InvoiceService.planned ctx newId now input ⟨fun _ => db, queueUp⟩,
          d.AmountsFit
      · exact absurd ((h.2 fits).1 add hadd) (by omega)
      · simp only [not_forall, exists_prop] at fits
        obtain ⟨err, thrown⟩ := InvoiceService.createBatch_overflow S ctx newId now input _ fits
        have answer : (Prog.serve (engine S) queueUp db
            (InvoiceService.createBatch ctx newId now input)).answer = .error err := thrown
        simp [InvoicingRequest.rows, Ending.response, Ending.written, answer]
    | create | issue | void => trivial

namespace Demo

/-- Two rooms, in a company that can be paid. -/
def payableRooms : Db :=
  { twoRooms with companies := Table.put default ⟨1, "acme", some "0812345678"⟩ }

/-- One line of the given quantity, at 100.00. -/
def oneLine (quantity : Decimal) : CreateInvoiceInput where
  contractId := 101
  period := april
  dueDate := 0
  items := [⟨.other, "ค่าบริการ", quantity, ⟨10000, 2⟩, none, none⟩]

theorem oneLine_accepted {quantity : Decimal} (digits : quantity.Digits 10 2) :
    (oneLine quantity).Accepted where
  items := by
    intro it hit
    obtain rfl := List.mem_singleton.mp hit
    exact ⟨(by decide : 1 ≤ "ค่าบริการ".length ∧ "ค่าบริการ".length ≤ 255), digits,
      (by decide : Decimal.Digits 6 4 ⟨10000, 2⟩)⟩
  nonempty := Nat.le_refl 1
  array := (by decide : 1 < 2 ^ 32)

/-- A fee with a negative quantity, larger than any rent. -/
def refund : BatchGenerateInvoicesInput :=
  ⟨april, none, 5, [⟨.other, "คืนเงิน", ⟨-100, 0⟩, ⟨10000, 2⟩⟩]⟩

theorem refund_accepted : refund.Accepted where
  dueDayOfMonth := by decide
  additionalItems := by
    intro add hadd
    obtain rfl := List.mem_singleton.mp hadd
    exact ⟨by decide, by decide, by decide, by decide⟩
  few := by decide

def asks (calls : List InvoicingCall) : List InvoicingRequest :=
  calls.map fun call => ⟨ctx, fun _ => true, call⟩

end Demo

/-- One unit of service is billed, issued and asked for. -/
theorem issued_bills_payable_service :
    let db := invoiced Demo.server Demo.payableRooms
      (Demo.asks [.create 9 0 (Demo.oneLine ⟨1, 0⟩), .issue 0 9])
    (∃ i ∈ db.invoices.rows, i.status = .issued) ∧
      ∀ i ∈ db.invoices.rows, i.status = .issued → i.Payable := by
  have positive : 0 < ((Demo.oneLine ⟨1, 0⟩).items.map fun it =>
      lineExact it.quantity it.unitPrice).sum := by decide +kernel
  have sound : EachRequest Demo.server (fun db r => r.Accepted ∧ r.Charges db) Demo.payableRooms
      (Demo.asks [.create 9 0 (Demo.oneLine ⟨1, 0⟩), .issue 0 9]) :=
    ⟨⟨Demo.oneLine_accepted (by decide), fun _ _ => positive⟩, ⟨trivial, trivial⟩, trivial⟩
  exact ⟨by decide +kernel, (issued_bills_payable Demo.server Demo.payableRooms rfl _ sound).1⟩

/-- A free bill is issued, and so are the bills of a batch with a negative
quantity, whose totals are below zero. -/
theorem unpayable_bills_issued :
    (∃ rs, (∀ r ∈ rs, r.Accepted) ∧
      ∃ i ∈ (invoiced Demo.server Demo.payableRooms rs).invoices.rows,
        i.status = .issued ∧ ¬ i.Payable) ∧
    ∃ r : InvoicingRequest, r.Accepted ∧
      ¬ r.RejectsNegative Demo.server Demo.payableRooms := by
  constructor
  · refine ⟨Demo.asks [.create 9 0 (Demo.oneLine ⟨0, 0⟩), .issue 0 9], ?_, ?_⟩
    · intro r hr
      simp only [Demo.asks, List.map_cons, List.map_nil, List.mem_cons, List.not_mem_nil,
        or_false] at hr
      rcases hr with rfl | rfl
      · exact Demo.oneLine_accepted (by decide)
      · trivial
    · have issued : ∃ i ∈ (invoiced Demo.server Demo.payableRooms
          (Demo.asks [.create 9 0 (Demo.oneLine ⟨0, 0⟩), .issue 0 9])).invoices.rows,
          i.status = .issued ∧ i.total.units = 0 := by decide +kernel
      obtain ⟨i, hi, status, free⟩ := issued
      exact ⟨i, hi, status, fun payable => absurd payable.1 (by omega)⟩
  · refine ⟨⟨Demo.ctx, fun _ => true, .createBatch (1000 + ·) 0 Demo.refund⟩,
      Demo.refund_accepted, fun rejects => ?_⟩
    have written : InvoicingRequest.rows Demo.server Demo.payableRooms
        ⟨Demo.ctx, fun _ => true, .createBatch (1000 + ·) 0 Demo.refund⟩ ≠ [] := by decide +kernel
    exact written (rejects ⟨_, List.mem_singleton.mpr rfl, by decide⟩).2

end Dormitory
