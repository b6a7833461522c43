import Dormitory.HttpApi
import Dormitory.Payable

/-!
# Who a bill is paid to

The QR code of a bill names an account. It is written once, when an admin issues the
bill, and names the account that the company has set, which only an owner can set.
-/

namespace Dormitory
open Txn Rbac Premises PromptPay

/-- `i'` is the bill `i`, for the same money and with the same code. -/
structure Invoice.SameBill (i i' : Invoice) : Prop where
  id : i'.id = i.id
  companyId : i'.companyId = i.companyId
  total : i'.total = i.total
  promptPayRef : i'.promptPayRef = i.promptPayRef

namespace Invoice

theorem SameBill.refl (i : Invoice) : i.SameBill i := ⟨rfl, rfl, rfl, rfl⟩

theorem SameBill.trans {i j k : Invoice} (h : i.SameBill j) (h' : j.SameBill k) :
    i.SameBill k where
  id := h'.id.trans h.id
  companyId := h'.companyId.trans h.companyId
  total := h'.total.trans h.total
  promptPayRef := h'.promptPayRef.trans h.promptPayRef

/-- The code of the bill is for its total and for the account. -/
def PaidTo (i : Invoice) (promptPayId : String) : Prop :=
  ∃ ref, i.promptPayRef = some ref ∧
    generatePromptPayPayload promptPayId (some i.total.toDecimal) = .ok ref

/-- What a scanner reads in the code: the account and the total. -/
def Scans (i : Invoice) (promptPayId : String) : Prop :=
  ∃ ref norm merchant crc, i.promptPayRef = some ref ∧
    normalizePromptPayId promptPayId = .ok norm ∧
    (∀ fields, Tlv.Reads emv ref.toList fields ↔
      fields = payloadFields merchant (some i.total) crc) ∧
    ∀ fields, Tlv.Reads emv merchant.toList fields ↔ fields = merchantFields norm

theorem PaidTo.scans {i : Invoice} {promptPayId : String} (paid : i.PaidTo promptPayId)
    (positive : 0 < i.total.units) : i.Scans promptPayId := by
  obtain ⟨ref, coded, generated⟩ := paid
  obtain ⟨norm, accepted⟩ : ∃ norm, normalizePromptPayId promptPayId = .ok norm := by
    cases result : normalizePromptPayId promptPayId with
    | ok norm => exact ⟨norm, rfl⟩
    | error message =>
      simp [generatePromptPayPayload, result, Bind.bind, Except.bind] at generated
  have total : ∀ a ∈ some i.total, 0 < a.units := by
    intro a ha
    rw [← Option.some.inj ha]
    exact positive
  obtain ⟨body, merchant, writes, account, reads⟩ :=
    generatePromptPayPayload_reads accepted (some i.total) total
  obtain rfl : ref = body ++ crc16Ccitt body := Except.ok.inj (generated.symm.trans writes)
  exact ⟨_, norm, merchant, _, coded, accepted, reads.iff_eq, account.iff_eq⟩

end Invoice

/-- The database has the bill, as it is but for its status and dates. -/
def Db.Has (db : Db) (i : Invoice) : Prop := ∃ old ∈ db.invoices.rows, old.SameBill i

/-- The database has the company of the bill, whose account the bill is for. -/
def Db.Pays (db : Db) (i : Invoice) (promptPayId : String) : Prop :=
  ∃ company ∈ db.companies.rows, company.id = i.companyId ∧
    company.promptPayId = some promptPayId ∧ i.PaidTo promptPayId

theorem Db.Has.of_mem {db : Db} {i : Invoice} (stored : i ∈ db.invoices.rows) : db.Has i :=
  ⟨i, stored, .refl i⟩

/-! ## One call -/

section calls
variable {S : Server} {db : Db} {i : Invoice} {ref : String} {ctx : Ctx} {queueUp : Nat → Bool}

theorem createInvoice_uncoded {d : InvoiceData} {ws : List Row} {r : Invoice}
    (ran : S.createInvoice d db = .ok (ws, r)) : r.promptPayRef = none := by
  unfold Server.createInvoice at ran
  split at ran
  · split at ran
    · cases ran
    split at ran
    · cases ran
    split at ran
    · split at ran
      · cases ran
        rfl
      · cases ran
    · cases ran
  · cases ran

/-- A patch that sets no code. -/
theorem InvoicePatch.sameBill {d : InvoicePatch} (uncoded : d.promptPayRef = none) (i : Invoice) :
    i.SameBill (d.apply i) := by
  refine ⟨rfl, rfl, rfl, ?_⟩
  simp only [InvoicePatch.apply, uncoded]
  rfl

theorem issuePatch_pays {now : Instant} {company : Company} {patch : InvoicePatch}
    (patched : InvoiceService.issuePatch now (some company) i.total = some patch) :
    ∃ promptPayId, company.promptPayId = some promptPayId ∧
      (patch.apply i).PaidTo promptPayId := by
  simp only [InvoiceService.issuePatch, Option.bind_eq_bind, Option.bind_some,
    Option.bind_eq_some_iff] at patched
  obtain ⟨promptPayId, set, patched⟩ := patched
  split at patched
  · cases patched
  split at patched
  · rename_i payload generated
    cases patched
    exact ⟨promptPayId, set, payload, rfl, generated⟩
  · cases patched

/-- A bill after an invoicing call is one from before it, or the call issued it for the
account of its company. -/
theorem InvoicingRequest.bill_step {call : InvoicingCall} (coded : i.promptPayRef = some ref)
    (stored : i ∈ (InvoicingRequest.commit S db ⟨ctx, queueUp, call⟩).invoices.rows) :
    db.Has i ∨ ∃ now promptPayId, call = .issue now i.id ∧ i.companyId = ctx.companyId ∧
      db.Pays i promptPayId := by
  rcases InvoicingRequest.mem_commit stored with old | wrote
  · exact .inl (.of_mem old)
  cases call with
  | create newId now input =>
    cases wrote with
    | created answer =>
      obtain ⟨contract, -, inserted⟩ := (InvoiceService.create_ok_iff S ctx newId now input
        ⟨fun _ => db, queueUp⟩ i).mp answer
      cases coded.symm.trans (createInvoice_uncoded inserted)
  | createBatch newId now input =>
    cases wrote with
    | planned plan made => cases coded.symm.trans (createInvoice_uncoded made)
  | void id =>
    cases wrote with
    | voided old => exact .inl ⟨_, old, InvoicePatch.sameBill rfl _⟩
  | issue now id =>
    clear wrote
    simp only [commit, rows, InvoiceService.issue_written, InvoiceService.issueRows] at stored
    split at stored
    case h_2 => exact .inl (.of_mem stored)
    rename_i draft found
    obtain ⟨there, mine⟩ := Db.invoice?_some.mp found
    split at stored
    · split at stored
      · rename_i patch patched
        rcases Table.mem_put.mp stored with rfl | ⟨old, -⟩
        · cases known : db.company? ctx.companyId ctx.companyId with
          | none =>
            rw [known] at patched
            cases patched
          | some company =>
            rw [known] at patched
            obtain ⟨promptPayId, set, paid⟩ := issuePatch_pays patched
            obtain ⟨listed, -⟩ := Option.filter_eq_some_iff.mp known
            have named : company.id = ctx.companyId := Table.find?_key listed
            refine .inr ⟨now, promptPayId, ?_, mine, company, Table.find?_mem listed,
              named.trans mine.symm, set, paid⟩
            rw [← Table.find?_key there]
            rfl
        · exact .inl (.of_mem old)
      · exact .inl (.of_mem stored)
    · exact .inl (.of_mem stored)

/-- A decision on a payment leaves every bill what it was. -/
theorem BillingCall.decision_has {call : BillingCall}
    (decides : (∃ now id user, call = .confirm now id user) ∨ ∃ id reason, call = .reject id reason)
    (stored : i ∈ (call.commit S queueUp ctx db).invoices.rows) : db.Has i := by
  rw [BillingCall.commit_eq] at stored
  rcases decides with ⟨now, id, user, rfl⟩ | ⟨id, reason, rfl⟩
  · simp only [BillingCall.rows, PaymentService.confirmRows] at stored
    split at stored
    · rename_i p decided
      rw [List.foldl_cons] at stored
      rcases PaymentService.rollupRows_cases ctx.companyId (Row.apply db (.payment p)) p.invoiceId
        with none | ⟨old, next, found, -, -, one⟩
      · rw [none] at stored
        exact .of_mem stored
      · rw [one] at stored
        rcases Table.mem_put.mp stored with rfl | ⟨before, -⟩
        · exact ⟨old, Table.find?_mem (Db.invoice?_some.mp found).1, InvoicePatch.sameBill rfl old⟩
        · exact .of_mem before
    · exact .of_mem stored
  · simp only [BillingCall.rows, PaymentService.rejectRows] at stored
    split at stored
    · exact .of_mem stored
    · exact .of_mem stored

end calls

namespace Premises
variable {S : Server} {P : Pgcrypto} {c : Id} {s : Dorm} {i : Invoice}

theorem run_has {q : Query} {ws : List Row} {a : q.Ans} (of : q.Of c)
    (ran : run S P c s q = .ok (ws, a))
    (stored : i ∈ (ws.foldl Row.apply s).db.invoices.rows) : s.db.Has i := by
  by_cases bill : q.Shelved .invoices
  case neg =>
    have same : Shelf.Same i.companyId s (ws.foldl Row.apply s) .invoices :=
      run_kept of ran i.companyId .invoices (.inr bill)
    exact .of_mem ((Table.Agree.mem same rfl).mp stored)
  cases q with
  | invoiceUpdate id dueDate =>
    simp only [run] at ran
    split at ran
    · rename_i old found
      cases ran
      rcases Table.mem_put.mp stored with rfl | ⟨before, -⟩
      · exact ⟨old, Table.find?_mem (Db.invoice?_some.mp found).1, rfl, rfl, rfl, rfl⟩
      · exact .of_mem before
    · cases ran
  | _ => cases bill

/-- `update` leaves every bill what it was. -/
theorem InvoiceService.update_has {ctx : Ctx} {id : Id} {input : UpdateInvoiceInput}
    (stored : i ∈ ((PremisesCall.updateInvoice id input).commit S P ctx s).db.invoices.rows) :
    s.db.Has i := by
  have asks : (InvoiceService.update ctx id input).Asks (engine S P)
      (fun st => ∀ j ∈ st.db.invoices.rows, s.db.Has j)
      (Stays ctx.companyId (· = .invoices)) fun _ => True :=
    InvoiceService.update_within id input
  refine asks.serve_keeps (fun _ => true) ?_ (fun j there => .of_mem there) i stored
  rintro ⟨company, q⟩ st ws a ⟨⟨rfl, of⟩, -⟩ traced ran j there
  obtain ⟨old, mem, same⟩ := run_has of ran there
  obtain ⟨first, mem', same'⟩ := traced old mem
  exact ⟨first, mem', same'.trans same⟩

end Premises

/-! ## One request -/

namespace HttpCall
variable (A : Api) (c : Id) (call : HttpCall)

/-- The request issues the bill: it is by an admin of the company under its path, with a
role that may approve invoices. -/
def Issues (id : Id) : Prop :=
  ∃ claims queueUp now, call.endpoint = .invoicing queueUp (.issue now id) ∧
    call.admin? A = some claims ∧ claims.companyId = c ∧
    (∀ slug ∈ call.companySlug, slug ≠ "" → slug = claims.companySlug) ∧
    can claims.roles .approve .invoice

/-- The request sets the account of the company: it is by an owner under its path. -/
def SetsPayee (promptPayId : String) : Prop :=
  ∃ claims body, call.endpoint = .setPromptPay body ∧ body.promptPayId = promptPayId ∧
    call.admin? A = some claims ∧ claims.companyId = c ∧
    (∀ slug ∈ call.companySlug, slug ≠ "" → slug = claims.companySlug) ∧
    Role.company_owner ∈ claims.roles

end HttpCall

/-- The database has the company, with this account. -/
def Db.Payee (db : Db) (c : Id) (promptPayId : String) : Prop :=
  ∃ company ∈ db.companies.rows, company.id = c ∧ company.promptPayId = some promptPayId

/-- The routes that can change an invoice. -/
theorem Endpoint.bills {e : Endpoint} {p : Action × Resource} (demands : e.perm = some p)
    (listed : p ∈ Shelf.invoices.permissions) :
    (∃ queueUp call, e = .invoicing queueUp call) ∨
      (∃ id input, e = .premises (.updateInvoice id input)) ∨
      (∃ queueUp now id, e = .confirmPayment queueUp now id) ∨
      ∃ queueUp id reason, e = .rejectPayment queueUp id reason := by
  cases e with
  | invoicing queueUp call => exact .inl ⟨queueUp, call, rfl⟩
  | confirmPayment queueUp now id => exact .inr (.inr (.inl ⟨queueUp, now, id, rfl⟩))
  | rejectPayment queueUp id reason => exact .inr (.inr (.inr ⟨queueUp, id, reason, rfl⟩))
  | premises call =>
    cases call with
    | updateInvoice id input => exact .inr (.inl ⟨id, input, rfl⟩)
    | _ =>
      cases demands
      simp [PremisesCall.perm, Shelf.permissions] at listed
  | leasing call =>
    cases call <;> cases demands <;> simp [Leasing.LeasingCall.perm, Shelf.permissions] at listed
  | peekInvite | redeemInvite | mePaymentCreate | mePaymentRegisterSlip => cases demands
  | createPayment | createAnnouncement | generateInvite | revokeInvite | setPromptPay =>
    cases demands
    exact absurd listed (by decide)

theorem Endpoint.sets_payee {e : Endpoint} (demands : e.perm = some (.update, .company)) :
    ∃ body, e = .setPromptPay body := by
  cases e with
  | setPromptPay body => exact ⟨body, rfl⟩
  | premises call => cases call <;> cases demands
  | leasing call => cases call <;> cases demands
  | invoicing queueUp call => cases call <;> cases demands
  | _ => cases demands

/-- Only an owner may update the company. -/
theorem owner_of_can {roles : List Role} (holds : can roles .update .company) :
    Role.company_owner ∈ roles := by
  obtain ⟨role, held, allowed⟩ := can_iff.mp holds
  have granted : ⟨.company, .update⟩ ∈ matrix role := mem_allowedRoles.mp allowed
  cases role with
  | company_owner => exact held
  | property_manager | staff | tenant | guardian => exact absurd granted (by decide)

namespace HttpCall
variable {A : Api} {s : Dorm} {call : HttpCall} {i : Invoice} {ref promptPayId : String}

/-- Whoever may change a shelf of the company itself, or its invoices, is an admin. -/
theorem May.staff {c : Id} {x : Shelf} (may : call.May A c x s)
    (general : x = .company ∨ x = .invoices) : call.ByStaff A c x := by
  rcases may with staff | tenant | code
  · exact staff
  · obtain ⟨claims, -, -, own⟩ := tenant
    split at own
    · rcases general with rfl | rfl <;> cases own
    · rcases general with rfl | rfl <;> cases own.1
    · exact own.elim
  · obtain ⟨invite, -, opens, -⟩ := code
    rcases opens with opens | opens <;> rcases general with rfl | rfl <;> cases opens

/-- A bill with a code was there before the request, or the request issues it, for the
account that its company has. -/
theorem bill_step (coded : i.promptPayRef = some ref)
    (stored : i ∈ (call.commit A s).db.invoices.rows) :
    s.db.Has i ∨ call.Issues A i.companyId i.id ∧ ∃ promptPayId, s.db.Pays i promptPayId := by
  by_cases may : call.May A i.companyId .invoices s
  case neg => exact .inl (.of_mem ((Table.Agree.mem (commit_same may) rfl).mp stored))
  obtain ⟨claims, known, mine, path, p, listed, demands, holds⟩ := may.staff (.inr rfl)
  rcases commit_staff (s := s) known demands with refused | handled
  · rw [refused] at stored
    exact .inl (.of_mem stored)
  rw [handled] at stored
  rcases Endpoint.bills demands listed with ⟨queueUp, bill, routed⟩ | ⟨id, input, routed⟩ |
    ⟨queueUp, now, id, routed⟩ | ⟨queueUp, id, reason, routed⟩
  · rw [routed] at stored
    rcases InvoicingRequest.bill_step coded stored with old | ⟨now, promptPayId, rfl, -, pays⟩
    · exact .inl old
    · rw [routed] at demands
      obtain rfl := Option.some.inj demands
      exact .inr ⟨⟨claims, queueUp, now, routed, known, mine, path, holds⟩, promptPayId, pays⟩
  · rw [routed] at stored
    exact .inl (InvoiceService.update_has stored)
  · rw [routed] at stored
    exact .inl (BillingCall.decision_has (.inl ⟨_, _, _, rfl⟩) stored)
  · rw [routed] at stored
    exact .inl (BillingCall.decision_has (.inr ⟨_, _, rfl⟩) stored)

/-- An account was set before the request, or the request sets it. -/
theorem payee_step {c : Id} (set : (call.commit A s).db.Payee c promptPayId) :
    s.db.Payee c promptPayId ∨ call.SetsPayee A c promptPayId := by
  obtain ⟨company, stored, rfl, account⟩ := set
  by_cases may : call.May A company.id .company s
  case neg =>
    exact .inl ⟨company, (Table.Agree.mem (commit_same may) rfl).mp stored, rfl, account⟩
  obtain ⟨claims, known, mine, path, p, listed, demands, holds⟩ := may.staff (.inl rfl)
  obtain rfl := List.mem_singleton.mp listed
  rcases commit_staff (s := s) known demands with refused | handled
  · rw [refused] at stored
    exact .inl ⟨company, stored, rfl, account⟩
  obtain ⟨body, routed⟩ := Endpoint.sets_payee demands
  rw [handled, routed] at stored
  simp only [Endpoint.handleAs] at stored
  split at stored
  · exact .inl ⟨company, stored, rfl, account⟩
  rename_i row s' ok
  obtain ⟨old, listed, named, rfl, rfl⟩ := CompanyService.setPromptPay_row ok
  rcases Table.mem_put.mp stored with rfl | ⟨before, -⟩
  · exact .inr ⟨claims, body, routed, Option.some.inj account, known, mine, path,
      owner_of_can holds⟩
  · exact .inl ⟨company, before, rfl, account⟩

end HttpCall

/-! ## Any number of requests -/

section runs
variable (A : Api) (s : Dorm) (calls : List HttpCall)

/-- The account that a company has after the requests is the one that it had, or an owner
has set it. -/
theorem payee_set_by_owner {c : Id} {promptPayId : String}
    (set : (commitAll A s calls).db.Payee c promptPayId) :
    s.db.Payee c promptPayId ∨ ∃ before call rest, calls = before ++ call :: rest ∧
      call.SetsPayee A c promptPayId := by
  induction calls generalizing s with
  | nil => exact .inl set
  | cons call rest ih =>
    rcases ih (call.commit A s) set with there | ⟨before, call', rest', rfl, sets⟩
    · rcases HttpCall.payee_step there with first | sets
      · exact .inl first
      · exact .inr ⟨[], call, rest, rfl, sets⟩
    · exact .inr ⟨call :: before, call', rest', rfl, sets⟩

theorem bill_issued {i : Invoice} {ref : String} (coded : i.promptPayRef = some ref)
    (stored : i ∈ (commitAll A s calls).db.invoices.rows) :
    s.db.Has i ∨ ∃ before call rest promptPayId, calls = before ++ call :: rest ∧
      call.Issues A i.companyId i.id ∧ (commitAll A s before).db.Payee i.companyId promptPayId ∧
      i.PaidTo promptPayId := by
  induction calls generalizing s i with
  | nil => exact .inl (.of_mem stored)
  | cons call rest ih =>
    rcases ih (call.commit A s) coded stored with
      ⟨old, there, same⟩ | ⟨before, call', rest', promptPayId, rfl, issues, payee, paid⟩
    · rcases HttpCall.bill_step (same.promptPayRef.symm.trans coded) there with
        ⟨first, before, same'⟩ | ⟨issues, promptPayId, company, listed, named, account, paid⟩
      · exact .inl ⟨first, before, same'.trans same⟩
      · refine .inr ⟨[], call, rest, promptPayId, rfl, ?_, ⟨company, listed, ?_, account⟩, ?_⟩
        · rw [same.companyId, same.id]
          exact issues
        · rw [same.companyId]
          exact named
        · obtain ⟨ref', coded', generated⟩ := paid
          refine ⟨ref', same.promptPayRef.trans coded', ?_⟩
          rw [same.total]
          exact generated
    · exact .inr ⟨call :: before, call', rest', promptPayId, rfl, issues, payee, paid⟩

/-- **Nobody but an owner directs the money.** A bill with a QR code was there before the
requests, with the same code, company and total; or one of them issued it, by an admin
who may, for the account that the company had then, which it had from the start or an
owner has set by one of the requests before. A scanner reads that account and the total
of the bill in the code. -/
theorem bills_pay_company (i : Invoice) (ref : String) (coded : i.promptPayRef = some ref)
    (stored : i ∈ (commitAll A s calls).db.invoices.rows) :
    s.db.Has i ∨ ∃ before call rest promptPayId, calls = before ++ call :: rest ∧
      call.Issues A i.companyId i.id ∧ (commitAll A s before).db.Payee i.companyId promptPayId ∧
      (s.db.Payee i.companyId promptPayId ∨ ∃ first setting between,
        before = first ++ setting :: between ∧ setting.SetsPayee A i.companyId promptPayId) ∧
      i.PaidTo promptPayId ∧ (0 < i.total.units → i.Scans promptPayId) := by
  rcases bill_issued A s calls coded stored with
    old | ⟨before, call, rest, promptPayId, split, issues, payee, paid⟩
  · exact .inl old
  · exact .inr ⟨before, call, rest, promptPayId, split, issues, payee,
      payee_set_by_owner A s before payee, paid, paid.scans⟩

end runs

namespace Demo

/-- A bill that has not been issued. -/
def unissued : Dorm where
  estate := { books := db [invoice 1 11 (baht 100) .draft] [] }

/-- The owner sets an account and issues the bill. -/
def setAndIssue : List HttpCall :=
  [byOwner (.setPromptPay ⟨"0899999999", by decide⟩),
    byOwner (.invoicing (fun _ => true) (.issue 0 1))]

theorem setAndIssue_issued :
    ∃ i ∈ (commitAll api unissued setAndIssue).db.invoices.rows,
      0 < i.total.units ∧ i.promptPayRef.isSome = true := by
  simp only [commitAll, setAndIssue, List.foldl_cons, List.foldl_nil]
  rw [byOwner_commit (p := (.approve, .invoice)) rfl,
    byOwner_commit (p := (.update, .company)) rfl]
  decide +kernel

end Demo

open Demo in
/-- The bill is issued for one account, and a scanner reads it. -/
theorem bills_pay_company_issued :
    ∃ i ∈ (commitAll api unissued setAndIssue).db.invoices.rows, ∃ promptPayId,
      i.PaidTo promptPayId ∧ i.Scans promptPayId := by
  obtain ⟨i, stored, positive, coded⟩ := setAndIssue_issued
  obtain ⟨ref, coded⟩ := Option.isSome_iff_exists.mp coded
  rcases bills_pay_company api unissued setAndIssue i ref coded stored with
    ⟨old, there, same⟩ | ⟨before, call, rest, promptPayId, -, -, -, -, paid, scans⟩
  · have uncoded : ∀ old ∈ unissued.db.invoices.rows, old.promptPayRef = none := by decide
    cases (uncoded old there).symm.trans (same.promptPayRef.symm.trans coded)
  · exact ⟨i, stored, promptPayId, paid, scans positive⟩

end Dormitory
