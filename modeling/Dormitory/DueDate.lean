import Dormitory.Calendar
import Dormitory.Calls
import Dormitory.QrPayload
import Dormitory.Txn.Performs

/-!
# The due date a tenant is told

`computeDueDate` names a midnight in Bangkok, the column keeps the instant, and
`issue` cuts the date out of its UTC rendering. Bangkok is ahead of UTC, so the
midnight lies on the day before: `dueDate_string` says which text the tenant is
sent instead of the one `askedDate` gives.
-/

namespace Dormitory
open Txn NotificationService PromptPay

/-- `YYYY-MM-DD`. -/
def Civil.text (c : Civil) : String :=
  padStart 4 c.year.toNat ++ "-" ++ padStart 2 c.month ++ "-" ++ padStart 2 c.day

/-- The day of the month after the period that the operator of a batch asks for. -/
def askedDay (p : Period) (dueDayOfMonth : Nat) : Civil :=
  ⟨p.next.1, p.next.2, dueDayOfMonth⟩

/-- The day that `new Date(y, m - 1, d)` names: a year below 100 is one of the
twentieth century. -/
def localDue (p : Period) (dueDayOfMonth : Nat) : Civil :=
  ⟨if p.next.1 < 100 then 1900 + p.next.1 else p.next.1, p.next.2, dueDayOfMonth⟩

/-- `computeDueDate`, with `fromZonedTime` subtracting `offset`. -/
def dueInstant (offset : Civil → Int) (p : Period) (dueDayOfMonth : Nat) : Instant :=
  (localDue p dueDayOfMonth).days * millisPerDay - offset (localDue p dueDayOfMonth)

def sevenHours : Civil → Int := fun _ => 25200000

theorem computeDueDate_eq (p : Period) (d : Nat) :
    InvoiceService.computeDueDate p d = dueInstant bangkokOffset p d := by
  unfold InvoiceService.computeDueDate fromBangkok dueInstant localDue
  rfl

theorem localDue_common (p : Period) {d : Nat} (low : 1 ≤ d) (high : d ≤ 28) :
    (localDue p d).Common := by
  have := p.valid
  refine ⟨?_, ?_, low, high⟩ <;> simp only [localDue, Period.next] <;> omega

/-- The zone is ahead of UTC, by at most a day. -/
def Ahead (offset : Civil → Int) : Prop := ∀ c, 0 < offset c ∧ offset c ≤ millisPerDay

theorem ahead_sevenHours : Ahead sevenHours := by
  intro c
  simp [sevenHours, millisPerDay]

theorem ahead_bangkok : Ahead bangkokOffset := by
  intro c
  unfold bangkokOffset millisPerDay
  split <;> omega

/-- In UTC the midnight lies on the day before. -/
theorem dueInstant_day {offset : Civil → Int} (zone : Ahead offset) (p : Period) (d : Nat) :
    (dueInstant offset p d).fdiv millisPerDay = (localDue p d).days - 1 := by
  have := zone (localDue p d)
  unfold dueInstant millisPerDay at *
  rw [Int.fdiv_eq_ediv_of_nonneg _ (by omega)]
  omega

/-- A date is told by its text. -/
theorem Civil.text_day {c c' : Civil} (h : c.day < 32) (h' : c'.day < 32)
    (same : c.text = c'.text) : c.day = c'.day := by
  have ends := congrArg String.toList same
  simp only [Civil.text, String.toList_append] at ends
  have two : (padStart 2 c.day).length = 2 := length_padStart (by omega) (by omega)
  have two' : (padStart 2 c'.day).length = 2 := length_padStart (by omega) (by omega)
  have last := (List.append_inj' ends (by simp only [String.length_toList]; omega)).2
  have read := congrArg readDigits last
  rw [readDigits_padStart, readDigits_padStart] at read
  exact Option.some.inj read

/-- A text that starts with a number has no sign. -/
theorem Civil.text_head (c : Civil) {sign : Char} (h : sign.isDigit = false) :
    c.text.toList.head? ≠ some sign := by
  obtain ⟨first, rest, year, digit⟩ := padStart_head 4 c.year.toNat
  simp only [Civil.text, String.toList_append, year, List.cons_append, List.head?_cons, ne_eq,
    Option.some.injEq]
  rintro rfl
  exact absurd digit (by simp [h])

/-- A year of four digits is cut to the text of its day, another one has a sign. -/
theorem Instant.isoDate_cases (t : Instant) :
    t.isoDate = (Civil.ofDays (t.fdiv millisPerDay)).text ∨
      ∃ sign : Char, sign.isDigit = false ∧ t.isoDate.toList.head? = some sign := by
  unfold Instant.isoDate Civil.text
  dsimp only
  split
  · left
    simp only [String.append_assoc]
  · right
    split
    · exact ⟨'-', rfl, by simp⟩
    · exact ⟨'+', rfl, by simp⟩

/-- The text is never that of the day asked for. -/
theorem dueInstant_isoDate {offset : Civil → Int} (zone : Ahead offset) (p : Period) {d : Nat}
    (low : 1 ≤ d) (high : d ≤ 28) :
    (dueInstant offset p d).isoDate ≠ (askedDay p d).text := by
  have range := Civil.ofDays_range ((localDue p d).days - 1)
  intro same
  rcases Instant.isoDate_cases (dueInstant offset p d) with text | ⟨sign, noDigit, head⟩
  · rw [text, dueInstant_day zone p d] at same
    have := Civil.text_day (by omega) (by simp only [askedDay]; omega) same
    exact Civil.day_before (localDue_common p low high) this
  · rw [same] at head
    exact (askedDay p d).text_head noDigit head

/-! ## What `issue` sends -/

section
variable (S : Server) (ctx : Ctx) (queueUp : Nat → Bool) {db : Db}

theorem sent_prisma {α : Type} (env : Env billing) (q : Query) (f : q.Ans → Call α) (n : Nat)
    {ws ws' : List Row} {sv : List (String × List Row)} {tr : List (Statement × Db)} {a : q.Ans}
    (ran : S.run ctx.companyId q (ws.foldl Row.apply (env.db n)) = .ok (ws', a)) :
    (prisma ctx q >>= f).sent (engine S) env n ⟨ws, sv, false, tr⟩ =
      (f a).sent (engine S) env (n + 1)
        ⟨ws ++ ws', sv, false, tr ++ [(⟨ctx.companyId, q⟩, ws.foldl Row.apply (env.db n))]⟩ := by
  rw [prisma_bind]
  simp only [Prog.sent]
  rw [exec_ok S ctx q (env.db n) (x := ⟨ws, sv, false, tr⟩) rfl ran]
  rfl

/-- The request to issue a draft of a company that can be paid sends one job,
with the date of the row. -/
theorem issue_sent {now : Instant} {id : Id} {i : Invoice} {patch : InvoicePatch}
    (found : db.invoice? ctx.companyId id = some i) (draft : i.status = .draft)
    (payable : InvoiceService.issuePatch now (db.company? ctx.companyId ctx.companyId) i.total =
      some patch) :
    ∃ companySlug, (InvoiceService.issue ctx now id).sent (engine S) ⟨fun _ => db, queueUp⟩ 0 {} =
      [(.invoice_issued ctx.companyId companySlug i.tenantId i.id i.period i.total.toString
        i.dueDate.isoDate, queueUp 3)] := by
  cases present : db.company? ctx.companyId ctx.companyId with
  | none => simp [InvoiceService.issuePatch, present] at payable
  | some company =>
    refine ⟨company.slug, ?_⟩
    simp only [InvoiceService.issuePatch, present, Option.bind_eq_bind, Option.bind_some] at payable
    cases configured : company.promptPayId with
    | none => simp [configured] at payable
    | some promptPayId =>
      simp only [configured, Option.bind_some] at payable
      by_cases empty : promptPayId = ""
      · simp [empty] at payable
      · simp only [empty, if_false] at payable
        cases qr : generatePromptPayPayload promptPayId (some i.total.toDecimal) with
        | error message => simp [qr] at payable
        | ok promptPayRef =>
          have read : S.run ctx.companyId (.invoiceFindUnique id) db = .ok ([], some i) := by
            rw [← found]
            rfl
          have readCompany : S.run ctx.companyId (.companyFindUnique ctx.companyId) db =
              .ok ([], some company) := by
            rw [← present]
            rfl
          unfold InvoiceService.issue InvoiceService.getById
          rw [Prog.bind_assoc, sent_prisma S ctx _ _ _ 0 read]
          simp only [Prog.pure_eq, Prog.bind_ret, draft, reduceCtorEq, if_false, ne_eq,
            not_true_eq_false]
          rw [sent_prisma S ctx _ _ _ (0 + 1) readCompany]
          simp only [configured, empty, if_false, qr, List.append_nil]
          have update := @InvoiceService.run_invoiceUpdate S ctx.companyId id
            (([] : List Row).foldl Row.apply db) i
            { status := .issued, issueDate := some now, promptPayRef := some promptPayRef } found
          rw [sent_prisma S ctx ⟨fun _ => db, queueUp⟩ _ _ (0 + 1 + 1) update]
          simp only [enqueueInvoiceIssued, enqueue_eq, Prog.bind_send, Prog.bind_ret]
          simp [Prog.sent, InvoicePatch.apply]

/-- **The due date of the notice.** Issuing an invoice that a batch has generated
for the period and the due day sends one notice, and its `dueDate` is never the
text of that day of the following month: neither with the offsets of the zone
database nor with seven hours throughout. -/
theorem notice_never_tells_dueDate {now : Instant} {id : Id} {i : Invoice} {patch : InvoicePatch}
    (p : Period) (d : Nat) (low : 1 ≤ d) (high : d ≤ 28) (offset : Civil → Int)
    (zone : offset = sevenHours ∨ offset = bangkokOffset)
    (generated : i.dueDate = dueInstant offset p d)
    (found : db.invoice? ctx.companyId id = some i) (draft : i.status = .draft)
    (payable : InvoiceService.issuePatch now (db.company? ctx.companyId ctx.companyId) i.total =
      some patch) :
    ∃ companySlug dueDate,
      (InvoiceService.issue ctx now id).sent (engine S) ⟨fun _ => db, queueUp⟩ 0 {} =
        [(.invoice_issued ctx.companyId companySlug i.tenantId i.id i.period i.total.toString
          dueDate, queueUp 3)] ∧ dueDate ≠ (askedDay p d).text := by
  obtain ⟨companySlug, sent⟩ := issue_sent S ctx queueUp found draft payable
  refine ⟨companySlug, _, sent, ?_⟩
  rw [generated]
  cases zone with
  | inl seven => exact seven ▸ dueInstant_isoDate ahead_sevenHours p low high
  | inr bangkok => exact bangkok ▸ dueInstant_isoDate ahead_bangkok p low high

/-- A draft for April 2026, due on the fifth. -/
def Demo.fifthOfMay : Invoice :=
  { Demo.invoice 1 11 (Demo.baht 1000) .draft with
    dueDate := InvoiceService.computeDueDate Demo.april 5 }

theorem notice_never_tells_dueDate_may : ∃ companySlug dueDate,
    (InvoiceService.issue Demo.ctx 0 1).sent (engine Demo.server)
        ⟨fun _ => Demo.db [Demo.fifthOfMay] [], fun _ => true⟩ 0 {} =
      [(.invoice_issued 1 companySlug 11 1 Demo.april "1000" dueDate, true)] ∧
    dueDate ≠ (askedDay Demo.april 5).text := by
  obtain ⟨patch, payable⟩ := Option.isSome_iff_exists.mp (show (InvoiceService.issuePatch 0
    ((Demo.db [Demo.fifthOfMay] []).company? 1 1) Demo.fifthOfMay.total).isSome by decide +kernel)
  exact notice_never_tells_dueDate Demo.server Demo.ctx (fun _ => true) Demo.april 5 (by decide)
    (by decide) bangkokOffset (.inr rfl) (computeDueDate_eq _ _) rfl rfl payable

/-- The operator asked for 2026-05-05, the tenant is told 2026-05-04. -/
theorem fifth_noticed_as_fourth :
    (InvoiceService.issue Demo.ctx 0 1).sent (engine Demo.server)
        ⟨fun _ => Demo.db [Demo.fifthOfMay] [], fun _ => true⟩ 0 {} =
      [(.invoice_issued 1 "acme" 11 1 Demo.april "1000" "2026-05-04", true)] ∧
    (askedDay Demo.april 5).text = "2026-05-05" := by
  decide +kernel

end

end Dormitory
