import Dormitory.Calls
import Dormitory.Txn.Slot

/-!
# Racing for an idempotency key

Any number of `create` calls under one key, interleaved. A `create` commits
nothing or the first payment under the key, so once that one is committed no
other commit touches the key; and a `create` whose INSERT holds the key's index
entry keeps every other one from committing.
-/

namespace Dormitory
open Txn

/-! ## What a racer can commit -/

/-- Nothing, or the first payment under the key. -/
def Wins (c : Id) (key : String) (db : Db) (ws : List Row) : Prop :=
  ws = [] ∨ ∃ r : Payment, ws = [.payment r] ∧ r.companyId = c ∧ r.idempotencyKey = key ∧
    db.paymentByKey? c key = none ∧ db.payments.find? r.id = none

section interference
variable {S : Server} {c : Id} {key : String} {held : List Lock} {db db' : Db}

/-- The key's entry of the unique index on payments. -/
def paymentSlot (S : Server) (c : Id) (key : String) : Slot (engine S) Payment where
  table := Db.payments
  write := Row.payment
  has p := p.companyId = c ∧ p.idempotencyKey = key
  entry := .paymentKey c key
  put _ _ := rfl
  locked r has := by
    simp only [decide_eq_true_eq] at has
    simp [engine, Row.locks, has.1, has.2]

theorem takes_eq : (paymentSlot S c key).Takes = Wins c key := by
  funext db ws
  simp only [Slot.Takes, Wins, paymentSlot, decide_eq_true_eq, and_assoc]
  rfl

/-- Once the key is used, no racer commits a row. -/
theorem interferes_used {w : Payment} (used : db.paymentByKey? c key = some w)
    (h : Interferes (engine S) (Wins c key) held db db') : db' = db :=
  Slot.taken (s := paymentSlot S c key) used (takes_eq ▸ h)

/-- While a racer holds the key's index entry, no other one commits a row. -/
theorem interferes_held (lock : Lock.paymentKey c key ∈ held)
    (h : Interferes (engine S) (Wins c key) held db db') : db' = db :=
  Slot.alone (s := paymentSlot S c key) lock (takes_eq ▸ h)

/-- At most one row has the key. -/
def Db.KeyUnique (db : Db) (c : Id) (key : String) : Prop :=
  ∀ r ∈ db.payments.rows, ∀ r' ∈ db.payments.rows, r.companyId = c → r'.companyId = c →
    r.idempotencyKey = key → r'.idempotencyKey = key → r = r'

theorem unique_of_keyUnique (h : db.KeyUnique c key) : (paymentSlot S c key).Unique db := by
  intro r hr r' hr' has has'
  simp only [paymentSlot, decide_eq_true_eq] at has has'
  exact h r hr r' hr' has.1 has'.1 has.2 has'.2

end interference

/-! ## One racer -/

namespace PaymentService

/-- Where a `create` under the key may end. It leaves its transaction usable;
it returns the committed payment of the key, or its own when there is none; and
it throws what a guard says, or that its primary key is taken. -/
def Outcome (S : Server) (c : Id) (key : String) (input : CreatePaymentInput) :
    Except Failure Payment → Session billing → Db → Prop
  | .ok a, x, db => x.broken = false ∧
    (db.paymentByKey? c key = some a ∧ x.writes = [] ∨
      db.paymentByKey? c key = none ∧ x.writes = [.payment a] ∧ a.companyId = c ∧
        a.idempotencyKey = key ∧ db.payments.find? a.id = none)
  | .error e, x, _ => x.broken = false ∧
    (e = invalidInvoiceId input.invoiceId ∨ (∃ i, refusal i input = some e) ∨
      e = .prisma "P2002" (S.report ["id"]))

theorem Outcome.wins {S : Server} {c : Id} {key : String} {input : CreatePaymentInput} {a : Payment}
    {x : Session billing} {db : Db} (h : Outcome S c key input (.ok a) x db) :
    Wins c key db x.writes := by
  rcases h.2 with ⟨-, none⟩ | ⟨unused, one, company, used, fresh⟩
  · exact .inl none
  · exact .inr ⟨a, one, company, used, unused, fresh⟩

section racer
variable (S : Server) (ctx : Ctx) (key : String) {α : Type}
  {Q : Except Failure α → Session billing → Db → Prop} {ws : List Row} {saves : Saves} {seen : Seen}
  {db : Db}

/-- A statement that only reads. -/
theorem holds_read {q : Query} {f : q.Ans → Call α} (ans : Db → q.Ans)
    (reads : ∀ db, S.run ctx.companyId q db = .ok ([], ans db))
    (next : ∀ db' seen',
      Interferes (engine S) (Wins ctx.companyId key) (ws.flatMap Row.locks) db db' →
      (f (ans (ws.foldl Row.apply db'))).Holds (engine S) (Wins ctx.companyId key) Q
        ⟨ws, saves, false, seen'⟩ db') :
    (prisma ctx q >>= f).Holds (engine S) (Wins ctx.companyId key) Q
      ⟨ws, saves, false, seen⟩ db := by
  rw [prisma_bind]
  intro db' others
  rw [exec_ok S ctx q db' (x := ⟨ws, saves, false, seen⟩) rfl (reads _)]
  simp only [List.append_nil]
  exact next db' _ others

/-- `insertOnce`, statement by statement. -/
theorem insertOnce_eq (row : Payment) :
    insertOnce ctx row = @Prog.sql billing _ ⟨ctx.companyId, .paymentCreate row⟩ fun r =>
      match r with
      | .ok a => Prog.ctl (.release "idempotent_payment_create") fun
        | .ok () => Prog.ret a
        | .error e => Prog.ctl (.rollbackTo "idempotent_payment_create") fun
          | .ok () => existingOrRethrow ctx row.idempotencyKey e
          | .error e' => Prog.fail e'
      | .error e => Prog.ctl (.rollbackTo "idempotent_payment_create") fun
        | .ok () => existingOrRethrow ctx row.idempotencyKey e
        | .error e' => Prog.fail e' := by
  change Prog.sql _ _ = _
  congr 1
  funext r
  cases r with
  | error e =>
    change Prog.ctl _ _ = _
    congr 1
    funext r
    cases r <;> rfl
  | ok a =>
    change Prog.ctl _ _ = _
    congr 1
    funext r
    cases r with
    | ok => rfl
    | error e =>
      change Prog.ctl _ _ = _
      congr 1
      funext r
      cases r <;> rfl

variable (reports : S.Reports ["company_id", "idempotency_key"]) (input : CreatePaymentInput)
include reports

/-- The last lookup of a lost race finds the winner. -/
theorem existingOrRethrow_holds {err : Failure}
    (lost : err = .prisma "P2002" (S.report ["id"]) ∨
      err = .prisma "P2002" (S.report ["company_id", "idempotency_key"]) ∧
        (db.paymentByKey? ctx.companyId key).isSome) :
    (existingOrRethrow ctx key err).Holds (engine S) (Wins ctx.companyId key)
      (Outcome S ctx.companyId key input) ⟨[], saves, false, seen⟩ db := by
  unfold existingOrRethrow
  split
  · refine holds_read S ctx key (fun db => db.paymentByKey? ctx.companyId key) (fun _ => rfl) ?_
    intro db₁ seen₁ others
    simp only [List.foldl_nil]
    cases winner : db₁.paymentByKey? ctx.companyId key with
    | some w =>
      intro db₂ others
      rw [interferes_used winner others]
      exact ⟨rfl, .inl ⟨winner, rfl⟩⟩
    | none =>
      intro db₂ _
      refine ⟨rfl, .inr (.inr ?_)⟩
      rcases lost with rfl | ⟨-, used⟩
      · rfl
      · obtain ⟨w, used⟩ := Option.isSome_iff_exists.1 used
        rw [interferes_used used others, used] at winner
        cases winner
  · rename_i unknown
    intro db₁ _
    refine ⟨rfl, .inr (.inr ?_)⟩
    rcases lost with rfl | ⟨rfl, -⟩
    · rfl
    · exact absurd (recognised reports) unknown

theorem insertOnce_holds {row : Payment} (company : row.companyId = ctx.companyId)
    (used : row.idempotencyKey = key) :
    (insertOnce ctx row).Holds (engine S) (Wins ctx.companyId key)
      (Outcome S ctx.companyId key input)
      ⟨[], [("idempotent_payment_create", [])], false, seen⟩ db := by
  rw [insertOnce_eq]
  intro db₁ _
  by_cases accepted : (db₁.payments.find? row.id).isNone ∧
      (db₁.paymentByKey? row.companyId row.idempotencyKey).isNone
  · have run : S.run ctx.companyId (.paymentCreate row)
        ((⟨[], [("idempotent_payment_create", [])], false, seen⟩ : Session billing).view (engine S)
          db₁)
          = .ok ([.payment row], row) :=
      (PaymentService.createPayment_eq S db₁ row).trans (if_pos accepted)
    rw [exec_ok S ctx _ db₁ rfl run]
    obtain ⟨fresh, unused⟩ := accepted
    rw [Option.isNone_iff_eq_none] at fresh unused
    rw [company, used] at unused
    intro db₂ others
    -- From here on the key's index entry is held.
    have held : Lock.paymentKey ctx.companyId key ∈
        ([.payment row] : List Row).flatMap (engine S).locks := by
      simp [engine, Row.locks, company, used]
    have still : db₂ = db₁ := interferes_held held others
    subst still
    intro db₃ others
    have still : db₃ = db₂ := interferes_held held others
    subst still
    exact ⟨rfl, .inr ⟨unused, rfl, company, used, fresh⟩⟩
  · obtain ⟨err, run, lost⟩ : ∃ err, S.createPayment row db₁ = .error err ∧
        (err = .prisma "P2002" (S.report ["id"]) ∨
          err = .prisma "P2002" (S.report ["company_id", "idempotency_key"]) ∧
            (db₁.paymentByKey? ctx.companyId key).isSome) := by
      rw [PaymentService.createPayment_eq, if_neg accepted]
      split
      · exact ⟨_, rfl, .inl rfl⟩
      · rename_i free
        refine ⟨_, rfl, .inr ⟨rfl, ?_⟩⟩
        rw [← company, ← used]
        cases known : db₁.paymentByKey? row.companyId row.idempotencyKey with
        | some w => rfl
        | none => exact absurd (by simpa [known] using free) accepted
    have run : S.run ctx.companyId (.paymentCreate row)
        ((⟨[], [("idempotent_payment_create", [])], false, seen⟩ : Session billing).view (engine S)
          db₁)
          = .error err := run
    rw [exec_error S ctx _ db₁ rfl run]
    intro db₂ others
    change Prog.Holds _ _ _ (existingOrRethrow ctx row.idempotencyKey err) _ db₂
    rw [used]
    refine existingOrRethrow_holds S ctx key reports input (lost.imp_right fun h => ⟨h.1, ?_⟩)
    obtain ⟨w, known⟩ := Option.isSome_iff_exists.1 h.2
    rw [interferes_used known others]
    exact h.2

theorem create_holds (newId : Id) :
    (create ctx newId input key).Holds (engine S) (Wins ctx.companyId key)
      (Outcome S ctx.companyId key input) {} db := by
  unfold create
  refine holds_read S ctx key (fun db => db.invoice? ctx.companyId input.invoiceId)
    (fun _ => rfl) ?_
  intro db₁ seen₁ _
  simp only [List.foldl_nil]
  cases db₁.invoice? ctx.companyId input.invoiceId with
  | none =>
    intro db₂ _
    exact ⟨rfl, .inl rfl⟩
  | some i =>
    cases refused : refusal i input with
    | some err =>
      simp only [refused]
      intro db₂ _
      exact ⟨rfl, .inr (.inl ⟨i, refused⟩)⟩
    | none =>
      simp only [refused]
      refine holds_read S ctx key (fun db => db.paymentByKey? ctx.companyId key) (fun _ => rfl) ?_
      intro db₂ seen₂ _
      simp only [List.foldl_nil]
      cases known : db₂.paymentByKey? ctx.companyId key with
      | some w =>
        intro db₃ others
        rw [interferes_used known others]
        exact ⟨rfl, .inl ⟨known, rfl⟩⟩
      | none =>
        intro db₃ _
        exact insertOnce_holds S ctx key reports input rfl rfl

end racer
end PaymentService

/-! ## Any number of racers -/

open PaymentService in
/-- **At most one payment per key.** In every interleaving of `create` calls
under one key, with any of them crashing anywhere: all committed states together
have one payment with the key at most; a call that returns after one was
committed returns that one; and no call leaves its transaction aborted or
throws because it lost. -/
theorem one_payment_per_key {ι : Type} [Fintype ι] [DecidableEq ι] (S : Server)
    (reports : S.Reports ["company_id", "idempotency_key"]) (ctx : Ctx) (key : String)
    (newId : ι → Id) (input : ι → CreatePaymentInput) (db : Db)
    (unique : db.KeyUnique ctx.companyId key) (as : List (Action ι)) (c : Config billing ι Payment)
    (run : (Config.start db fun t => create ctx (newId t) (input t) key).run (engine S) as =
      some c) :
    (∀ d ∈ c.db :: c.past, ∀ d' ∈ c.db :: c.past, ∀ r ∈ d.payments.rows, ∀ r' ∈ d'.payments.rows,
      r.companyId = ctx.companyId → r'.companyId = ctx.companyId →
      r.idempotencyKey = key → r'.idempotencyKey = key → r = r') ∧
    (∀ t a x w, c.txs t = .running (.ret a) x → c.db.paymentByKey? ctx.companyId key = some w →
      a.id = w.id) ∧
    (∀ t a, c.txs t = .committed a → ∃ w, c.db.paymentByKey? ctx.companyId key = some w ∧
      a.id = w.id) ∧
    (∀ t x, (∃ a, c.txs t = .running (.ret a) x) ∨ (∃ e, c.txs t = .running (.fail e) x) →
      x.broken = false) ∧
    (∀ t e x, c.txs t = .running (.fail e) x → e = invalidInvoiceId (input t).invoiceId ∨
      (∃ i, refusal i (input t) = some e) ∨ e = .prisma "P2002" (S.report ["id"])) := by
  have governed : Governed (engine S) (Wins ctx.companyId key)
      (fun t => Outcome S ctx.companyId key (input t)) db c :=
    Governed.run_governed (fun t => create_holds S ctx key reports (input t) (newId t))
      (fun t a x db h _ => h.wins) as run
  refine ⟨?_, ?_, ?_, ?_, ?_⟩
  · intro d hd d' hd' r hr r' hr' company company' used used'
    have committed : ∀ d ∈ c.db :: c.past,
        Interferes (engine S) (paymentSlot S ctx.companyId key).Takes [] d c.db := by
      rw [takes_eq]
      exact fun d hd => (governed.reached d hd).2
    have upTo : Interferes (engine S) (paymentSlot S ctx.companyId key).Takes [] db c.db := by
      rw [takes_eq]
      exact (governed.reached c.db List.mem_cons_self).1
    exact Slot.unique_ever (unique_of_keyUnique unique) upTo (committed d hd) (committed d' hd') hr
      hr' (decide_eq_true ⟨company, used⟩) (decide_eq_true ⟨company', used'⟩)
  · intro t a x w here winner
    obtain ⟨-, ⟨known, -⟩ | ⟨unused, -⟩⟩ := governed.running t _ x here c.db .refl
    · rw [winner] at known
      cases known
      rfl
    · rw [winner] at unused
      cases unused
  · intro t a here
    obtain ⟨x, db', ⟨-, outcome⟩, sound, later⟩ := governed.committed t a here
    have known : (x.view (engine S) db').paymentByKey? ctx.companyId key = some a := by
      rcases outcome with ⟨known, nothing⟩ | ⟨unused, one, company, used, fresh⟩
      · simpa [Session.view, nothing] using known
      · rw [Session.view, one]
        exact Slot.row?_apply (s := paymentSlot S ctx.companyId key)
          (decide_eq_true ⟨company, used⟩) unused fresh
    exact ⟨a, by rw [interferes_used known later, known], rfl⟩
  · rintro t x (⟨a, here⟩ | ⟨e, here⟩)
    · exact (governed.running t _ x here c.db .refl).1
    · exact (governed.running t _ x here c.db .refl).1
  · intro t e x here
    exact (governed.running t _ x here c.db .refl).2

namespace Demo

def doubleClick : CreatePaymentInput := ⟨1, baht 100, .cash, none⟩

/-- Two first payments under one key. -/
def racers : Config billing (Fin 2) Payment :=
  Config.start (db [invoice 1 11 (baht 100) .issued] []) fun t =>
    PaymentService.create ctx (5 + t) doubleClick "key-of-a-double-click"

/-- Both look the key up and make a savepoint, the first one inserts, and the
second one's INSERT runs after its COMMIT. -/
def raceSchedule : List (Action (Fin 2)) :=
  [.advance 0, .advance 0, .advance 1, .advance 1, .advance 0, .advance 0, .advance 1, .advance 0,
    .advance 0, .advance 1, .advance 1, .advance 1, .advance 1]

def answers (c : Config billing (Fin 2) Payment) : List (Option Id) :=
  [(0 : Fin 2), 1].map fun t => match c.txs t with
    | .committed p => some p.id
    | _ => none

end Demo

/-- Both calls of a race answer with the winner's payment. -/
theorem one_payment_per_key_two :
    (Demo.racers.run (engine Demo.server) Demo.raceSchedule).map Demo.answers =
      some [some 5, some 5] ∧
    ∀ c, Demo.racers.run (engine Demo.server) Demo.raceSchedule = some c →
      ∀ d ∈ c.db :: c.past, ∀ d' ∈ c.db :: c.past, ∀ r ∈ d.payments.rows, ∀ r' ∈ d'.payments.rows,
        r.companyId = 1 → r'.companyId = 1 → r.idempotencyKey = "key-of-a-double-click" →
        r'.idempotencyKey = "key-of-a-double-click" → r = r' :=
  ⟨by decide, fun c run =>
    (one_payment_per_key Demo.server (.inl rfl) Demo.ctx "key-of-a-double-click"
      (fun t : Fin 2 => 5 + t) (fun _ => Demo.doubleClick) _ (fun r hr => by cases hr)
      Demo.raceSchedule c run).1⟩

end Dormitory
